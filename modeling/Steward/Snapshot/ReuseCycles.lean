import Steward.Snapshot.SoleEntry
import Steward.Snapshot.Termination

/-!
# Reuse cycles

A corpus holds finitely many reuse sources, so verification bottoms out
everywhere exactly when no Snapshot reaches itself through the references that
are followed. A valid document may name itself.
-/

namespace Steward

open Py Sqlite

variable {F : Type} [SqliteFloat F]

/-! ## Finitely many sources -/

/-- The documents of the Evidence files of the corpus. -/
def Corpus.documents (c : Corpus F) : List (Value F) :=
  c.dirs.flatMap fun d => d.2.listing.filterMap fun f => match f.2 with
    | .file (.json d) => some d.value
    | _ => none

theorem mem_loadListing {l : List (Text × Node F)} {files : RunFiles F}
    (h : loadListing l = .ok files) {f : Text × Document F} (hf : f ∈ files.files) :
    (f.1, Node.file (.json f.2)) ∈ l := by
  induction l generalizing files with
  | nil => cases h; cases hf
  | cons x l ih =>
    obtain ⟨loaded, hl, h⟩ := bind_eq_ok.1 h
    obtain ⟨rest, hrest, h⟩ := bind_eq_ok.1 h
    cases h
    cases loaded with
    | skipped => exact List.mem_cons_of_mem _ (ih hrest hf)
    | failure m => exact List.mem_cons_of_mem _ (ih hrest hf)
    | item d =>
      rcases List.mem_cons.1 hf with rfl | hf
      · exact (loadNode_eq_item.1 hl).1 ▸ List.mem_cons_self
      · exact List.mem_cons_of_mem _ (ih hrest hf)

theorem mem_matchesAmong {id : Value F} {runId : Text} {files : List (Text × Document F)}
    {hits : List (Fact F)} (h : matchesAmong id runId files = .ok hits) {f : Fact F} (hf : f ∈ hits) :
    ∃ name, (name, f.1) ∈ files ∧ f.2 = evidencePath runId name ∧ persistsSnapshot id f.1.value = .ok true := by
  induction files generalizing hits with
  | nil => cases h; cases hf
  | cons x files ih =>
    obtain ⟨hit, hx, h⟩ := bind_eq_ok.1 h
    obtain ⟨rest, hrest, h⟩ := bind_eq_ok.1 h
    cases h
    have tail (hf : f ∈ rest) : ∃ name, (name, f.1) ∈ x :: files ∧ f.2 = evidencePath runId name ∧
        persistsSnapshot id f.1.value = .ok true :=
      (ih hrest hf).imp fun _ h => ⟨List.mem_cons_of_mem _ h.1, h.2⟩
    split_ifs at hf with hh
    · rcases List.mem_cons.1 hf with rfl | hf
      · exact ⟨x.1, List.mem_cons_self, rfl, hh ▸ hx⟩
      · exact tail hf
    · exact tail hf

theorem mem_matchesInRuns {c : Corpus F} {id : Value F} {runIds : List Text} {hits : List (Fact F)}
    (h : matchesInRuns c id runIds = .ok hits) {f : Fact F} (hf : f ∈ hits) :
    f.1.value ∈ c.documents := by
  induction runIds generalizing hits with
  | nil => cases h; cases hf
  | cons r rs ih =>
    obtain ⟨files, hl, h⟩ := bind_eq_ok.1 h
    obtain ⟨here, hm, h⟩ := bind_eq_ok.1 h
    obtain ⟨rest, hrest, h⟩ := bind_eq_ok.1 h
    cases h
    rcases List.mem_append.1 hf with hf | hf
    · obtain ⟨name, hn, -, -⟩ := mem_matchesAmong hm hf
      unfold loadRunFiles at hl
      cases hd : c.dir? r with
      | none => rw [hd] at hl; cases hl; cases hn
      | some dir =>
        rw [hd] at hl
        have hmem := mem_loadListing hl hn
        refine List.mem_flatMap.2 ⟨(r, dir), ?_, List.mem_filterMap.2 ⟨_, hmem, rfl⟩⟩
        unfold Corpus.dir? at hd
        unfold Corpus.dirs
        cases hr : c.runs with
        | none => rw [hr] at hd; cases hd
        | some runs =>
          rw [hr] at hd
          exact Directory.find_eq_some.1 hd
    · exact ih hrest hf

theorem mem_documents_of_find {c : Corpus F} {id : Value F} {d : Document F} {path : Text}
    (h : findSnapshotEvidence c id = .ok (some (d, path))) : d.value ∈ c.documents := by
  unfold findSnapshotEvidence at h
  split_ifs at h
  obtain ⟨hits, hm, h⟩ := bind_eq_ok.1 h
  rcases hits with _ | ⟨f, _ | _⟩
  · cases h
  · cases h; exact mem_matchesInRuns hm List.mem_cons_self
  · cases h

/-- The identity a mapped Snapshot takes from its document. -/
theorem snapshotId_of_mapped {evidence : Value F} {path : Text} {s : Snapshot F}
    (h : snapshotV2FromValidEvidence evidence path = .ok s) :
    s.field .snapshotId = (snapshotFact evidence).getIf (txt "snapshot_id") := by
  simp only [snapshotV2FromValidEvidence, snapshotFromDocument, documentParts, bind_eq_ok] at h
  obtain ⟨t, ⟨parts, ⟨payload, hp, data, hd, entries, -, items, -, hparts⟩, _, -, _, -, es, -, _, -, _, -,
    _, -, _, -, _, -, _, -, ht⟩, _, -, _, -, _, -, _, -, h⟩ := h
  cases h
  cases hparts
  cases ht
  have hp' : payload = evidence.getIf (txt "payload") := (itemOf_eq_ok.1 hp).2
  have hd' : data = payload.getIf (txt "snapshot") := by
    cases payload with
    | dict fs => 
      unfold Value.item at hd
      cases hl : lookup fs (txt "snapshot") with
      | none => simp [hl] at hd
      | some v => simp [hl] at hd; simp [Value.getIf, Value.get, hl, hd]
    | _ => cases hd
  rw [snapshotFact, ← hp', ← hd']
  rfl

theorem finite_refers (c : Corpus F) (ix : Index F) : {t | ∃ id, Refers c ix id t}.Finite := by
  refine ((c.documents.map fun v => (snapshotFact v).getIf (txt "snapshot_id")).finite_toSet).subset ?_
  rintro t ⟨id, current, before, e, after, -, -, ⟨s, hr, rfl⟩, -⟩
  obtain ⟨d, path, hf, hm⟩ := sourceReference_source hr
  exact List.mem_map.2 ⟨_, mem_documents_of_find hf, (snapshotId_of_mapped hm).symm⟩

/-- Verification of every Snapshot bottoms out exactly when none refers back to itself. -/
theorem verification_terminates_iff_acyclic (c : Corpus F) (ix : Index F) :
    (∀ id, ∃ depth, verifySnapshot c ix depth id ≠ .error .stackOverflow) ↔
      ∀ id, ¬ Relation.TransGen (Refers c ix) id id := by
  rw [← settles_iff_acyclic (verifyStatus c ix) (.error .stackOverflow)
    (finite_refers c ix) (fun _ => rfl) (fun _ _ _ h hn => overflow_of_refers h hn)
    fun _ h => settles_of_references h]
  refine forall_congr' fun id => ⟨fun ⟨n, hn⟩ => ⟨n + 1, Bounded.map hn _⟩, fun ⟨n, hn⟩ => ?_⟩
  cases n with
  | zero => exact absurd rfl hn
  | succ n => exact ⟨n, fun h => hn (congrArg (Verification.status <$> ·) h)⟩

/-! ## A Snapshot that names itself -/

def selfId : Text := txt "11111111-1111-4111-8111-111111111111"

/-- A hash reused from the Snapshot that holds it. -/
def selfObservation : Observation Integral where
  status := .hashed
  provenance := some .reusedFromVerifiedSnapshot
  field
    | .algorithm => lit "sha256"
    | .algorithmVersion => .int 1
    | .digest => .str (Runtime.sha256 Integral [])
    | .bytesHashed => .int 3
    | .reusedFromSnapshotId => .str selfId
    | _ => .none

def selfEntry : Entry Integral where
  field
    | .entryId => .str (Runtime.sha256 Integral (Text.utf8 (entryIdText selfId (txt "s") (txt "f"))))
    | .snapshotId => .str selfId
    | .scopeId => lit "s"
    | .relativePath => lit "f"
    | .sizeBytes => .int 3
    | _ => .none
  flag _ := false
  objectType := .regularFile
  observationStatus := .observed
  v2 := some ⟨.none, selfObservation⟩

def selfPolicy : PolicyKey → Value Integral
  | .algorithm => lit "sha256"
  | .algorithmVersion | .hashChunkSize => .int 1
  | .allowNonLocalContent => .bool false
  | .allowVerifiedReuse => .bool true
  | _ => .none

/-- The metadata without its own digest. -/
def selfMetadata : SnapshotKey → Value Integral
  | .field .snapshotId => .str selfId
  | .field .entriesDigest => .str (sha (entriesDomain [selfEntry.toDict]))
  | .field .entryCount | .field .observedCount | .field .maxDepthObserved => .int 1
  | .field .errorCount | .field .excludedCount => .int 0
  | .field .totalRegularFileBytes => .int 3
  | .field _ => lit "t"
  | .status => nameValue SnapshotStatus.complete
  | .consistency => nameValue SnapshotConsistency.bestEffortPointInTime
  | .scopeIds => .list [lit "s"]
  | .budget => budgetDict fun _ => .int 1
  | .entries => .list [selfEntry.toDict]
  | .snapshotSchemaVersion => .int 2
  | .hashPolicy => policyDict selfPolicy
  | .allocatedKnownSum => .int 0
  | .allocatedUnknownCount => .int 1
  | .payloadObservationSummary => statusCounts [Named.name PayloadObservationStatus.hashed]

def selfData (k : SnapshotKey) : Value Integral :=
  if k = .field .snapshotDigest then .str (sha (metadataDomain (record Named.name Named.all selfMetadata)))
  else selfMetadata k

def selfFields : EnvelopeKey → Value Integral
  | .schemaVersion => .int 2
  | .evidenceType => lit "filesystem.snapshot"
  | .runId => lit "t"
  | .sequence => .int 3
  | .payload => .dict [(txt "snapshot", .dict (record Named.name Named.all selfData)),
      (txt "entries", .list [selfEntry.toDict])]
  | _ => .none

def selfEnvelope : List (Text × Value Integral) := envelope (sealFields selfFields)

section selfEvidence

/-- The Snapshot as one of those with a sole entry. -/
def selfSole : Sole :=
  ⟨selfId, .reusedFromVerifiedSnapshot, .str selfId, .none, by decide, .inl rfl,
    .inr ⟨rfl, selfId, rfl, by decide, by decide⟩⟩

theorem observation_selfSole : selfSole.observation = selfObservation := rfl

theorem entry_selfSole : selfSole.entry = selfEntry := by
  unfold Sole.entry selfEntry
  rw [observation_selfSole]
  congr 1
  funext f
  cases f <;> rfl

theorem metadata_selfSole : selfSole.metadata = selfMetadata := by
  funext k
  unfold Sole.metadata selfMetadata
  rw [entry_selfSole]
  have hpolicy : Sole.policy = selfPolicy := by
    funext k
    cases k <;> rfl
  rw [hpolicy]
  rcases k with f | _ | _ | _ | _ | _ | _ | _ | _ | _ | _
  · cases f <;> rfl
  all_goals rfl

theorem data_selfSole : selfSole.data = selfData := by
  funext k
  unfold Sole.data selfData
  rw [metadata_selfSole]

theorem envelope_selfSole : selfSole.envelope = selfEnvelope := by
  have hfields : selfSole.fields = selfFields := by
    funext k
    have hdata := data_selfSole
    have hentry := entry_selfSole
    cases k <;> simp only [Sole.fields, selfFields, hdata, hentry]
  unfold Sole.envelope selfEnvelope
  rw [hfields]

theorem snapshotOf_self : snapshotOf selfEnvelope = .dict (record Named.name Named.all selfData) := by
  rw [← envelope_selfSole, Sole.snapshotOf_sole, data_selfSole]

theorem fieldOf_selfData (k : SnapshotKey) :
    fieldOf (record Named.name Named.all selfData) k = selfData k := fieldOf_record (Named.complete k)

theorem wf_selfEnvelope : (Value.dict selfEnvelope).wf = true := by
  rw [← envelope_selfSole]
  exact Sole.wf_envelope

theorem accepted_self : AcceptedV2 selfEnvelope := by
  rw [← envelope_selfSole]
  exact Sole.accepted_sole

/-- The mapped Snapshot started when it was completed, and its entry names the Snapshot itself. -/
theorem mapped_self (path : Text) : ∃ s, snapshotV2FromValidEvidence (.dict selfEnvelope) path = .ok s ∧
    s.field .snapshotId = .str selfId ∧ s.field .startedAt = lit "t" ∧ s.field .completedAt = lit "t" ∧
      ∃ e, reusedEntries s = [e] ∧ e.2.field .reusedFromSnapshotId = .str selfId := by
  rw [← envelope_selfSole]
  obtain ⟨s, hs, hid, -, hstart, hdone, hentries⟩ := @Sole.mapped_sole selfSole path
  refine ⟨s, hs, hid, hstart, hdone, (selfSole.entryRead, ⟨.hashed, some .reusedFromVerifiedSnapshot,
    fun f => keyOf selfSole.observation.toDict (PayloadKey.field f)⟩), ?_, ?_⟩
  · unfold reusedEntries
    rw [hentries]
    rfl
  · exact Sole.fieldOf_observation (.field .reusedFromSnapshotId)

/-! ### Its verification never ends -/

def selfDocument : Document Integral := ⟨.dict selfEnvelope, wf_selfEnvelope⟩

def selfName : Text := txt "00000003_filesystem.snapshot.json"

/-- The corpus with that one document. -/
def selfCorpus : Corpus Integral := Corpus.put ⟨none, fun _ => none⟩ (txt "r") selfName (.json selfDocument)

def selfIndex : Index Integral := plainIndex selfId (evidencePath (txt "r") selfName)

theorem version_self : snapshotEvidenceSchemaVersion selfDocument.value = some 2 :=
  snapshotEvidenceSchemaVersion_of_field (by rw [selfEnvelope, fieldOf_envelope]; rfl) (by decide)

theorem accepts_self : Accepts selfDocument.value := accepts_iff.2 (.inr ⟨version_self, accepted_self⟩)

theorem find_self : findSnapshotEvidence selfCorpus (.str selfId) =
    .ok (some (selfDocument, evidencePath (txt "r") selfName)) := by
  have hdirs : keys selfCorpus.dirs = [txt "r"] := rfl
  have hfiles : loadRunFiles selfCorpus (txt "r") = .ok ⟨[(selfName, selfDocument)], []⟩ := by
    have hload : loadNode selfName (.file (.json selfDocument)) = .ok (.item selfDocument) :=
      loadNode_eq_item.2 ⟨rfl, by decide, by decide⟩
    show loadListing [(selfName, .file (.json selfDocument))] = _
    rw [loadListing, hload]
    rfl
  have hpersists : persistsSnapshot (.str selfId) selfDocument.value = .ok true := by
    have hkind : Value.callGet selfDocument.value (txt "evidence_type") = .ok (lit "filesystem.snapshot") :=
      congrArg Except.ok (fieldOf_envelope (sealFields selfFields) .evidenceType)
    have hfact : snapshotFact selfDocument.value = .dict (record Named.name Named.all selfData) :=
      snapshotOf_self
    have hid : Value.getIf (.dict (record Named.name Named.all selfData)) (txt "snapshot_id") = .str selfId :=
      fieldOf_selfData (.field .snapshotId)
    have heq : (Value.str (F := Integral) selfId).eq (.str selfId) = true := Value.eq_str.2 rfl
    have hsame : (lit (F := Integral) "filesystem.snapshot").eq (lit "filesystem.snapshot") = true :=
      Value.eq_str.2 rfl
    rw [persistsSnapshot, hkind, py_ok, ok_bind_ok, hfact, hid, heq, hsame]
    rfl
  rw [findSnapshotEvidence, hdirs, if_neg (by decide), matchesInRuns, hfiles, ok_bind_ok, matchesAmong, hpersists]
  rfl

theorem refers_self : Refers selfCorpus selfIndex (.str selfId) (.str selfId) := by
  obtain ⟨r, hr, hv⟩ := accepts_self
  obtain ⟨s, hs, hid, hstart, hdone, e, he, href⟩ := mapped_self (evidencePath (txt "r") selfName)
  have hmapped : snapshotV2FromValidEvidence selfDocument.value (evidencePath (txt "r") selfName) = .ok s := hs
  have hsubject : reuseSubject selfCorpus selfIndex (.str selfId) = .ok (some s) := by
    have hrow : getSnapshot selfIndex (.str selfId) =
        .ok (plainSnapshot selfId (evidencePath (txt "r") selfName)) := rfl
    have hpath : ((plainSnapshot selfId (evidencePath (txt "r") selfName)).field
        .evidenceRelativePath).pyStr = evidencePath (txt "r") selfName := rfl
    have hfile : selfCorpus.resolve (evidencePath (txt "r") selfName) = some (.json selfDocument) := by
      rfl
    rw [reuseSubject, hrow, ok_bind_ok, hpath, hfile]
    simp only [hr, ok_bind_ok, hv, version_self, hmapped]
    rfl
  refine ⟨s, [], e, [], hsubject, he, ⟨s, ?_, hid.symm⟩, by simp⟩
  have hlater : later (F := Integral) (lit "t") (lit "t") = .ok false := rfl
  have htruthy : (Value.str (F := Integral) selfId).truthy = true := rfl
  rw [entryReference, href, sourceReference, htruthy, if_pos rfl, find_self, ok_bind_ok]
  simp only [version_self, hr, ok_bind_ok, hv, hmapped, py_ok, hdone, hstart, hlater]
  rfl

end selfEvidence

/-- The document is accepted, and verifying its Snapshot recurses for ever. -/
theorem verification_of_self_diverges : (∀ v ∈ selfCorpus.documents, Accepts v) ∧
    ∀ depth, verifySnapshot selfCorpus selfIndex depth (.str selfId) = .error .stackOverflow := by
  refine ⟨fun v hv => ?_, fun depth => ?_⟩
  · have hdocs : selfCorpus.documents = [selfDocument.value] := rfl
    rw [hdocs, List.mem_singleton] at hv
    rw [hv]
    exact accepts_self
  · have hover (n : Nat) : verifyStatus selfCorpus selfIndex n (.str selfId) = .error .stackOverflow := by
      induction n with
      | zero => rfl
      | succ n ih => exact overflow_of_refers refers_self ih
    have h := hover (depth + 1)
    rw [verifyStatus] at h
    rw [verifySnapshot]
    cases hv : verifyWith selfCorpus selfIndex (verifyStatus selfCorpus selfIndex depth) (.str selfId) with
    | ok v => rw [hv] at h; cases h
    | error e => rw [hv] at h; cases h; rfl

end Steward
