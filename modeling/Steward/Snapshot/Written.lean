import Steward.Evidence.Envelope
import Steward.Snapshot.AcceptV2
import Steward.Snapshot.Serialize

/-!
# Written Snapshots

The documents of a Snapshot the program serializes: `CoherentV1` and
`CoherentV2` say that its counts and digests are those of its entries, and such
a Snapshot makes accepted Evidence.
-/

namespace Steward

open Py Sqlite

variable {F : Type} [SqliteFloat F]

/-! ## The pass over acceptable entries -/

/-- An acceptable item the state admits keeps every flag. -/
theorem scanEntry_of_accepted {sid : Option Text} {scopes item : Value F} {st : EntryScan}
    (h : EntryAcceptedV1 sid scopes item) (ha : Admits st item) :
    ∃ st', scanEntry sid scopes st item = .ok st' ∧ st'.valid = st.valid ∧
      st'.seenKeys = locationOf item :: st.seenKeys ∧ st'.seenIds = identityOf item :: st.seenIds ∧
      st'.previous = some (orderKey item) := by
  obtain ⟨expected, hid, hexp⟩ := h.identity
  have henc := (ok_entryId.1 ⟨expected, hid⟩).2.2
  have hbytes : sortBytes (keyOf item (EntryKey.field .relativePath)).pyStr =
      .ok (Text.utf8 (keyOf item (EntryKey.field .relativePath)).pyStr) := by
    rw [sortBytes, Text.utf8Escape_of_encodable henc]
  have hflags : (EntryFlag.all.all fun f => (keyOf item (EntryKey.flag f)).isBool) = true :=
    List.all_eq_true.2 fun f _ => h.flags f
  have horder : (st.previous.all fun p => decide (sortKeyLe p (orderKey item))) = true := by
    rw [Option.all_eq_true]
    exact fun p hp => decide_eq_true (ha.order p hp)
  have hkeys : decide (locationOf item ∉ st.seenKeys) = true := decide_eq_true ha.location
  have hids : decide (identityOf item ∉ st.seenIds) = true := decide_eq_true ha.identity
  have hident : identityOf item = expected := by rw [identityOf, hexp]; rfl
  refine ⟨⟨st.schemaValid, st.orderValid, st.keysUnique, st.idsValid, st.scopesValid, st.pathsValid,
    locationOf item :: st.seenKeys, identityOf item :: st.seenIds, some (orderKey item)⟩, ?_, rfl, rfl,
    rfl, rfl⟩
  unfold scanEntry
  simp only [h.shaped, h.scope, hid, hbytes, ok_bind_ok, Bool.not_true, Bool.false_eq_true, if_false]
  rw [pure_eq_ok]
  change EntryScan.mk _ (st.orderValid && st.previous.all fun p => decide (sortKeyLe p (orderKey item)))
    (st.keysUnique && decide (locationOf item ∉ st.seenKeys))
    (st.idsValid && (keyOf item (EntryKey.field .entryId)).eq (.str expected) &&
      decide (identityOf item ∉ st.seenIds)) _ _ _ _ _ = _
  rw [hflags, horder, hkeys, hids, hexp, Value.eq_str.2 rfl, h.path]
  simp only [Bool.and_true, hident]
  rfl

/-- The pass succeeds on acceptable entries, pairwise different and in order. -/
theorem scan_of_accepted {sid : Option Text} {scopes : Value F} {items : List (Value F)} {st : EntryScan}
    (hv : st.valid = true) (hacc : ∀ item ∈ items, EntryAcceptedV1 sid scopes item)
    (hadm : ∀ item ∈ items, Admits st item) (hp : items.Pairwise Precedes) :
    ∃ st', items.foldlM (scanEntry sid scopes) st = .ok st' ∧ st'.valid = true := by
  induction items generalizing st with
  | nil => exact ⟨st, rfl, hv⟩
  | cons item items ih =>
    rw [List.pairwise_cons] at hp
    have had := hadm item List.mem_cons_self
    obtain ⟨mid, hmid, hmv, hk, hi, ho⟩ := scanEntry_of_accepted (hacc item List.mem_cons_self) had
    rw [List.foldlM_cons, hmid]
    refine ih (hmv.trans hv) (fun x hx => hacc x (List.mem_cons_of_mem _ hx)) (fun x hx => ?_) hp.2
    have hx' := hadm x (List.mem_cons_of_mem _ hx)
    have hlt := hp.1 x hx
    refine ⟨?_, ?_, fun p hpo => ?_⟩
    · rw [hk, List.mem_cons, not_or]
      exact ⟨Ne.symm hlt.location, hx'.location⟩
    · rw [hi, List.mem_cons, not_or]
      exact ⟨Ne.symm hlt.identity, hx'.identity⟩
    · rw [ho] at hpo
      cases hpo
      exact hlt.order

theorem admits_start (b : Bool) (item : Value F) : Admits (.start b) item :=
  ⟨by simp [EntryScan.start], by simp [EntryScan.start], fun _ h => by cases h⟩

/-! ## Version 1 -/

/-- The entries as they are published. -/
def Snapshot.documents (s : Snapshot F) : List (Value F) := s.entries.map fun e => e.toDict.sortKeys

/-- The keys of the metadata digest of a v1 Snapshot. -/
def SnapshotKey.digestedV1 : List SnapshotKey :=
  SnapshotKey.v1Current.filter
    (· ∉ [SnapshotKey.field .snapshotDigest, .field .evidenceId, .field .evidenceRelativePath, .entries])

structure CoherentV1 (s : Snapshot F) (sid : Text) : Prop where
  v1 : s.v2 = none
  wf : s.Wf
  safe : s.toDict.safe = true
  id : s.field .snapshotId = .str sid
  entries : ∀ d ∈ s.documents, EntryAcceptedV1 (some sid) (.list (s.scopeIds.map Value.sortKeys)) d
  ordered : s.documents.Pairwise Precedes
  summary : ∃ st, snapshotStatistics s.documents = .ok st ∧
    ∀ f ∈ st.items, (s.field f.1).sortKeys.eq f.2 = true
  entriesDigest : s.field .entriesDigest = .str (sha (.list s.documents))
  snapshotDigest : s.field .snapshotDigest =
    .str (sha (.dict (record Named.name SnapshotKey.digestedV1 s.value)))

theorem safe_entries {s : Snapshot F} (h : s.toDict.safe = true) :
    ∀ e ∈ s.entries, e.toDict.safe = true := by
  have hmem : (Named.name SnapshotKey.entries, s.value .entries) ∈ record Named.name s.keys s.value := by
    refine List.mem_map_of_mem (f := fun k => (Named.name k, s.value k)) ?_
    rw [Snapshot.keys]
    split_ifs <;> decide
  have hs := (Value.safe_dict.1 h).2 _ hmem
  exact fun e he => Value.safe_list.1 hs _ (List.mem_map_of_mem he)

theorem entryDicts {es : List (Entry F)} (h : ∀ e ∈ es, e.Wf ∧ e.toDict.safe = true) :
    es.mapM entryDict = .ok (es.map fun e => e.toDict.sortKeys) := by
  rw [mapM_eq_ok, List.forall₂_map_right_iff, List.forall₂_same]
  exact fun e he => jsonCopy_of_safe (h e he).2 (Entry.wf_toDict (h e he).1)

/-- The payload of a v1 Snapshot. -/
def payloadV1 (s : Snapshot F) : Value F :=
  .dict [(txt "snapshot", s.toDict.sortKeys), (txt "entries", .list s.documents)]

theorem snapshotPayload_v1 {s : Snapshot F} (hv : s.v2 = none) (hwf : s.Wf) (h : s.toDict.safe = true) :
    snapshotPayload s = .ok (payloadV1 s) := by
  have hd : snapshotDict s = .ok s.toDict.sortKeys := by
    rw [snapshotDict, jsonCopy_of_safe h (Snapshot.wf_toDict hwf), ok_bind_ok, hv]; rfl
  rw [snapshotPayload, hd, ok_bind_ok, entryDicts fun e he => ⟨hwf.entries e he, safe_entries h e he⟩]
  rfl

omit [SqliteFloat F] in
theorem Snapshot.keys_v1 {s : Snapshot F} (hv : s.v2 = none) : s.keys = SnapshotKey.v1Current := by
  rw [Snapshot.keys, hv]; rfl

/-- A document around the v1 Snapshot, with its keys in any order. -/
structure PublishesV1 (s : Snapshot F) (env : List (Text × Value F)) : Prop where
  keys : hasKeys (memberNames EnvelopeKey) env = true
  type : fieldOf env EnvelopeKey.evidenceType = lit "filesystem.snapshot"
  safe : (Value.dict (without [txt "evidence_digest"] env)).safe = true
  digest : fieldOf env EnvelopeKey.evidenceDigest = .str (sha (.dict (without [txt "evidence_digest"] env)))
  payload : payloadShaped env = true
  snapshot : snapshotOf env = s.toDict.sortKeys
  entries : entriesOf env = .list s.documents
  run : (s.field .runId).sortKeys.eq (fieldOf env EnvelopeKey.runId) = true

section PublishesV1
variable {s : Snapshot F} {env : List (Text × Value F)} (hp : PublishesV1 s env)
include hp

theorem PublishesV1.members : members (snapshotOf env) =
    Value.sortFields ((record Named.name s.keys s.value).map fun g => (g.1, g.2.sortKeys)) := by
  rw [hp.snapshot, Snapshot.toDict, Value.sortKeys_dict]; rfl

/-- A field of the published snapshot. -/
theorem PublishesV1.lookup {k : SnapshotKey} (hk : k ∈ s.keys) :
    lookup (Steward.members (snapshotOf env)) (Named.name k) = some (s.value k).sortKeys := by
  rw [hp.members, Value.lookup_sortKeys (by rw [keys_record]; exact s.keys_nodup),
    lookup_record _ (fun _ _ _ _ => Named.name_inj) hk]
  rfl

theorem PublishesV1.fieldOf {k : SnapshotKey} (hk : k ∈ s.keys) :
    fieldOf (Steward.members (snapshotOf env)) k = (s.value k).sortKeys :=
  Value.get_of_lookup (hp.lookup hk)

end PublishesV1

omit [SqliteFloat F] in
theorem digestedV1_eq (s : Snapshot F) :
    without undigested (record Named.name SnapshotKey.v1Current s.value) =
      record Named.name SnapshotKey.digestedV1 s.value := without_record _

/-- A coherent v1 Snapshot makes accepted Evidence. -/
theorem PublishesV1.accepted {s : Snapshot F} {sid : Text} (h : CoherentV1 s sid)
    {env : List (Text × Value F)} (hp : PublishesV1 s env) : AcceptedV1 env := by
  have hkeys := Snapshot.keys_v1 h.v1
  have hfield (k : SnapshotField) (hk : SnapshotKey.field k ∈ SnapshotKey.v1Current) :
      Steward.fieldOf (Steward.members (snapshotOf env)) (SnapshotKey.field k) = (s.field k).sortKeys :=
    hp.fieldOf (hkeys ▸ hk)
  have hitems : elements (entriesOf env) = s.documents := by rw [hp.entries]; rfl
  have hid : snapshotIdOf env = some sid := by
    rw [snapshotIdOf, keyOf_eq_fieldOf, hfield _ (by decide), h.id]; rfl
  have hscopes : scopesOf env = .list (s.scopeIds.map Value.sortKeys) := by
    rw [scopesOf, hp.lookup (k := .scopeIds) (hkeys ▸ by decide)]
    exact Value.sortKeys_list _
  have hmeta : (Value.dict (without undigested (Steward.members (snapshotOf env)))).sortKeys =
      (Value.dict (record Named.name SnapshotKey.digestedV1 s.value)).sortKeys := by
    have hw := Snapshot.wf_toDict h.wf
    rw [hp.snapshot]
    rw [Snapshot.toDict] at hw ⊢
    rw [sortKeys_without _ hw, hkeys, digestedV1_eq]
  have hmetaSafe : (Value.dict (record Named.name SnapshotKey.digestedV1 s.value)).safe = true := by
    rw [← digestedV1_eq]
    have hs := h.safe
    rw [Snapshot.toDict, hkeys] at hs
    exact Value.safe_without hs _
  have hmetaSha : sha (.dict (without undigested (Steward.members (snapshotOf env)))) =
      sha (.dict (record Named.name SnapshotKey.digestedV1 s.value)) := by
    rw [← sha_sortKeys, hmeta, sha_sortKeys]
  obtain ⟨st, hst, hsv⟩ := scan_of_accepted (rfl : (EntryScan.start true).valid = true) h.entries
    (fun d _ => admits_start true d) h.ordered
  obtain ⟨stats, hstats, hsum⟩ := h.summary
  exact {
    envelope := hp.keys
    evidenceType := hp.type
    evidenceSafe := hp.safe
    evidenceDigest := hp.digest
    payload := hp.payload
    shaped := by
      have hk : hasKeys (names SnapshotKey.v1Current) (Steward.members (snapshotOf env)) = true := by
        refine hasKeys_iff.2 fun k => ?_
        rw [hp.members, (Value.keys_sortKeys_perm _).mem_iff, keys_record, hkeys]
        rfl
      rw [snapshotShapedV1, hp.entries, hp.snapshot, Snapshot.toDict, Value.sortKeys_dict]
      rw [hp.members] at hk
      simp only [hk, Bool.or_true, Bool.true_and]
      rfl
    runId := by rw [hfield _ (by decide)]; exact hp.run
    scan := ⟨st, by rw [hitems, hid, hscopes]; exact hst, hsv⟩
    summary := by
      rw [hitems]
      refine ⟨stats, hstats, fun g hg => ?_⟩
      rw [hfield _ (by cases g.1 <;> decide)]
      exact hsum g hg
    entriesSafe := by
      rw [hitems, Value.safe_list]
      intro d hd
      obtain ⟨e, he, rfl⟩ := List.mem_map.1 hd
      rw [Value.safe_sortKeys]
      exact safe_entries h.safe e he
    entriesDigest := by rw [hitems, hfield _ (by decide), h.entriesDigest]; rfl
    metadataSafe := by rw [← Value.safe_sortKeys, hmeta, Value.safe_sortKeys]; exact hmetaSafe
    snapshotDigest := by rw [hfield _ (by decide), h.snapshotDigest, hmetaSha]; rfl }

/-- The item of a v1 Snapshot. -/
theorem publishesV1_envelope {s : Snapshot F} {f : EnvelopeKey → Value F} (hf : Sealed f)
    (hp : f .payload = payloadV1 s) (ht : f .evidenceType = lit "filesystem.snapshot")
    (hr : (s.field .runId).sortKeys.eq (f .runId) = true) : PublishesV1 s (envelope f) where
  keys := hasKeys_envelope f
  type := by rw [fieldOf_envelope, ht]
  safe := by rw [without_envelope]; exact hf.safe
  digest := by rw [fieldOf_envelope, hf.digest, without_envelope]; rfl
  payload := by
    rw [payloadShaped, payloadOf, fieldOf_envelope, hp]
    exact hasKeys_iff.2 fun _ => Iff.rfl
  snapshot := by
    rw [snapshotOf, payloadOf, fieldOf_envelope, hp]
    simp [payloadV1, Value.getIf, Value.get, lookup_cons]
  entries := by
    rw [entriesOf, payloadOf, fieldOf_envelope, hp]
    simp [payloadV1, Value.getIf, Value.get, lookup_cons, txt, ch]
  run := by rw [fieldOf_envelope]; exact hr

/-- The file of that item. -/
theorem publishesV1_written {s : Snapshot F} {f : EnvelopeKey → Value F} (hf : Sealed f)
    (hwf : (Value.dict (envelope f)).wf = true) (hp : f .payload = payloadV1 s)
    (ht : f .evidenceType = lit "filesystem.snapshot") (hr : (s.field .runId).sortKeys.eq (f .runId) = true)
    (hrun : (f .runId).sortKeys = f .runId) : PublishesV1 s (members (written f hwf).value) := by
  have hpayload : fieldOf (members (written f hwf).value) EnvelopeKey.payload = (payloadV1 s).sortKeys := by
    rw [← keyOf_eq_fieldOf, keyOf_written, hp]
  have hwfp : (payloadV1 s).wf = true := by
    rw [← hp, ← keyOf_envelope f .payload]
    exact Value.wf_getIf hwf _
  have hdocuments : s.documents.map Value.sortKeys = s.documents := by
    rw [Snapshot.documents, List.map_map]
    exact List.map_congr_left fun e _ => Value.sortKeys_sortKeys _
  have hdigest := digestOf_eq_ok.1 (hf.digest_written hwf)
  exact {
    keys := (hasKeys_sortKeys _ _).trans (hasKeys_envelope f)
    type := by rw [← keyOf_eq_fieldOf, keyOf_written, ht]; rfl
    safe := hdigest.1
    digest := by rw [← keyOf_eq_fieldOf, keyOf_written, hf.digest, hdigest.2]; rfl
    payload := by
      have hkeys : hasKeys [txt "snapshot", txt "entries"] (members (payloadV1 s).sortKeys) = true :=
        (hasKeys_sortKeys _ _).trans (hasKeys_iff.2 fun _ => Iff.rfl)
      rw [payloadShaped, payloadOf, hpayload, payloadV1, Value.sortKeys_dict]
      rwa [payloadV1, Value.sortKeys_dict] at hkeys
    snapshot := by
      rw [snapshotOf, payloadOf, hpayload, getIf_sortKeys hwfp]
      have hget : (payloadV1 s).getIf (txt "snapshot") = s.toDict.sortKeys := by
        simp [payloadV1, Value.getIf, Value.get, lookup_cons]
      rw [hget, Value.sortKeys_sortKeys]
    entries := by
      rw [entriesOf, payloadOf, hpayload, getIf_sortKeys hwfp]
      have hget : (payloadV1 s).getIf (txt "entries") = .list s.documents := by
        simp [payloadV1, Value.getIf, Value.get, lookup_cons, txt, ch]
      rw [hget, Value.sortKeys_list, hdocuments]
    run := by rw [← keyOf_eq_fieldOf, keyOf_written, hrun]; exact hr }

/-! ## A document of its own -/

/-- The least envelope around a v1 Snapshot. -/
def plainFields (s : Snapshot F) : EnvelopeKey → Value F
  | .schemaVersion | .sequence => .int 1
  | .evidenceType => lit "filesystem.snapshot"
  | .runId => s.field .runId
  | .payload => payloadV1 s
  | _ => .none

/-- The Evidence document around a v1 Snapshot. -/
def plainEvidence (s : Snapshot F) : Value F := .dict (envelope (sealFields (plainFields s)))

section plainEvidence
variable {s : Snapshot F} {sid : Text} (h : CoherentV1 s sid)
include h

theorem safe_payloadV1 : (payloadV1 s).safe = true := by
  have hkeys : (txt "snapshot").encodable = true ∧ (txt "entries").encodable = true := by decide +kernel
  rw [payloadV1, Value.safe_dict]
  simp only [List.map_cons, List.map_nil, keys, List.forall_mem_cons, List.not_mem_nil, false_imp_iff,
    implies_true, and_true]
  refine ⟨hkeys, by rw [Value.safe_sortKeys]; exact h.safe, Value.safe_list.2 fun d hd => ?_⟩
  obtain ⟨e, he, rfl⟩ := List.mem_map.1 hd
  rw [Value.safe_sortKeys]
  exact safe_entries h.safe e he

theorem sealed_plain : Sealed (sealFields (plainFields s)) := by
  refine sealed_sealFields (safe_record fun k _ => ?_)
  have hrun : (s.field .runId).safe = true := by
    have hmem : (Named.name (SnapshotKey.field .runId), s.value (.field .runId)) ∈
        record Named.name s.keys s.value :=
      List.mem_map_of_mem (f := fun k => (Named.name k, s.value k)) (by
        rw [Snapshot.keys_v1 h.v1]; decide)
    exact (Value.safe_dict.1 h.safe).2 _ hmem
  have htype : (txt "filesystem.snapshot").encodable = true := by decide +kernel
  cases k
  case evidenceType => exact htype
  case runId => exact hrun
  case payload => exact safe_payloadV1 h
  all_goals rfl

theorem publishes_plain {r : Text} (hr : s.field .runId = .str r) :
    PublishesV1 s (envelope (sealFields (plainFields s))) := by
  refine publishesV1_envelope (sealed_plain h) rfl rfl ?_
  show (s.field .runId).sortKeys.eq (s.field .runId) = true
  rw [hr]
  exact Value.eq_str.2 rfl

/-- A coherent v1 Snapshot of a Run with a text id is accepted in its plain envelope. -/
theorem accepts_plainEvidence {r : Text} (hr : s.field .runId = .str r) : Accepts (plainEvidence s) := by
  refine accepts_iff.2 (.inl ⟨?_, (publishes_plain h hr).accepted h⟩)
  rw [plainEvidence, snapshotEvidenceSchemaVersion, fieldOf_envelope]
  rfl

end plainEvidence

end Steward
