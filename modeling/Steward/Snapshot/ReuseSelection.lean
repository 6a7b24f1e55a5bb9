import Mathlib.Data.List.ReduceOption
import Steward.Py.Grouping
import Steward.Snapshot.Published
import Steward.Snapshot.ReuseCycles

/-!
# Selecting a reuse source

`_VerifiedReuseSourceSelector` of `snapshots.py`: of the v2 Snapshots that were
complete when the current one started, the newest that is `VALID` and has an
entry whose payload may be reused. `referenceIssue` later finds the source by
its identity alone; `resolve_sound_iff` says when it finds the same one.
-/

namespace Steward

open Py Sqlite

variable {F : Type} [SqliteFloat F]

/-! ## The selector -/

/-- `a <= b`; both are timestamps. -/
def notLater : Value F → Value F → Except Py.Error Bool
  | .str s, .str t => .ok (s ≤ t)
  | _, _ => .error .typeError

/-- One turn of the inner loop of `_load_candidates`. -/
def candidateOf (startedAt : Value F) (fact : Fact F) : Result (Option (Snapshot F)) := do
  let kind ← py (fact.1.value.callGet (txt "evidence_type"))
  if !kind.eq (lit "filesystem.snapshot") || snapshotEvidenceSchemaVersion fact.1.value ≠ some 2 then pure none
  else
    let intrinsic ← validateSnapshotEvidence fact.1.value
    if !intrinsic.valid then pure none
    else
      let snapshot ← py (snapshotV2FromValidEvidence fact.1.value fact.2)
      let complete ← py (notLater (snapshot.field .completedAt) startedAt)
      pure (if complete then some snapshot else none)

/-- The facts of one Run directory. -/
def runFacts (c : Corpus F) (runId : Text) : Result (List (Fact F)) := do
  let files ← loadRunFiles c runId
  pure (files.files.map fun f => (f.2, evidencePath runId f.1))

/-- The key by which candidates are sorted. -/
def candidateKey (snapshot : Snapshot F) : Except Py.Error ((Text ×ₗ Text ×ₗ Text)ᵒᵈ) :=
  match snapshot.field .completedAt, snapshot.field .createdAt, snapshot.field .snapshotId with
  | .str completed, .str created, .str id => .ok (OrderDual.toDual (toLex (completed, toLex (created, id))))
  | _, _, _ => .error .typeError

/-- `_load_candidates` -/
def loadCandidates (c : Corpus F) (startedAt : Value F) : Result (List (Snapshot F)) :=
  if c.runs.isNone then .error (.steward .evidenceError)
  else do
    let found ← (keys c.dirs).mapM fun runId => do
      let facts ← runFacts c runId
      facts.mapM (candidateOf startedAt)
    py (sortedByM candidateKey found.flatten.reduceOption)

/-- The observation that names its source. -/
def reusedObservation (observation : Observation F) (sourceId : Value F) : Observation F where
  status := observation.status
  provenance := some .reusedFromVerifiedSnapshot
  field
    | .reusedFromSnapshotId => sourceId
    | .failureCode | .osErrorCode => .none
    | f => observation.field f

section
variable (verify : Value F → Result VerificationStatus) (policy : PolicyKey → Value F) (current : Entry F)

/-- The loop of `resolve`. -/
def firstEligible : List (Snapshot F) → Result (Option (Observation F))
  | [] => .ok none
  | candidate :: rest => do
    let status ← verify (candidate.field .snapshotId)
    if status ≠ .valid then firstEligible rest
    else match entryAt candidate current with
      | none => firstEligible rest
      | some source => match source.v2 with
        | none => .error (.python .attributeError)
        | some v =>
          if !directReuseSourceEligible current source v.observation policy then firstEligible rest
          else pure (some (reusedObservation v.observation (candidate.field .snapshotId)))

/-- `resolve`, and the candidates it keeps. -/
def resolve (c : Corpus F) (startedAt : Value F) (cached : Option (List (Snapshot F))) :
    Result (Option (Observation F)) × Option (List (Snapshot F)) :=
  match cached with
  | some candidates => (firstEligible verify policy current candidates, some candidates)
  | none => match loadCandidates c startedAt with
    | .ok candidates => (firstEligible verify policy current candidates, some candidates)
    | .error e => (.error e, none)

end

/-- The candidates that are kept after the entries were resolved. -/
def keptAfter (c : Corpus F) (verify : Value F → Result VerificationStatus) (policy : PolicyKey → Value F)
    (startedAt : Value F) (before : List (Entry F)) : Option (List (Snapshot F)) :=
  before.foldl (fun cached e => (resolve verify policy e c startedAt cached).2) none

/-! ## The facts of the corpus -/

/-- All the facts the Run directories give. -/
def Corpus.facts (c : Corpus F) : List (Fact F) :=
  (keys c.dirs).flatMap fun runId => match runFacts c runId with
    | .ok facts => facts
    | .error _ => []

/-- `evidence` persists the Snapshot `id`. -/
def persists (id evidence : Value F) : Bool :=
  match persistsSnapshot id evidence with
  | .ok b => b
  | .error _ => false

/-- The facts that persist the Snapshot `id`. -/
def Corpus.persisting (c : Corpus F) (id : Value F) : List (Fact F) := c.facts.filter fun f => persists id f.1.value

/-- Every Run directory is read, and holds objects only. -/
structure Corpus.Readable (c : Corpus F) : Prop where
  runs : c.runs.isSome = true
  files : ∀ runId ∈ keys c.dirs, Ok (runFacts c runId)
  objects : ∀ f ∈ c.facts, Ok (f.1.value.callGet (txt "evidence_type"))

theorem ok_persistsSnapshot {id evidence : Value F} (h : Ok (evidence.callGet (txt "evidence_type"))) :
    persistsSnapshot id evidence = .ok (persists id evidence) := by
  obtain ⟨kind, hkind⟩ := h
  unfold persists persistsSnapshot
  rw [hkind]
  rfl

theorem matchesAmong_eq {id : Value F} {runId : Text} {files : List (Text × Document F)}
    (h : ∀ f ∈ files, Ok (f.2.value.callGet (txt "evidence_type"))) :
    matchesAmong id runId files =
      .ok ((files.map fun f => (f.2, evidencePath runId f.1)).filter fun f => persists id f.1.value) := by
  induction files with
  | nil => rfl
  | cons f files ih =>
    obtain ⟨hf, hfiles⟩ := List.forall_mem_cons.1 h
    rw [matchesAmong, ok_persistsSnapshot hf, ok_bind_ok, ih hfiles, ok_bind_ok, List.map_cons, List.filter_cons]
    rfl

theorem matchesInRuns_eq {c : Corpus F} {id : Value F} {runIds : List Text}
    (hfiles : ∀ runId ∈ runIds, Ok (runFacts c runId))
    (hobjects : ∀ runId ∈ runIds, ∀ facts, runFacts c runId = .ok facts → ∀ f ∈ facts,
      Ok (f.1.value.callGet (txt "evidence_type"))) :
    matchesInRuns c id runIds = .ok ((runIds.flatMap fun runId => match runFacts c runId with
      | .ok facts => facts
      | .error _ => []).filter fun f => persists id f.1.value) := by
  induction runIds with
  | nil => rfl
  | cons runId runIds ih =>
    obtain ⟨⟨facts, hfacts⟩, hrest⟩ := List.forall_mem_cons.1 hfiles
    have hobjects' := hobjects runId List.mem_cons_self facts hfacts
    have ih := ih hrest fun r hr => hobjects r (List.mem_cons_of_mem _ hr)
    obtain ⟨files, hload, hmap⟩ := bind_eq_ok.1 hfacts
    cases hmap
    have hamong := @matchesAmong_eq _ _ id runId files.files fun f hf =>
      hobjects' (f.2, evidencePath runId f.1) (List.mem_map_of_mem hf)
    rw [matchesInRuns, hload, ok_bind_ok, hamong, ok_bind_ok, ih, ok_bind_ok, List.flatMap_cons, hfacts,
      List.filter_append]
    rfl

/-- The Snapshot is found exactly when one fact persists it, and refused when several do. -/
theorem findSnapshotEvidence_eq {c : Corpus F} {id : Value F} (h : c.Readable) :
    findSnapshotEvidence c id = match c.persisting id with
      | [] => .ok none
      | [fact] => .ok (some fact)
      | _ => .error (.steward .evidenceError) := by
  have hmatches : matchesInRuns c id (keys c.dirs) = .ok (c.persisting id) := by
    refine matchesInRuns_eq h.files fun runId hrun facts hfacts f hf => h.objects f ?_
    refine List.mem_flatMap.2 ⟨runId, hrun, ?_⟩
    rw [hfacts]
    exact hf
  have hruns : c.runs.isNone = false := by
    rw [Option.isNone_eq_false_iff]
    exact h.runs
  rw [findSnapshotEvidence, hruns, if_neg (by decide), hmatches, ok_bind_ok]
  rfl

/-! ## The candidates -/

/-- The fact gives a candidate: accepted v2 Evidence of a Snapshot that was complete in time. -/
structure GivesCandidate (startedAt : Value F) (fact : Fact F) (s : Snapshot F) : Prop where
  evidenceType : fact.1.value.callGet (txt "evidence_type") = .ok (lit "filesystem.snapshot")
  version : snapshotEvidenceSchemaVersion fact.1.value = some 2
  accepts : Accepts fact.1.value
  mapped : snapshotV2FromValidEvidence fact.1.value fact.2 = .ok s
  complete : notLater (s.field .completedAt) startedAt = .ok true

theorem candidateOf_eq_some {startedAt : Value F} {fact : Fact F} {s : Snapshot F} :
    candidateOf startedAt fact = .ok (some s) ↔ GivesCandidate startedAt fact s := by
  unfold candidateOf
  constructor
  · intro h
    obtain ⟨kind, hkind, h⟩ := bind_eq_ok.1 h
    split_ifs at h with hskip
    · cases h
    rw [Bool.not_eq_true, Bool.or_eq_false_iff, Bool.not_eq_false', decide_eq_false_iff_not, not_not] at hskip
    obtain ⟨intrinsic, hvalidate, h⟩ := bind_eq_ok.1 h
    split_ifs at h with hvalid
    · cases h
    obtain ⟨snapshot, hmapped, h⟩ := bind_eq_ok.1 h
    obtain ⟨complete, hcomplete, h⟩ := bind_eq_ok.1 h
    cases complete with
    | false => cases h
    | true =>
      cases h
      rw [Value.eq_str.1 hskip.1] at hkind
      exact ⟨py_eq_ok.1 hkind, hskip.2, ⟨intrinsic, hvalidate, by simpa using hvalid⟩, py_eq_ok.1 hmapped,
        py_eq_ok.1 hcomplete⟩
  · rintro ⟨hkind, hversion, ⟨intrinsic, hvalidate, hvalid⟩, hmapped, hcomplete⟩
    have hsame : (lit (F := F) "filesystem.snapshot").eq (lit "filesystem.snapshot") = true := Value.eq_str.2 rfl
    rw [hkind, py_ok, ok_bind_ok, hsame, hversion, if_neg (by decide), hvalidate, ok_bind_ok, hvalid, if_neg (by decide),
      hmapped, py_ok, ok_bind_ok, hcomplete]
    rfl

theorem ok_candidateOf {startedAt : Value F} {fact : Fact F} (h : Ok (candidateOf startedAt fact)) :
    Ok (fact.1.value.callGet (txt "evidence_type")) := by
  obtain ⟨kind, hkind, -⟩ := ok_bind.1 h
  exact ⟨kind, py_eq_ok.1 hkind⟩

/-- The candidates come from the facts, all of which were read. -/
theorem loadCandidates_spec {c : Corpus F} {startedAt : Value F} {candidates : List (Snapshot F)}
    (h : loadCandidates c startedAt = .ok candidates) :
    c.Readable ∧ ∀ s ∈ candidates, ∃ fact ∈ c.facts, GivesCandidate startedAt fact s := by
  unfold loadCandidates at h
  split_ifs at h with hruns
  obtain ⟨found, hfound, h⟩ := bind_eq_ok.1 h
  have hrun : ∀ runId ∈ keys c.dirs, ∃ facts, runFacts c runId = .ok facts ∧ Ok (facts.mapM (candidateOf startedAt)) := by
    intro runId hin
    obtain ⟨rs, -, hok⟩ := exists_mapM_of_mem hfound hin
    obtain ⟨facts, hfacts, hok⟩ := bind_eq_ok.1 hok
    exact ⟨facts, hfacts, rs, hok⟩
  refine ⟨⟨?_, fun runId hin => ?_, fun f hf => ?_⟩, fun s hs => ?_⟩
  · rwa [Option.isNone_iff_eq_none, ← ne_eq, ← Option.isSome_iff_ne_none] at hruns
  · obtain ⟨facts, hfacts, -⟩ := hrun runId hin
    exact ⟨facts, hfacts⟩
  · obtain ⟨runId, hin, hf⟩ := List.mem_flatMap.1 hf
    obtain ⟨facts, hfacts, hok⟩ := hrun runId hin
    rw [hfacts] at hf
    exact ok_candidateOf (ok_mapM.1 hok f hf)
  · have hs := (mem_sortedByM (py_eq_ok.1 h)).1 hs
    rw [List.reduceOption_mem_iff] at hs
    obtain ⟨rs, hrs, hs⟩ := List.mem_flatten.1 hs
    obtain ⟨runId, hin, hok⟩ := exists_of_mem_mapM hfound hrs
    obtain ⟨facts, hfacts, hok⟩ := bind_eq_ok.1 hok
    obtain ⟨fact, hfact, hgives⟩ := exists_of_mem_mapM hok hs
    refine ⟨fact, List.mem_flatMap.2 ⟨runId, hin, ?_⟩, candidateOf_eq_some.1 hgives⟩
    rw [hfacts]
    exact hfact

/-! ## The selection -/

/-- The candidate has an entry at the location whose payload may be reused. -/
def Eligible (policy : PolicyKey → Value F) (current : Entry F) (candidate : Snapshot F) : Prop :=
  ∃ source v, entryAt candidate current = some source ∧ source.v2 = some v ∧
    directReuseSourceEligible current source v.observation policy = true

/-- The candidate is `VALID` and eligible. -/
def Suits (verify : Value F → Result VerificationStatus) (policy : PolicyKey → Value F) (current : Entry F)
    (candidate : Snapshot F) : Prop :=
  verify (candidate.field .snapshotId) = .ok .valid ∧ Eligible policy current candidate

/-- `source` is the first candidate that suits; the ones before it were verified. -/
def FirstSuiting (verify : Value F → Result VerificationStatus) (policy : PolicyKey → Value F) (current : Entry F)
    (candidates : List (Snapshot F)) (source : Snapshot F) : Prop :=
  ∃ before after, candidates = before ++ source :: after ∧ Suits verify policy current source ∧
    ∀ b ∈ before, Ok (verify (b.field .snapshotId)) ∧ ¬ Suits verify policy current b

/-- `source` is the candidate that is selected for the entry. -/
def Selected (c : Corpus F) (verify : Value F → Result VerificationStatus) (policy : PolicyKey → Value F)
    (startedAt : Value F) (current : Entry F) (source : Snapshot F) : Prop :=
  ∃ candidates, loadCandidates c startedAt = .ok candidates ∧ FirstSuiting verify policy current candidates source

/-- The observation copies the payload of the source's entry. -/
def Copied (current : Entry F) (source : Snapshot F) (o : Observation F) : Prop :=
  ∃ e v, entryAt source current = some e ∧ e.v2 = some v ∧
    o = reusedObservation v.observation (source.field .snapshotId)

section
variable {verify : Value F → Result VerificationStatus} {policy : PolicyKey → Value F} {current : Entry F}
  {o : Observation F}

theorem FirstSuiting.skip {candidate source : Snapshot F} {rest : List (Snapshot F)}
    (h : FirstSuiting verify policy current rest source) (hok : Ok (verify (candidate.field .snapshotId)))
    (hnot : ¬ Suits verify policy current candidate) : FirstSuiting verify policy current (candidate :: rest) source := by
  obtain ⟨before, after, rfl, hsuits, hbefore⟩ := h
  exact ⟨candidate :: before, after, rfl, hsuits, List.forall_mem_cons.2 ⟨⟨hok, hnot⟩, hbefore⟩⟩

/-- The first candidate that suits gives the observation. -/
theorem firstEligible_eq_some {candidates : List (Snapshot F)}
    (h : firstEligible verify policy current candidates = .ok (some o)) :
    ∃ source, FirstSuiting verify policy current candidates source ∧ Copied current source o := by
  induction candidates with
  | nil => cases h
  | cons candidate rest ih =>
    obtain ⟨status, hstatus, h⟩ := bind_eq_ok.1 h
    have skip (hnot : ¬ Suits verify policy current candidate)
        (h : firstEligible verify policy current rest = .ok (some o)) :
        ∃ source, FirstSuiting verify policy current (candidate :: rest) source ∧ Copied current source o := by
      obtain ⟨source, hfirst, hcopied⟩ := ih h
      exact ⟨source, hfirst.skip ⟨status, hstatus⟩ hnot, hcopied⟩
    split_ifs at h with hvalid
    · refine skip (fun hs => hvalid ?_) h
      rw [Suits, hstatus] at hs
      exact Except.ok.inj hs.1
    rw [not_not] at hvalid
    subst hvalid
    cases hentry : entryAt candidate current with
    | none =>
      rw [hentry] at h
      refine skip (fun hs => ?_) h
      obtain ⟨-, e, v, he, -⟩ := hs
      rw [hentry] at he
      cases he
    | some e =>
      rw [hentry] at h
      cases hv : e.v2 with
      | none =>
        simp only [hv] at h
        cases h
      | some v =>
        simp only [hv] at h
        by_cases heligible : directReuseSourceEligible current e v.observation policy = true
        · rw [if_neg (by simp [heligible])] at h
          cases h
          exact ⟨candidate, ⟨[], rest, rfl, ⟨hstatus, e, v, hentry, hv, heligible⟩, List.forall_mem_nil _⟩, e, v, hentry,
            hv, rfl⟩
        · rw [if_pos (by simp [heligible])] at h
          refine skip (fun hs => heligible ?_) h
          obtain ⟨-, e', v', he', hv', heligible'⟩ := hs
          rw [hentry] at he'
          cases he'
          rw [hv] at hv'
          cases hv'
          exact heligible'

theorem firstEligible_of_first {candidates : List (Snapshot F)} {source : Snapshot F} (hv2 : ∀ b ∈ candidates, IsV2 b)
    (hfirst : FirstSuiting verify policy current candidates source) (hcopied : Copied current source o) :
    firstEligible verify policy current candidates = .ok (some o) := by
  obtain ⟨before, after, rfl, hsuits, hbefore⟩ := hfirst
  obtain ⟨e, v, he, hv, rfl⟩ := hcopied
  induction before with
  | nil =>
    obtain ⟨hvalid, e', v', he', hv', heligible⟩ := hsuits
    rw [he] at he'
    cases he'
    rw [hv] at hv'
    cases hv'
    rw [List.nil_append, firstEligible, hvalid, ok_bind_ok, if_neg (by decide), he]
    dsimp only
    rw [hv]
    dsimp only
    rw [heligible]
    rfl
  | cons b before ih =>
    obtain ⟨⟨⟨status, hstatus⟩, hnot⟩, hbefore⟩ := List.forall_mem_cons.1 hbefore
    obtain ⟨hb, hv2⟩ := List.forall_mem_cons.1 hv2
    have ih := ih hv2 hbefore
    rw [List.cons_append, firstEligible, hstatus, ok_bind_ok]
    by_cases hvalid : status = .valid
    · subst hvalid
      rw [if_neg (by decide)]
      cases hentry : entryAt b current with
      | none => exact ih
      | some e' =>
        obtain ⟨v', hv'⟩ := Option.isSome_iff_exists.1 (hb.entries e' (List.mem_of_find?_eq_some hentry))
        dsimp only
        rw [hv']
        dsimp only
        rw [if_pos]
        · exact ih
        · rw [Bool.not_eq_true', ← Bool.not_eq_true]
          exact fun heligible => hnot ⟨hstatus, e', v', hentry, hv', heligible⟩
    · rw [if_pos hvalid]
      exact ih

end

section
variable {c : Corpus F} {verify : Value F → Result VerificationStatus} {policy : PolicyKey → Value F}
  {startedAt : Value F} {current : Entry F} {o : Observation F}

/-- What is kept is what is loaded. -/
theorem resolve_kept {cached : Option (List (Snapshot F))}
    (h : ∀ cs, cached = some cs → loadCandidates c startedAt = .ok cs) :
    ∀ cs, (resolve verify policy current c startedAt cached).2 = some cs → loadCandidates c startedAt = .ok cs := by
  intro cs hcs
  unfold resolve at hcs
  cases cached with
  | some kept => exact h cs hcs
  | none =>
    cases hload : loadCandidates c startedAt with
    | ok candidates =>
      rw [hload] at hcs
      cases hcs
      rfl
    | error e =>
      rw [hload] at hcs
      cases hcs

theorem keptAfter_loaded (before : List (Entry F)) :
    ∀ cs, keptAfter c verify policy startedAt before = some cs → loadCandidates c startedAt = .ok cs := by
  unfold keptAfter
  have hrun : ∀ cached : Option (List (Snapshot F)), (∀ cs, cached = some cs → loadCandidates c startedAt = .ok cs) →
      ∀ cs, before.foldl (fun cached e => (resolve verify policy e c startedAt cached).2) cached = some cs →
        loadCandidates c startedAt = .ok cs := by
    induction before with
    | nil => exact fun cached h => h
    | cons e before ih => exact fun cached h => ih _ (resolve_kept h)
  exact hrun none fun cs h => by cases h

/-- After any entries, an observation is returned exactly for the selected candidate. -/
theorem resolve_eq_some {before : List (Entry F)} :
    (resolve verify policy current c startedAt (keptAfter c verify policy startedAt before)).1 = .ok (some o) ↔
      ∃ source, Selected c verify policy startedAt current source ∧ Copied current source o := by
  have hfirst : (resolve verify policy current c startedAt (keptAfter c verify policy startedAt before)).1 = .ok (some o) ↔
      ∃ candidates, loadCandidates c startedAt = .ok candidates ∧
        firstEligible verify policy current candidates = .ok (some o) := by
    have hkept := @keptAfter_loaded _ _ c verify policy startedAt before
    unfold resolve
    cases hcached : keptAfter c verify policy startedAt before with
    | some candidates =>
      rw [hkept candidates hcached]
      simp
    | none => cases loadCandidates c startedAt <;> simp
  rw [hfirst]
  constructor
  · rintro ⟨candidates, hload, h⟩
    obtain ⟨source, hfirst, hcopied⟩ := firstEligible_eq_some h
    exact ⟨source, ⟨candidates, hload, hfirst⟩, hcopied⟩
  · rintro ⟨source, ⟨candidates, hload, hfirst⟩, hcopied⟩
    refine ⟨candidates, hload, firstEligible_of_first (fun b hb => ?_) hfirst hcopied⟩
    obtain ⟨fact, -, hgives⟩ := (loadCandidates_spec hload).2 b hb
    exact isV2_of_mapped hgives.mapped

end

/-! ## The check of the reference -/

omit [SqliteFloat F] in
theorem later_of_notLater {a b : Value F} (h : notLater a b = .ok true) : later a b = .ok false := by
  unfold notLater at h
  split at h
  · rename_i s t
    have hle := of_decide_eq_true (Except.ok.inj h)
    exact congrArg Except.ok (decide_eq_false (not_lt.2 hle))
  · cases h

omit [SqliteFloat F] in
/-- An accepted v2 document is an object. -/
theorem isDict_of_version {evidence : Value F} (h : snapshotEvidenceSchemaVersion evidence = some 2) :
    evidence = .dict (members evidence) := by
  cases evidence <;> first | rfl | cases h

theorem acceptedV2_of_accepts {evidence : Value F} (h : Accepts evidence)
    (hversion : snapshotEvidenceSchemaVersion evidence = some 2) : AcceptedV2 (members evidence) := by
  rcases accepts_iff.1 h with ⟨hone, -⟩ | ⟨-, h⟩
  · rw [hversion] at hone
    cases hone
  · exact h

/-- The entries of a mapped Snapshot are those of its document. -/
theorem item_of_mapped {env : List (Text × Value F)} {path : Text} {s : Snapshot F} {e : Entry F}
    (h : snapshotV2FromValidEvidence (.dict env) path = .ok s) (hlist : (entriesOf env).isList = true)
    (he : e ∈ s.entries) : ∃ item ∈ elements (entriesOf env), entryV2FromDocument item = .ok e := by
  simp only [snapshotV2FromValidEvidence, snapshotFromDocument, documentParts, bind_eq_ok] at h
  obtain ⟨t, ⟨parts, ⟨payload, hp, data, -, entries, hentries, items, hitems, hparts⟩, _, -, _, -, es, hes, _, -, _, -,
    _, -, _, -, _, -, _, -, ht⟩, _, -, _, -, _, -, _, -, h⟩ := h
  cases h
  cases hparts
  cases ht
  obtain ⟨item, hitem, hread⟩ := exists_of_mem_mapM hes he
  refine ⟨item, ?_, hread⟩
  have hpayload : payload = payloadOf env := (itemOf_eq_ok.1 hp).2
  have heq : entries = entriesOf env := by
    rw [entriesOf, ← hpayload]
    cases payload with
    | dict fs =>
      unfold Value.item at hentries
      cases hl : lookup fs (txt "entries") with
      | none => simp [hl] at hentries
      | some v => simp [hl] at hentries; simp [Value.getIf, Value.get, hl, hentries]
    | _ => cases hentries
  rw [heq] at hitems
  cases hvalue : entriesOf env with
  | list xs =>
    rw [hvalue] at hitems
    cases hitems
    exact hitem
  | _ => rw [hvalue] at hlist; cases hlist

/-- The payload of a mapped entry, and the tests it passed. -/
theorem observation_of_mapped {item : List (Text × Value F)} {e : Entry F} {v : EntryV2 F}
    (h : entryV2FromDocument (.dict item) = .ok e) (hv : e.v2 = some v) (hvalid : payloadValid item = true)
    (hstatus : v.observation.status = .hashed ∨ v.observation.status = .emptyFileHashed) :
    ∃ p, payloadHead p = true ∧ ∀ f, v.observation.field f = fieldOf p (PayloadKey.field f) := by
  obtain ⟨entry, -, h⟩ := bind_eq_ok.1 h
  obtain ⟨-, -, h⟩ := bind_eq_ok.1 h
  obtain ⟨observation, hread, h⟩ := bind_eq_ok.1 h
  cases h
  cases hv
  dsimp only at hstatus
  obtain ⟨-, -, hread⟩ := bind_eq_ok.1 hread
  obtain ⟨status, hs, hread⟩ := bind_eq_ok.1 hread
  obtain ⟨provenance, -, hread⟩ := bind_eq_ok.1 hread
  cases hread
  have hs := enumOf_eq_ok.1 hs
  unfold payloadValid observationOf at hvalid
  have hvalue : keyOf (.dict item) EntryKey.payloadObservation = fieldOf item EntryKey.payloadObservation := rfl
  rw [hvalue] at hs ⊢
  cases hp : fieldOf item EntryKey.payloadObservation with
  | dict p =>
    rw [hp] at hvalid hs
    dsimp only at hvalid
    have hsuccess : isSuccess p = true := by
      have hs : fieldOf p PayloadKey.status = nameValue status := hs
      unfold isSuccess
      rw [hs]
      rcases hstatus with rfl | rfl <;> exact decide_eq_true (by decide)
    split_ifs at hvalid
    simp only [hsuccess, if_true, Bool.and_eq_true] at hvalid
    exact ⟨p, hvalid.2.1.1, fun f => rfl⟩
  | _ => rw [hp] at hvalid; cases hvalid

section
variable {startedAt : Value F} {fact : Fact F} {s : Snapshot F}

/-- The candidate is known by a text. -/
theorem GivesCandidate.snapshotId (h : GivesCandidate startedAt fact s) :
    (∃ t, s.field .snapshotId = .str t) ∧ persists (s.field .snapshotId) fact.1.value = true := by
  have haccepted := acceptedV2_of_accepts h.accepts h.version
  have htyped := ((checks_typedSnapshotValid _).eq_true.1 haccepted.typed).2
  have hdict := isDict_of_version h.version
  have hfact : snapshotFact fact.1.value = snapshotOf (members fact.1.value) := by
    rw [hdict]
    rfl
  have hid := snapshotId_of_mapped h.mapped
  rw [hfact] at hid
  simp only [typedValid, typedHead, Bool.and_eq_true, List.all_eq_true] at htyped
  have hstr := htyped.1.1.1.1.1.1.2 .snapshotId (by decide)
  have hshaped := haccepted.shaped
  unfold snapshotShapedV2 at hshaped
  cases hsnapshot : snapshotOf (members fact.1.value) with
  | dict fs =>
    rw [hsnapshot] at hid hstr hfact
    have hfield : s.field .snapshotId = fieldOf fs (SnapshotKey.field .snapshotId) := hid
    have hstr : (fieldOf fs (SnapshotKey.field .snapshotId)).isStr = true := hstr
    rw [← hfield] at hstr
    cases hvalue : s.field .snapshotId with
    | str t =>
      refine ⟨⟨t, rfl⟩, ?_⟩
      have hget : Value.getIf (.dict fs) (txt "snapshot_id") = .str t := by
        rw [← hid, hvalue]
      have hself : (Value.str (F := F) t).eq (.str t) = true := Value.eq_str.2 rfl
      have hsame : (lit (F := F) "filesystem.snapshot").eq (lit "filesystem.snapshot") = true := Value.eq_str.2 rfl
      rw [persists, persistsSnapshot, h.evidenceType, py_ok, ok_bind_ok, hfact, hget, hself, hsame]
      rfl
    | _ => rw [hvalue] at hstr; cases hstr
  | _ => rw [hsnapshot] at hshaped; cases hshaped

/-- A reused payload is the one it was copied from. -/
theorem GivesCandidate.samePayload (h : GivesCandidate startedAt fact s) {e : Entry F} {v : EntryV2 F}
    (he : e ∈ s.entries) (hv : e.v2 = some v)
    (hstatus : v.observation.status = .hashed ∨ v.observation.status = .emptyFileHashed) (id : Value F) :
    samePayload (reusedObservation v.observation id) v.observation = true ∧
      ((reusedObservation v.observation id).field .digest).eq (v.observation.field .digest) = true := by
  have haccepted := acceptedV2_of_accepts h.accepts h.version
  have hmapped := h.mapped
  rw [isDict_of_version h.version] at hmapped
  obtain ⟨item, hitem, hread⟩ := item_of_mapped hmapped (isList_of_shapedV2 haccepted.shaped) he
  have hvalid := ((checks_allM fun item _ => checks_onDict checks_validPayloadObservation item).eq_true.1
    haccepted.payloads).2
  have hvalid := List.all_eq_true.1 hvalid item hitem
  cases item with
  | dict fs =>
    obtain ⟨p, hhead, hfield⟩ := observation_of_mapped hread hv hvalid hstatus
    simp only [payloadHead, Bool.and_eq_true] at hhead
    obtain ⟨⟨⟨⟨⟨halgorithm, hversion⟩, hdigest⟩, hbytes⟩, -⟩, -⟩ := hhead
    rw [← hfield] at halgorithm hversion hdigest hbytes
    have hint : ∀ {q : Int → Bool} {x : Value F}, isIntWith q x = true → x.eq x = true := by
      intro q x hx
      cases x <;> first | cases hx | exact Value.same_self rfl
    have hhex : (v.observation.field .digest).eq (v.observation.field .digest) = true := by
      cases hd : v.observation.field .digest with
      | str t => exact Value.eq_str.2 rfl
      | _ => rw [hd] at hdigest; cases hdigest
    refine ⟨?_, hhex⟩
    simp only [Steward.samePayload, reusedObservation, Bool.and_eq_true]
    refine ⟨⟨⟨rfl, ?_⟩, hint hversion⟩, hint hbytes⟩
    rw [Value.eq_str.1 halgorithm]
    exact Value.eq_str.2 rfl
  | _ => cases hvalid

end

/-- `s` is persisted with an observation for the entry: it started with the selector, has its policy, and its `entry` is
`current` with a payload. -/
structure PersistedWith (startedAt : Value F) (policy : PolicyKey → Value F) (current : Entry F) (s : Snapshot F)
    (entry : Entry F) : Prop where
  startedAt : s.field .startedAt = startedAt
  policy : ∃ w, s.v2 = some w ∧ w.hashPolicy = policy
  field : entry.field = current.field
  flag : entry.flag = current.flag
  objectType : entry.objectType = current.objectType
  observationStatus : entry.observationStatus = current.observationStatus

section
variable {c : Corpus F} {verify verify' : Value F → Result VerificationStatus} {policy : PolicyKey → Value F}
  {startedAt : Value F} {current entry : Entry F} {o : Observation F} {s source : Snapshot F}

theorem PersistedWith.eligible (h : PersistedWith startedAt policy current s entry) (e : Entry F) (o : Observation F)
    (p : PolicyKey → Value F) : directReuseSourceEligible entry e o p = directReuseSourceEligible current e o p := by
  unfold directReuseSourceEligible metadataReuseEligible
  rw [h.field, h.flag, h.objectType, h.observationStatus]

theorem PersistedWith.entryAt (h : PersistedWith startedAt policy current s entry) :
    entryAt source entry = entryAt source current := by
  unfold Steward.entryAt
  rw [h.field]

theorem Selected.gives (h : Selected c verify policy startedAt current source) :
    c.Readable ∧ ∃ fact ∈ c.facts, GivesCandidate startedAt fact source := by
  obtain ⟨candidates, hload, before, after, rfl, -⟩ := h
  obtain ⟨hreadable, hgives⟩ := loadCandidates_spec hload
  exact ⟨hreadable, hgives source (by simp)⟩

theorem Selected.suits (h : Selected c verify policy startedAt current source) :
    Suits verify policy current source := by
  obtain ⟨candidates, -, before, after, -, hsuits, -⟩ := h
  exact hsuits

/-- The reference is looked up by the identity of the selected source. -/
theorem referenceIssue_of_selected (h : Selected c verify policy startedAt current source)
    (hverify : verify' (source.field .snapshotId) = .ok .valid) (hcopied : Copied current source o)
    (hs : PersistedWith startedAt policy current s entry) :
    referenceIssue c verify' s entry o = .ok none ↔
      (source.field .snapshotId).truthy = true ∧ (c.persisting (source.field .snapshotId)).length = 1 := by
  obtain ⟨hreadable, fact, hfact, hgives⟩ := h.gives
  obtain ⟨-, e', v', he', hv', heligible⟩ := h.suits
  obtain ⟨e, v, he, hv, rfl⟩ := hcopied
  obtain rfl : e = e' := Option.some.inj (he.symm.trans he')
  obtain rfl : v = v' := Option.some.inj (hv.symm.trans hv')
  obtain ⟨w, hw, hpolicy⟩ := hs.policy
  have hmem : fact ∈ c.persisting (source.field .snapshotId) := List.mem_filter.2 ⟨hfact, hgives.snapshotId.2⟩
  have hname : (reusedObservation v.observation (source.field .snapshotId)).field .reusedFromSnapshotId =
      source.field .snapshotId := rfl
  unfold referenceIssue sourceReference
  rw [hname]
  by_cases htruthy : (source.field .snapshotId).truthy = true
  · rw [if_pos htruthy, findSnapshotEvidence_eq hreadable]
    match hpersisting : c.persisting (source.field .snapshotId) with
    | [] => rw [hpersisting] at hmem; cases hmem
    | first :: second :: rest =>
      refine iff_of_false (fun h => ?_) fun h => ?_
      · cases h
      · have hlen := h.2
        rw [List.length_cons, List.length_cons] at hlen
        omega
    | [only] =>
      rw [hpersisting, List.mem_singleton] at hmem
      subst hmem
      refine iff_of_true ?_ ⟨htruthy, rfl⟩
      obtain ⟨intrinsic, hvalidate, hvalid⟩ := hgives.accepts
      have hstatus : v.observation.status = .hashed ∨ v.observation.status = .emptyFileHashed := by
        simp only [directReuseSourceEligible, Bool.and_eq_true, Bool.or_eq_true, decide_eq_true_eq] at heligible
        exact heligible.1.1.1.1.1.1.2
      obtain ⟨hsame, hdigest⟩ := hgives.samePayload (List.mem_of_find?_eq_some he) hv hstatus (source.field .snapshotId)
      have hentry : sourceEntryIssue s source entry (reusedObservation v.observation (source.field .snapshotId)) = .ok none := by
        unfold sourceEntryIssue
        rw [hs.entryAt, he]
        simp only [hv, hw, hs.eligible, hpolicy, heligible, hsame, hdigest]
        rfl
      have hnot : ¬ snapshotEvidenceSchemaVersion fact.1.value ≠ some 2 := not_not.2 hgives.version
      simp only [ok_bind_ok, if_neg hnot, hvalidate, hvalid, hgives.mapped, hs.startedAt, later_of_notLater hgives.complete,
        py_ok]
      change (verify' (source.field .snapshotId) >>= fun status =>
        if status ≠ VerificationStatus.valid then
          pure (some (issue "PAYLOAD_REUSE_SOURCE_INVALID" "reuse source is not VALID"))
        else py (sourceEntryIssue s source entry (reusedObservation v.observation (source.field .snapshotId)))) = _
      rw [hverify, ok_bind_ok, if_neg (by decide), hentry]
      rfl
  · rw [if_neg htruthy]
    refine iff_of_false (fun h => ?_) fun h => htruthy h.1
    cases h

/-- `source` is the same file as `current`, unchanged. -/
structure SameFile (current source : Entry F) : Prop where
  location : (current.field .scopeId).eq (source.field .scopeId) = true ∧
    (current.field .relativePath).eq (source.field .relativePath) = true
  metadata : ∀ f ∈ requiredFields, (source.field f).isNone = false ∧ (current.field f).eq (source.field f) = true
  birthtime : ((source.field .birthtimeNs).isNone = false ∧
      (current.field .birthtimeNs).eq (source.field .birthtimeNs) = true) ∨
    ((current.field .birthtimeNs).isNone = true ∧ (source.field .birthtimeNs).isNone = true)

theorem sameFile_of_eligible {e : Entry F} (h : metadataReuseEligible current e = true) : SameFile current e := by
  unfold metadataReuseEligible at h
  simp only [Bool.and_eq_true, List.all_eq_true, Bool.not_eq_true'] at h
  obtain ⟨⟨⟨⟨⟨⟨⟨⟨⟨⟨hscope, hpath⟩, -⟩, -⟩, -⟩, -⟩, -⟩, -⟩, hknown⟩, hequal⟩, hbirth⟩ := h
  refine ⟨⟨hscope, hpath⟩, fun f hf => ⟨(hknown f hf).2, hequal f hf⟩, ?_⟩
  split_ifs at hbirth with hboth
  · exact .inl ⟨hboth.2, hbirth⟩
  · exact .inr (by simpa using hbirth)

/-- The observation is sound: the entry it is persisted with passes the check of its reference, and it names an accepted
Snapshot, complete in time, that read the same unchanged file itself. -/
structure SoundReuse (c : Corpus F) (verify : Value F → Result VerificationStatus) (startedAt : Value F)
    (current : Entry F) (s : Snapshot F) (entry : Entry F) (o : Observation F) : Prop where
  checked : referenceIssue c verify s entry o = .ok none
  named : ∃ fact ∈ c.facts, ∃ source, Accepts fact.1.value ∧ snapshotV2FromValidEvidence fact.1.value fact.2 = .ok source ∧
    source.field .snapshotId = o.field .reusedFromSnapshotId ∧ notLater (source.field .completedAt) startedAt = .ok true ∧
    ∃ e ∈ source.entries, SameFile current e ∧ ∃ v, e.v2 = some v ∧
      v.observation.provenance = some .directRead ∧ (v.observation.field .reusedFromSnapshotId).isNone = true

end

/-- What a selector returns is sound exactly when the Snapshot it selects has an identity that one Evidence file persists. -/
theorem resolve_sound_iff {c : Corpus F} {ix : Index F} {depth n : Nat} {policy : PolicyKey → Value F}
    {startedAt : Value F}
    {current entry : Entry F} {s : Snapshot F} (before : List (Entry F)) (hn : depth ≤ n)
    (hs : PersistedWith startedAt policy current s entry) :
    (∀ o, (resolve (verifyStatus c ix depth) policy current c startedAt
        (keptAfter c (verifyStatus c ix depth) policy startedAt before)).1 = .ok (some o) →
        SoundReuse c (verifyStatus c ix n) startedAt current s entry o) ↔
      ∀ source, Selected c (verifyStatus c ix depth) policy startedAt current source →
        (source.field .snapshotId).truthy = true ∧ (c.persisting (source.field .snapshotId)).length = 1 := by
  have hdeeper : ∀ source, Selected c (verifyStatus c ix depth) policy startedAt current source →
      verifyStatus c ix n (source.field .snapshotId) = .ok .valid := by
    intro source hselected
    have hvalid := hselected.suits.1
    rw [extends_verifyStatus c ix hn _ (by rw [hvalid]; exact bounded_ok _), hvalid]
  constructor
  · intro hsound source hselected
    obtain ⟨-, e, v, he, hv, -⟩ := hselected.suits
    have hcopied : Copied current source (reusedObservation v.observation (source.field .snapshotId)) := ⟨e, v, he, hv, rfl⟩
    have hchecked := (hsound _ (resolve_eq_some.2 ⟨source, hselected, hcopied⟩)).checked
    exact (referenceIssue_of_selected hselected (hdeeper source hselected) hcopied hs).1 hchecked
  · intro hunique o ho
    obtain ⟨source, hselected, hcopied⟩ := resolve_eq_some.1 ho
    obtain ⟨-, fact, hfact, hgives⟩ := hselected.gives
    refine ⟨(referenceIssue_of_selected hselected (hdeeper source hselected) hcopied hs).2 (hunique source hselected),
      fact, hfact, source, hgives.accepts, hgives.mapped, ?_, hgives.complete, ?_⟩
    · obtain ⟨e, v, -, -, rfl⟩ := hcopied
      rfl
    · obtain ⟨-, e, v, he, hv, heligible⟩ := hselected.suits
      simp only [directReuseSourceEligible, Bool.and_eq_true, decide_eq_true_eq] at heligible
      exact ⟨e, List.mem_of_find?_eq_some he, sameFile_of_eligible heligible.1.1.1.1.1.1.1, v, hv, heligible.1.1.1.1.1.2,
        heligible.1.1.1.1.2⟩

/-! ## Two files of one Snapshot -/

theorem shelved_nil : Shelved [] where
  safe p hp := by cases hp
  ordered := .nil
  separate := .nil

/-- v2 Evidence that names the Snapshot of the shelf. -/
def stray : Sole := ⟨shelfId, .directRead, .none, .int 1, by decide, .inr rfl, .inl ⟨rfl, rfl⟩⟩

def strayDocument : Document Integral := ⟨.dict stray.envelope, Sole.wf_envelope⟩

def strayRun : RunDir Integral := ⟨[(selfName, .file (.json strayDocument))], List.pairwise_singleton _ _⟩

/-- The shelf is indexed; two Run directories hold the same v2 Evidence. -/
def strayCorpus : Corpus Integral :=
  ⟨some ⟨[(txt "a", strayRun), (txt "b", strayRun)], by decide⟩,
    fun path => if path = txt "e.json" then some (.json (shelfDocument shelved_nil)) else none⟩

theorem stray_facts (runId : Text) (h : strayCorpus.dir? runId = some strayRun) :
    runFacts strayCorpus runId = .ok [(strayDocument, evidencePath runId selfName)] := by
  have hload : loadNode selfName (.file (.json strayDocument)) = .ok (.item strayDocument) :=
    loadNode_eq_item.2 ⟨rfl, by decide, by decide⟩
  have hlisting : loadListing strayRun.listing = .ok ⟨[(selfName, strayDocument)], []⟩ := by
    show loadListing [(selfName, .file (.json strayDocument))] = _
    rw [loadListing, hload]
    rfl
  rw [runFacts, loadRunFiles, h]
  dsimp only
  rw [hlisting]
  rfl

theorem stray_gives (path : Text) :
    ∃ s, GivesCandidate (lit "t") (strayDocument, path) s ∧ s.field .snapshotId = .str shelfId ∧
    s.entries = [stray.entryRead] ∧ Ok (candidateKey s) := by
  obtain ⟨s, hmapped, hid, hcreated, -, hcompleted, hentries⟩ := @Sole.mapped_sole stray path
  have hversion : snapshotEvidenceSchemaVersion strayDocument.value = some 2 :=
    snapshotEvidenceSchemaVersion_of_field (by rw [Sole.envelope, fieldOf_envelope]; rfl) (by decide)
  have hkind : strayDocument.value.callGet (txt "evidence_type") = .ok (lit "filesystem.snapshot") :=
    congrArg Except.ok (fieldOf_envelope (sealFields stray.fields) .evidenceType)
  have hcomplete : notLater (s.field .completedAt) (lit "t") = .ok true := by
    rw [hcompleted]
    rfl
  have hkey : Ok (candidateKey s) := by
    unfold candidateKey
    rw [hid, hcreated, hcompleted]
    exact ok_ok _
  exact ⟨s, ⟨hkind, hversion, accepts_iff.2 (.inr ⟨hversion, Sole.accepted_sole⟩), hmapped, hcomplete⟩, hid, hentries, hkey⟩

theorem stray_verifies : verifyStatus strayCorpus (shelfIndex []) 1 (.str shelfId) = .ok .valid := by
  obtain ⟨v, hv, hstatus⟩ := shelf_verifies_in (c := strayCorpus) shelved_nil rfl 0
  rw [verifyStatus]
  show Verification.status <$> verifySnapshot strayCorpus (shelfIndex []) 0 (.str shelfId) = _
  rw [hv]
  show Except.ok v.status = _
  rw [hstatus]

/-- The file of the stray entry, observed again. -/
def strayCurrent : Entry Integral := { stray.entryRead with v2 := none }

theorem stray_field (f : EntryField) : stray.entryRead.field f = stray.entry.field f := Sole.fieldOf_entry (.field f)

theorem stray_eligible : directReuseSourceEligible strayCurrent stray.entryRead
    ⟨.hashed, some .directRead, fun f => keyOf stray.observation.toDict (PayloadKey.field f)⟩ Sole.policy = true := by
  have hpayload (f : PayloadField) : keyOf stray.observation.toDict (PayloadKey.field f) = stray.observation.field f :=
    Sole.fieldOf_observation (.field f)
  have hcurrent (f : EntryField) : strayCurrent.field f = stray.entry.field f := stray_field f
  have hflag : stray.entryRead.flag .excluded = false :=
    congrArg Value.truthy (Sole.fieldOf_entry (x := stray) (.flag .excluded))
  have hflag' : strayCurrent.flag .excluded = false := hflag
  have hmetadata : metadataReuseEligible strayCurrent stray.entryRead = true := by
    simp only [metadataReuseEligible, requiredFields, List.all_cons, List.all_nil, stray_field, hcurrent, hflag, hflag']
    rfl
  have hhex : isSha256Hex (stray.observation.field .digest) = true := Sole.isSha256Hex_sha []
  simp only [directReuseSourceEligible, hmetadata, hpayload, stray_field, hhex]
  rfl

/-- One of the two is selected, and its identity is ambiguous. -/
theorem stray_selected :
    ∃ source, Selected strayCorpus (verifyStatus strayCorpus (shelfIndex []) 1) Sole.policy (lit "t")
    strayCurrent source ∧ (strayCorpus.persisting (source.field .snapshotId)).length = 2 := by
  obtain ⟨a, ha, haid, haentries, hakey⟩ := stray_gives (evidencePath (txt "a") selfName)
  obtain ⟨b, hb, hbid, hbentries, hbkey⟩ := stray_gives (evidencePath (txt "b") selfName)
  have hdirs : keys strayCorpus.dirs = [txt "a", txt "b"] := rfl
  have hfacts := stray_facts (txt "a") rfl
  have hfacts' := stray_facts (txt "b") rfl
  obtain ⟨candidates, hsorted⟩ : Ok (sortedByM candidateKey [a, b]) := by
    refine ok_sortedByM.2 fun s hs => ?_
    rcases List.mem_cons.1 hs with rfl | hs
    · exact hakey
    · rw [List.mem_singleton.1 hs]
      exact hbkey
  have hload : loadCandidates strayCorpus (lit "t") = .ok candidates := by
    rw [loadCandidates, if_neg (by decide), hdirs, List.mapM_cons, List.mapM_cons, List.mapM_nil, hfacts, hfacts', ok_bind_ok,
      ok_bind_ok, List.mapM_cons, List.mapM_cons, candidateOf_eq_some.2 ha, candidateOf_eq_some.2 hb]
    show py (sortedByM candidateKey [a, b]) = _
    rw [hsorted]
    rfl
  have hperm := sortedByM_perm hsorted
  cases candidates with
  | nil => cases hperm.length_eq
  | cons source after =>
    have hsource : source.field .snapshotId = .str shelfId ∧ source.entries = [stray.entryRead] := by
      have hmem := hperm.mem_iff.1 (List.mem_cons_self (a := source) (l := after))
      rcases List.mem_cons.1 hmem with rfl | hmem
      · exact ⟨haid, haentries⟩
      · rw [List.mem_singleton.1 hmem]
        exact ⟨hbid, hbentries⟩
    refine ⟨source, ⟨source :: after, hload, [], after, rfl, ⟨?_, ?_⟩, List.forall_mem_nil _⟩, ?_⟩
    · rw [hsource.1]
      exact stray_verifies
    · refine ⟨stray.entryRead, _, ?_, rfl, stray_eligible⟩
      have hwf (f : EntryField) : (stray.entryRead.field f).wf = true := by
        rw [stray_field]
        exact Sole.wf_entry.field f
      have hscope : (stray.entryRead.field .scopeId).same (strayCurrent.field .scopeId) = true := Value.same_self (hwf _)
      have hpath : (stray.entryRead.field .relativePath).same (strayCurrent.field .relativePath) = true :=
        Value.same_self (hwf _)
      rw [entryAt, hsource.2, List.find?_cons_of_pos]
      rw [hscope, hpath]
      rfl
    · have hpersists : persists (.str shelfId) strayDocument.value = true := by
        rw [← haid]
        exact ha.snapshotId.2
      have hall : strayCorpus.facts = [(strayDocument, evidencePath (txt "a") selfName),
          (strayDocument, evidencePath (txt "b") selfName)] := by
        rw [Corpus.facts, hdirs, List.flatMap_cons, List.flatMap_cons, List.flatMap_nil, hfacts, hfacts']
        rfl
      rw [Corpus.persisting, hall, hsource.1, List.filter_eq_self.2]
      · rfl
      · simp only [List.forall_mem_cons, hpersists, true_and]
        exact List.forall_mem_nil _

/-- The Snapshot that reuses the payload. -/
def strayPersisted : Snapshot Integral where
  field
    | .startedAt => lit "t"
    | _ => .none
  status := .complete
  consistency := .bestEffortPointInTime
  scopeIds := []
  budget _ := .none
  entries := []
  v2 := some ⟨.int 2, Sole.policy, .none, .none, []⟩

theorem stray_persisted : PersistedWith (lit "t") Sole.policy strayCurrent strayPersisted strayCurrent :=
  ⟨rfl, ⟨_, rfl, rfl⟩, rfl, rfl, rfl, rfl⟩

theorem resolve_sound_stray :
    (∀ o, (resolve (verifyStatus strayCorpus (shelfIndex []) 1) Sole.policy strayCurrent strayCorpus (lit "t")
        (keptAfter strayCorpus (verifyStatus strayCorpus (shelfIndex []) 1) Sole.policy (lit "t") [])).1 = .ok (some o) →
        SoundReuse strayCorpus (verifyStatus strayCorpus (shelfIndex []) 1) (lit "t") strayCurrent strayPersisted
          strayCurrent o) ↔
      ∀ source, Selected strayCorpus (verifyStatus strayCorpus (shelfIndex []) 1) Sole.policy (lit "t") strayCurrent
        source → (source.field .snapshotId).truthy = true ∧
          (strayCorpus.persisting (source.field .snapshotId)).length = 1 :=
  resolve_sound_iff [] (Nat.le_refl 1) stray_persisted

/-- The payload of a file that was never verified is reused, and its reference is then refused. -/
theorem stray_unsound : ∃ o,
    (resolve (verifyStatus strayCorpus (shelfIndex []) 1) Sole.policy strayCurrent strayCorpus (lit "t") none).1 =
      .ok (some o) ∧
    ¬ SoundReuse strayCorpus (verifyStatus strayCorpus (shelfIndex []) 1) (lit "t") strayCurrent strayPersisted
      strayCurrent o := by
  obtain ⟨source, hselected, htwo⟩ := stray_selected
  obtain ⟨-, e, v, he, hv, -⟩ := hselected.suits
  have hcopied : Copied strayCurrent source (reusedObservation v.observation (source.field .snapshotId)) :=
    ⟨e, v, he, hv, rfl⟩
  have hresolve := (@resolve_eq_some _ _ _ _ _ _ _ _ []).2 ⟨source, hselected, hcopied⟩
  refine ⟨_, hresolve, fun hsound => ?_⟩
  have hone := ((referenceIssue_of_selected hselected hselected.suits.1 hcopied stray_persisted).1 hsound.checked).2
  omega

end Steward
