import Steward.Py.Recursion
import Steward.Snapshot.Totality

/-!
# Termination of verification

`_verify_snapshot` calls itself for the source of every reuse reference that
passed the checks before the call. Nothing there excludes a Snapshot that names
itself, so the recursion bottoms out exactly on the corpora and indices where
no Snapshot refers back to itself.
-/

namespace Steward

open Py Sqlite

variable {F : Type} [SqliteFloat F]

/-! ## Everything but the recursion is bounded -/

theorem bounded_digestOf (v : Value F) : Bounded (digestOf v) := by
  rcases digestOf_cases v with ⟨d, h⟩ | h <;> rw [h] <;> simp

theorem bounded_canonicalJson (v : Value F) : Bounded (canonicalJson v) :=
  .ite (bounded_ok _) (bounded_steward _)

theorem bounded_jsonCopy (v : Value F) : Bounded (jsonCopy v) := by
  refine (bounded_canonicalJson v).bind fun t _ => ?_
  cases Json.loads (F := F) t <;> simp

theorem bounded_evidenceDigestValid (env : List (Text × Value F)) :
    Bounded (evidenceDigestValid env) := by
  unfold evidenceDigestValid
  cases fieldOf env EnvelopeKey.evidenceDigest with
  | str s => exact (bounded_digestOf _).bind fun _ _ => bounded_pure _
  | _ => exact bounded_pure _

theorem bounded_digestMatches (c : Bool) (v : Value F) {d : Result Text} (h : Bounded d) :
    Bounded (digestMatches c v d) := .ite (h.bind fun _ _ => bounded_pure _) (bounded_pure _)

theorem bounded_orOnEvidenceError {α : Type} {x : Result α} (h : Bounded x) (a : α) :
    Bounded (orOnEvidenceError x a) := by
  unfold orOnEvidenceError
  split
  · exact bounded_ok _
  · exact h

theorem bounded_validateV1 (env : List (Text × Value F)) :
    Bounded (validateSnapshotEvidenceV1 env) := by
  unfold validateSnapshotEvidenceV1
  refine (bounded_evidenceDigestValid env).bind fun _ _ => (bounded_py _).bind fun _ _ => ?_
  refine Bounded.bind (.ite ((bounded_py _).bind fun _ _ => bounded_pure _) (bounded_pure _))
    fun _ _ => ?_
  refine (bounded_digestMatches _ _ (bounded_digestOf _)).bind fun _ _ => ?_
  exact (bounded_digestMatches _ _ (bounded_digestOf _)).bind fun _ _ => bounded_pure _

theorem bounded_digestsMatchV2 (typed : Bool) (data : List (Text × Value F)) (items : List (Value F)) :
    Bounded (digestsMatchV2 typed data items) := by
  refine bounded_orOnEvidenceError ?_ _
  refine (bounded_digestMatches _ _ ?_).bind fun _ _ =>
    (bounded_digestMatches _ _ (bounded_digestOf _)).bind fun _ _ => bounded_pure _
  exact (bounded_py _).bind fun _ _ => bounded_digestOf _

theorem bounded_validateV2 (env : List (Text × Value F)) :
    Bounded (validateSnapshotEvidenceV2 env) := by
  unfold validateSnapshotEvidenceV2
  refine (bounded_orOnEvidenceError (bounded_evidenceDigestValid env) _).bind fun _ _ =>
    (bounded_py _).bind fun _ _ => (bounded_py _).bind fun _ _ => (bounded_py _).bind fun _ _ => ?_
  refine Bounded.bind (.ite ((bounded_py _).bind fun _ _ => bounded_pure _) (bounded_pure _))
    fun _ _ => ?_
  refine (bounded_py _).bind fun _ _ => (bounded_py _).bind fun _ _ => (bounded_py _).bind fun _ _ => ?_
  refine Bounded.bind ?_ fun _ _ => (bounded_digestsMatchV2 _ _ _).bind fun _ _ => bounded_pure _
  exact Bounded.bind (.ite ((bounded_py _).map _) (bounded_ok _)) fun _ _ => bounded_pure _

theorem bounded_validate (evidence : Value F) : Bounded (validateSnapshotEvidence evidence) := by
  unfold validateSnapshotEvidence
  cases snapshotEvidenceSchemaVersion evidence with
  | none => exact bounded_ok _
  | some n => exact .ite (bounded_validateV1 _) (.ite (bounded_validateV2 _) (bounded_ok _))

theorem bounded_snapshotFromRow (row : Row SnapshotColumn F) (entries : List (Entry F)) :
    Bounded (snapshotFromRow row entries) := by
  unfold snapshotFromRow
  refine Bounded.bind (.ite (bounded_ok _) (.ite (bounded_steward _) (bounded_py _))) fun _ _ => ?_
  refine (bounded_py _).bind fun _ _ => (bounded_py _).bind fun _ _ => (bounded_py _).bind fun _ _ => ?_
  exact (bounded_py _).bind fun _ _ => (bounded_py _).bind fun _ _ => (bounded_py _).bind fun _ _ =>
    bounded_pure _

theorem bounded_getSnapshot (ix : Index F) (id : Value F) : Bounded (getSnapshot ix id) := by
  unfold getSnapshot
  refine (bounded_sql _).bind fun rows _ => ?_
  cases rows with
  | nil => exact bounded_steward _
  | cons row rest =>
    refine Bounded.bind ((bounded_sql _).bind fun _ _ => bounded_pure _) fun _ _ => ?_
    exact (Bounded.mapM fun _ _ => bounded_py _).bind fun _ _ => bounded_snapshotFromRow _ _

theorem bounded_loadListing (l : List (Text × Node F)) : Bounded (loadListing l) := by
  induction l with
  | nil => exact bounded_ok _
  | cons x l ih =>
    rw [loadListing]
    refine Bounded.bind ?_ fun _ _ => ih.bind fun _ _ => bounded_pure _
    unfold loadNode
    split
    · exact bounded_ok _
    · exact bounded_ok _
    · refine .ite (bounded_ok _) (.ite (bounded_ok _) ?_)
      split <;> simp

theorem bounded_loadRunFiles (c : Corpus F) (runId : Text) : Bounded (loadRunFiles c runId) := by
  unfold loadRunFiles
  split
  · exact bounded_ok _
  · exact bounded_loadListing _

theorem bounded_matchesAmong (id : Value F) (runId : Text) (files : List (Text × Document F)) :
    Bounded (matchesAmong id runId files) := by
  induction files with
  | nil => exact bounded_ok _
  | cons f files ih =>
    exact Bounded.bind ((bounded_py _).bind fun _ _ => bounded_pure _) fun _ _ =>
      ih.bind fun _ _ => bounded_pure _

theorem bounded_matchesInRuns (c : Corpus F) (id : Value F) (runIds : List Text) :
    Bounded (matchesInRuns c id runIds) := by
  induction runIds with
  | nil => exact bounded_ok _
  | cons r rs ih =>
    exact (bounded_loadRunFiles c r).bind fun _ _ => (bounded_matchesAmong _ _ _).bind fun _ _ =>
      ih.bind fun _ _ => bounded_pure _

theorem bounded_findSnapshotEvidence (c : Corpus F) (id : Value F) :
    Bounded (findSnapshotEvidence c id) := by
  refine .ite (bounded_steward _) ((bounded_matchesInRuns _ _ _).bind fun hits _ => ?_)
  rcases hits with _ | ⟨f, _ | _⟩
  · exact bounded_pure _
  · exact bounded_pure _
  · exact bounded_steward _

theorem bounded_sourceReference (c : Corpus F) (current : Snapshot F) (sourceId : Value F) :
    Bounded (sourceReference c current sourceId) := by
  unfold sourceReference
  refine Bounded.bind (.ite (bounded_findSnapshotEvidence _ _) (bounded_ok _)) fun fact _ => ?_
  rcases fact with _ | ⟨d, relative⟩
  · exact bounded_pure _
  · refine .ite (bounded_pure _) ((bounded_validate _).bind fun _ _ => .ite (bounded_pure _) ?_)
    exact (bounded_py _).bind fun _ _ => (bounded_py _).bind fun _ _ => bounded_pure _

theorem bounded_conclude (c : Corpus F) (ix : Index F) (id : Value F) (s : Snapshot F)
    (evidence : Value F) (intrinsic : Validation) (reuse : List Issue) :
    Bounded (conclude c ix id s evidence intrinsic reuse) := by
  refine (bounded_py _).bind fun _ _ => Bounded.bind ?_ fun _ _ => bounded_pure _
  refine (Bounded.mapM fun e _ => bounded_jsonCopy _).bind fun _ _ => ?_
  exact (bounded_py _).bind fun _ _ => (bounded_py _).bind fun _ _ => bounded_pure _

/-! ## The reuse check inside verification -/

/-- The v2 Snapshot whose references verification checks, when it gets that far. -/
def reuseSubject (c : Corpus F) (ix : Index F) (id : Value F) : Result (Option (Snapshot F)) := do
  let s ← getSnapshot ix id
  match c.resolve (s.field .evidenceRelativePath).pyStr with
  | some (.json d) =>
    let intrinsic ← validateSnapshotEvidence d.value
    if intrinsic.valid && snapshotEvidenceSchemaVersion d.value = some 2 then
      some <$> py (snapshotV2FromValidEvidence d.value (s.field .evidenceRelativePath).pyStr)
    else pure none
  | some (.raises e) => throw (.python e)
  | _ => pure none

/-- Verification with the reuse errors given. -/
def afterReuse (c : Corpus F) (ix : Index F) (id : Value F) (reuse : List Issue) :
    Result (Verification F) := do
  let s ← getSnapshot ix id
  match c.resolve (s.field .evidenceRelativePath).pyStr with
  | none => pure (unreadable id s false
      (issue "SNAPSHOT_EVIDENCE_MISSING" "snapshot evidence is missing"))
  | some .invalid => pure (unreadable id s true
      (issue "SNAPSHOT_EVIDENCE_INVALID" "snapshot evidence cannot be read"))
  | some (.raises e) => throw (.python e)
  | some (.json d) =>
    let intrinsic ← validateSnapshotEvidence d.value
    conclude c ix id s d.value intrinsic reuse

def subjectIssues (c : Corpus F) (verify : Value F → Result VerificationStatus) :
    Option (Snapshot F) → Result (List Issue)
  | none => .ok []
  | some current => validateSnapshotReuseReferences c verify current

theorem verifyWith_eq (c : Corpus F) (ix : Index F) (verify : Value F → Result VerificationStatus)
    (id : Value F) : verifyWith c ix verify id = (do
      let subject ← reuseSubject c ix id
      let reuse ← subjectIssues c verify subject
      afterReuse c ix id reuse) := by
  unfold verifyWith reuseSubject afterReuse
  cases getSnapshot ix id with
  | error e => rfl
  | ok s =>
    simp only [ok_bind_ok]
    cases c.resolve (s.field .evidenceRelativePath).pyStr with
    | none => rfl
    | some x =>
      cases x with
      | invalid => rfl
      | raises e => rfl
      | json d =>
        simp only [verifyDocument, reuseErrors]
        cases validateSnapshotEvidence d.value with
        | error e => rfl
        | ok r =>
          simp only [ok_bind_ok]
          split_ifs with h
          · cases snapshotV2FromValidEvidence d.value (s.field .evidenceRelativePath).pyStr <;> rfl
          · rfl

theorem bounded_reuseSubject (c : Corpus F) (ix : Index F) (id : Value F) :
    Bounded (reuseSubject c ix id) := by
  refine (bounded_getSnapshot ix id).bind fun s _ => ?_
  split
  · exact (bounded_validate _).bind fun _ _ => .ite ((bounded_py _).map _) (bounded_pure _)
  · exact bounded_python _
  · exact bounded_pure _

theorem bounded_afterReuse (c : Corpus F) (ix : Index F) (id : Value F) (reuse : List Issue) :
    Bounded (afterReuse c ix id reuse) := by
  refine (bounded_getSnapshot ix id).bind fun s _ => ?_
  split
  · exact bounded_pure _
  · exact bounded_pure _
  · exact bounded_python _
  · exact (bounded_validate _).bind fun _ _ => bounded_conclude _ _ _ _ _ _ _

/-- What comes after the reuse check returns or not whatever its errors. -/
theorem ok_afterReuse {c : Corpus F} {ix : Index F} {id : Value F} (reuse : List Issue) :
    Ok (afterReuse c ix id reuse) ↔ Ok (afterReuse c ix id []) := by
  unfold afterReuse
  cases hs : getSnapshot ix id with
  | error e => exact iff_of_false (not_ok_error _) (not_ok_error _)
  | ok s =>
    simp only [ok_bind_ok]
    cases c.resolve (s.field .evidenceRelativePath).pyStr with
    | none => exact iff_of_true (ok_pure _) (ok_pure _)
    | some x =>
      cases x with
      | invalid => exact iff_of_true (ok_pure _) (ok_pure _)
      | raises e => exact iff_of_false (not_ok_throw _) (not_ok_throw _)
      | json d =>
        simp only [ok_bind, ok_conclude (wf_entries hs)]

/-! ## References -/

/-- The reference of one reused entry. -/
def entryReference (c : Corpus F) (current : Snapshot F) (e : Entry F × Observation F) :
    Result (Reference F) := sourceReference c current (e.2.field .reusedFromSnapshotId)

/-- The entry passed every check before the call that verifies `t`. -/
def NamesIn (c : Corpus F) (current : Snapshot F) (e : Entry F × Observation F) (t : Value F) : Prop :=
  ∃ s, entryReference c current e = .ok (.source s) ∧ t = s.field .snapshotId

/-- Verification returns: no check of `id` raises, nor of any Snapshot it refers to. -/
inductive Returns (c : Corpus F) (ix : Index F) : Value F → Prop where
  | plain {id : Value F} (hs : reuseSubject c ix id = .ok none) (ha : Ok (afterReuse c ix id [])) :
      Returns c ix id
  | reuses {id : Value F} {current : Snapshot F} (hs : reuseSubject c ix id = .ok (some current))
      (ha : Ok (afterReuse c ix id []))
      (he : ∀ e ∈ reusedEntries current, Ok (entryReference c current e))
      (hr : ∀ e ∈ reusedEntries current, ∀ t, NamesIn c current e t → Returns c ix t) :
      Returns c ix id

/-- The check goes on to the next entry. -/
def Passes (c : Corpus F) (ix : Index F) (current : Snapshot F) (e : Entry F × Observation F) : Prop :=
  Ok (entryReference c current e) ∧ ∀ t, NamesIn c current e t → Returns c ix t

/-- Verifying `id` asks for `t` to be verified: `t` passes the checks of a reused entry, and the
entries before it raise nothing. -/
def Refers (c : Corpus F) (ix : Index F) (id t : Value F) : Prop :=
  ∃ current before e after, reuseSubject c ix id = .ok (some current) ∧
    reusedEntries current = before ++ e :: after ∧ NamesIn c current e t ∧
      ∀ p ∈ before, Passes c ix current p

/-! ## Mapped Snapshots are v2 -/

theorem v2_of_entryV2FromDocument {item : Value F} {e : Entry F}
    (h : entryV2FromDocument item = .ok e) : e.v2.isSome = true := by
  simp only [entryV2FromDocument, bind_eq_ok] at h
  obtain ⟨_, -, _, -, _, -, h⟩ := h
  cases h
  rfl

omit [SqliteFloat F] in
theorem entries_of_snapshotFromDocument {evidence : Value F} {path : Text}
    {entry : Value F → Except Py.Error (Entry F)} {s : Snapshot F}
    (h : snapshotFromDocument evidence path entry = .ok s) : ∀ e ∈ s.entries, ∃ item, entry item = .ok e := by
  simp only [snapshotFromDocument, bind_eq_ok] at h
  obtain ⟨_, -, _, -, _, -, es, hes, _, -, _, -, _, -, _, -, _, -, _, -, h⟩ := h
  cases h
  exact fun e he => (exists_of_mem_mapM hes he).imp fun _ h => h.2

/-- The Snapshot and all its entries are of the v2 classes. -/
structure IsV2 (s : Snapshot F) : Prop where
  snapshot : s.v2.isSome = true
  entries : ∀ e ∈ s.entries, e.v2.isSome = true

theorem isV2_of_mapped {evidence : Value F} {path : Text} {s : Snapshot F}
    (h : snapshotV2FromValidEvidence evidence path = .ok s) : IsV2 s := by
  simp only [snapshotV2FromValidEvidence, bind_eq_ok] at h
  obtain ⟨t, ht, _, -, _, -, _, -, _, -, h⟩ := h
  cases h
  refine ⟨rfl, fun e he => ?_⟩
  obtain ⟨item, hi⟩ := entries_of_snapshotFromDocument ht e he
  exact v2_of_entryV2FromDocument hi

theorem isV2_of_reuseSubject {c : Corpus F} {ix : Index F} {id : Value F} {current : Snapshot F}
    (h : reuseSubject c ix id = .ok (some current)) : IsV2 current := by
  obtain ⟨s, -, h⟩ := bind_eq_ok.1 h
  split at h
  · rename_i d _
    obtain ⟨r, -, h⟩ := bind_eq_ok.1 h
    split_ifs at h
    · cases hm : snapshotV2FromValidEvidence d.value (s.field .evidenceRelativePath).pyStr with
      | error e => rw [hm] at h; cases h
      | ok t => rw [hm] at h; cases h; exact isV2_of_mapped hm
    · cases h
  · cases h
  · cases h

theorem sourceReference_source {c : Corpus F} {current s : Snapshot F} {id : Value F}
    (h : sourceReference c current id = .ok (.source s)) : ∃ d path,
      findSnapshotEvidence c id = .ok (some (d, path)) ∧
        snapshotV2FromValidEvidence d.value path = .ok s := by
  obtain ⟨fact, hf, h⟩ := bind_eq_ok.1 h
  rcases fact with _ | ⟨d, path⟩
  · cases h
  · refine ⟨d, path, ?_, ?_⟩
    · split_ifs at hf
      · exact hf
      · cases hf
    · simp only at h
      split_ifs at h
      · cases h
      · obtain ⟨r, -, h⟩ := bind_eq_ok.1 h
        split_ifs at h
        · cases h
        · obtain ⟨t, ht, h⟩ := bind_eq_ok.1 h
          obtain ⟨after, -, h⟩ := bind_eq_ok.1 h
          split_ifs at h
          · cases h
          · cases h; exact py_eq_ok.1 ht

theorem ok_sourceEntryIssue {current source : Snapshot F} (hc : IsV2 current) (hs : IsV2 source)
    (entry : Entry F) (o : Observation F) : Ok (sourceEntryIssue current source entry o) := by
  unfold sourceEntryIssue
  cases h : entryAt source entry with
  | none => exact ok_ok _
  | some e =>
    obtain ⟨v, hv⟩ := Option.isSome_iff_exists.1 (hs.entries e (List.mem_of_find?_eq_some h))
    obtain ⟨w, hw⟩ := Option.isSome_iff_exists.1 hc.snapshot
    simp only [hv, hw]
    exact ok_ok _

/-! ## Results that return or are too deep -/

/-- A value, or a `RecursionError`. -/
def Settled {α : Type} (x : Result α) : Prop := Ok x ∨ x = .error .stackOverflow

theorem Settled.bind {α β : Type} {x : Result α} {f : α → Result β} (hx : Settled x)
    (hf : ∀ a, x = .ok a → Settled (f a)) : Settled (x >>= f) := by
  rcases hx with ⟨a, rfl⟩ | rfl
  · exact hf a rfl
  · exact .inr rfl

theorem Settled.mapM {α β : Type} {f : α → Result β} {xs : List α} (h : ∀ x ∈ xs, Settled (f x)) :
    Settled (xs.mapM f) := by
  induction xs with
  | nil => exact .inl (ok_pure _)
  | cons x xs ih =>
    rw [List.mapM_cons]
    refine (h x List.mem_cons_self).bind fun _ _ => ?_
    exact (ih fun y hy => h y (List.mem_cons_of_mem _ hy)).bind fun _ _ => .inl (ok_pure _)

/-- One item that is too deep, behind items that settle. -/
theorem mapM_overflow {α β : Type} {f : α → Result β} {before after : List α} {x : α}
    (hb : ∀ y ∈ before, Settled (f y)) (hx : f x = .error .stackOverflow) :
    (before ++ x :: after).mapM f = .error .stackOverflow := by
  induction before with
  | nil => rw [List.nil_append, List.mapM_cons, hx]; rfl
  | cons y ys ih =>
    rw [List.cons_append, List.mapM_cons, ih fun z hz => hb z (List.mem_cons_of_mem _ hz)]
    rcases hb y List.mem_cons_self with ⟨a, ha⟩ | ha <;> rw [ha] <;> rfl

section
variable {c : Corpus F} {current : Snapshot F} {e : Entry F × Observation F}
  (verify : Value F → Result VerificationStatus)

theorem referenceIssue_error {x : Exc} (h : entryReference c current e = .error x) :
    referenceIssue c verify current e.1 e.2 = .error x := by
  rw [referenceIssue, ← entryReference, h]; rfl

theorem referenceIssue_refused {i : Issue} (h : entryReference c current e = .ok (.refused i)) :
    referenceIssue c verify current e.1 e.2 = .ok (some i) := by
  rw [referenceIssue, ← entryReference, h]; rfl

theorem referenceIssue_source {s : Snapshot F} (h : entryReference c current e = .ok (.source s)) :
    referenceIssue c verify current e.1 e.2 = (do
      let status ← verify (s.field .snapshotId)
      if status ≠ .valid then
        pure (some (issue "PAYLOAD_REUSE_SOURCE_INVALID" "reuse source is not VALID"))
      else py (sourceEntryIssue current s e.1 e.2)) := by
  rw [referenceIssue, ← entryReference, h]; rfl

end

theorem settled_referenceIssue {c : Corpus F} {verify : Value F → Result VerificationStatus}
    {current : Snapshot F} (hc : IsV2 current) {e : Entry F × Observation F}
    (he : Ok (entryReference c current e))
    (hv : ∀ t, NamesIn c current e t → Settled (verify t)) :
    Settled (referenceIssue c verify current e.1 e.2) := by
  obtain ⟨r, hr⟩ := he
  cases r with
  | refused i => exact .inl ⟨_, referenceIssue_refused verify hr⟩
  | source s =>
    obtain ⟨d, path, -, hm⟩ := sourceReference_source hr
    rw [referenceIssue_source verify hr]
    refine (hv _ ⟨s, hr, rfl⟩).bind fun status _ => ?_
    split_ifs
    · exact .inl (ok_pure _)
    · exact .inl (ok_py_iff.2 (ok_sourceEntryIssue hc (isV2_of_mapped hm) _ _))

theorem verifyStatus_succ (c : Corpus F) (ix : Index F) (n : Nat) (id : Value F) :
    verifyStatus c ix (n + 1) id = Verification.status <$> (do
      let subject ← reuseSubject c ix id
      let reuse ← subjectIssues c (verifyStatus c ix n) subject
      afterReuse c ix id reuse) := by rw [verifyStatus, verifyWith_eq]

theorem Returns.settled {c : Corpus F} {ix : Index F} {id : Value F} (h : Returns c ix id) (n : Nat) :
    Settled (verifyStatus c ix n id) := by
  have hmap {x : Result (Verification F)} (hx : Settled x) : Settled (Verification.status <$> x) := by
    rcases hx with ⟨a, rfl⟩ | rfl
    · exact .inl ⟨a.status, rfl⟩
    · exact .inr rfl
  induction h generalizing n with
  | plain hs ha =>
    cases n with
    | zero => exact .inr rfl
    | succ n =>
      rw [verifyStatus_succ, hs, ok_bind_ok]
      exact hmap (.inl ha)
  | @reuses id current hs ha he _ ih =>
    cases n with
    | zero => exact .inr rfl
    | succ n =>
      rw [verifyStatus_succ, hs, ok_bind_ok]
      refine hmap (Settled.bind ?_ fun reuse _ => .inl ((ok_afterReuse reuse).2 ha))
      refine (Settled.mapM fun e hm => ?_).bind fun _ _ => .inl (ok_pure _)
      exact settled_referenceIssue (isV2_of_reuseSubject hs) (he e hm) fun t ht => ih e hm t ht n

theorem ok_referenceIssue {c : Corpus F} {verify : Value F → Result VerificationStatus}
    {current : Snapshot F} {e : Entry F × Observation F}
    (h : Ok (referenceIssue c verify current e.1 e.2)) :
    Ok (entryReference c current e) ∧ ∀ t, NamesIn c current e t → Ok (verify t) := by
  obtain ⟨r, hr, h⟩ := ok_bind.1 h
  refine ⟨⟨r, hr⟩, ?_⟩
  rintro _ ⟨s, hs, rfl⟩
  cases hr.symm.trans hs
  obtain ⟨status, hv, -⟩ := ok_bind.1 h
  exact ⟨status, hv⟩

/-- A verification that returned is one that `Returns`. -/
theorem returns_of_ok {c : Corpus F} {ix : Index F} {n : Nat} {id : Value F}
    (h : Ok (verifyStatus c ix n id)) : Returns c ix id := by
  induction n generalizing id with
  | zero => exact absurd h (not_ok_error _)
  | succ n ih =>
    rw [verifyStatus_succ, ok_map] at h
    obtain ⟨subject, hs, h⟩ := ok_bind.1 h
    obtain ⟨reuse, hr, ha⟩ := ok_bind.1 h
    cases subject with
    | none => exact .plain hs ((ok_afterReuse reuse).1 ha)
    | some current =>
      obtain ⟨issues, hi, -⟩ := bind_eq_ok.1 hr
      have hok e (he : e ∈ reusedEntries current) := ok_referenceIssue (ok_mapM.1 ⟨issues, hi⟩ e he)
      exact .reuses hs ((ok_afterReuse reuse).1 ha) (fun e he => (hok e he).1)
        fun e he t ht => ih ((hok e he).2 t ht)

/-! ## A deeper run agrees with a bounded one -/

/-- `y` is `x`, unless `x` is too deep. -/
def Extends {α : Type} (x y : Result α) : Prop := Bounded x → y = x

theorem Extends.refl {α : Type} (x : Result α) : Extends x x := fun _ => rfl

theorem Extends.bind {α β : Type} {x y : Result α} {f g : α → Result β} (hx : Extends x y)
    (hf : ∀ a, Extends (f a) (g a)) : Extends (x >>= f) (y >>= g) := by
  intro h
  rcases x with e | a
  · rw [hx fun he => h (by cases he; rfl)]; rfl
  · rw [hx (bounded_ok a)]; exact hf a h

theorem Extends.mapM {α β : Type} {f g : α → Result β} (h : ∀ x, Extends (f x) (g x)) (xs : List α) :
    Extends (xs.mapM f) (xs.mapM g) := by
  induction xs with
  | nil => exact .refl _
  | cons x xs ih =>
    rw [List.mapM_cons, List.mapM_cons]
    exact (h x).bind fun _ => ih.bind fun _ => .refl _

theorem extends_referenceIssue {c : Corpus F} {f g : Value F → Result VerificationStatus}
    (h : ∀ t, Extends (f t) (g t)) (current : Snapshot F) (e : Entry F × Observation F) :
    Extends (referenceIssue c f current e.1 e.2) (referenceIssue c g current e.1 e.2) := by
  refine (Extends.refl _).bind fun r => ?_
  cases r with
  | refused i => exact .refl _
  | source s => exact (h _).bind fun _ => .refl _

theorem extends_verifyStatus_succ (c : Corpus F) (ix : Index F) (n : Nat) (id : Value F) :
    Extends (verifyStatus c ix n id) (verifyStatus c ix (n + 1) id) := by
  induction n generalizing id with
  | zero => exact fun h => absurd rfl h
  | succ n ih =>
    rw [verifyStatus_succ, verifyStatus_succ]
    refine Extends.bind ((Extends.refl _).bind fun subject => ?_) fun _ => .refl _
    refine Extends.bind ?_ fun _ => .refl _
    cases subject with
    | none => exact .refl _
    | some current =>
      exact (Extends.mapM (extends_referenceIssue ih current) _).bind fun _ => .refl _

theorem extends_verifyStatus (c : Corpus F) (ix : Index F) {m n : Nat} (h : m ≤ n) (id : Value F) :
    Extends (verifyStatus c ix m id) (verifyStatus c ix n id) := by
  induction h with
  | refl => exact .refl _
  | step _ ih =>
    intro hb
    have := ih hb
    rw [extends_verifyStatus_succ c ix _ id (this ▸ hb), this]

/-! ## Calls that bottom out -/

section
variable {c : Corpus F} {ix : Index F} {id : Value F} {current : Snapshot F}

/-- The references bottom out when the sources of those that are reached do. -/
theorem bounded_references (hs : reuseSubject c ix id = .ok (some current))
    (h : ∀ t, Refers c ix id t → ∃ n, Bounded (verifyStatus c ix n t))
    (before rest : List (Entry F × Observation F)) (heq : reusedEntries current = before ++ rest)
    (hb : ∀ p ∈ before, Passes c ix current p) : ∃ n, Bounded
      (rest.mapM fun e => referenceIssue c (verifyStatus c ix n) current e.1 e.2) := by
  induction rest generalizing before with
  | nil => exact ⟨0, bounded_pure _⟩
  | cons e rest ih =>
    have next (hp : Passes c ix current e) := ih (before ++ [e]) (by simp [heq]) (by
      intro p hm
      rcases List.mem_append.1 hm with hm | hm
      · exact hb p hm
      · rw [List.mem_singleton.1 hm]; exact hp)
    simp only [List.mapM_cons]
    cases hr : entryReference c current e with
    | error x =>
      refine ⟨0, ?_⟩
      rw [referenceIssue_error _ hr]
      exact fun he => bounded_sourceReference c current _ (hr.trans (by cases he; rfl))
    | ok r =>
      cases r with
      | refused i =>
        obtain ⟨n, hn⟩ := next ⟨⟨_, hr⟩, fun t ⟨s, hsrc, _⟩ => by cases hr.symm.trans hsrc⟩
        refine ⟨n, ?_⟩
        rw [referenceIssue_refused _ hr]
        exact (bounded_pure _).bind fun _ _ => hn.bind fun _ _ => bounded_pure _
      | source s =>
        obtain ⟨n, hn⟩ := h _ ⟨current, before, e, rest, hs, heq, ⟨s, hr, rfl⟩, hb⟩
        rcases hn.cases with ⟨v, hv⟩ | ⟨x, hx, hne⟩
        · obtain ⟨m, hm⟩ := next ⟨⟨_, hr⟩, fun t ⟨s', hsrc, ht⟩ => by
            cases hr.symm.trans hsrc
            exact ht ▸ returns_of_ok ⟨v, hv⟩⟩
          refine ⟨max n m, Bounded.bind ?_ fun _ _ => Bounded.bind ?_ fun _ _ => bounded_pure _⟩
          · rw [referenceIssue_source _ hr, extends_verifyStatus c ix (le_max_left n m) _ hn, hv]
            exact .ite (bounded_pure _) (bounded_py _)
          · have hext := Extends.mapM (extends_referenceIssue (c := c)
              (fun t => extends_verifyStatus c ix (le_max_right n m) t) current) rest
            rw [hext hm]
            exact hm
        · refine ⟨n, ?_⟩
          rw [referenceIssue_source _ hr, hx]
          exact fun he => hne (by cases he; rfl)

theorem settles_of_references (h : ∀ t, Refers c ix id t → ∃ n, verifyStatus c ix n t ≠ .error .stackOverflow) :
    ∃ n, verifyStatus c ix n id ≠ .error .stackOverflow := by
  rcases (bounded_reuseSubject c ix id).cases with ⟨subject, hs⟩ | ⟨e, he, hne⟩
  · cases subject with
    | none =>
      refine ⟨1, ?_⟩
      rw [verifyStatus_succ, hs, ok_bind_ok]
      exact (bounded_afterReuse _ _ _ _).map _
    | some current =>
      obtain ⟨n, hn⟩ := bounded_references hs h [] _ rfl (by simp)
      refine ⟨n + 1, ?_⟩
      rw [verifyStatus_succ, hs, ok_bind_ok]
      refine Bounded.map (Bounded.bind (hn.bind fun _ _ => bounded_pure _) fun _ _ => ?_) _
      exact bounded_afterReuse _ _ _ _
  · refine ⟨1, ?_⟩
    rw [verifyStatus_succ, he]
    exact fun h => hne (by cases h; rfl)

theorem overflow_of_refers {t : Value F} (h : Refers c ix id t) {n : Nat}
    (hn : verifyStatus c ix n t = .error .stackOverflow) :
    verifyStatus c ix (n + 1) id = .error .stackOverflow := by
  obtain ⟨current, before, e, after, hs, heq, ⟨s, hr, rfl⟩, hb⟩ := h
  have hover : (reusedEntries current).mapM (fun e =>
      referenceIssue c (verifyStatus c ix n) current e.1 e.2) = .error .stackOverflow := by
    rw [heq]
    refine mapM_overflow (fun p hp => ?_) ?_
    · exact settled_referenceIssue (isV2_of_reuseSubject hs) (hb p hp).1
        fun t ht => ((hb p hp).2 t ht).settled n
    · rw [referenceIssue_source _ hr, hn]; rfl
  rw [verifyStatus_succ, hs, ok_bind_ok, subjectIssues, validateSnapshotReuseReferences, hover]
  rfl

end

end Steward
