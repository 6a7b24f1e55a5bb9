import Steward.Snapshot.ValidateV2

/-!
# Accepted version 1 Evidence

What `_validate_snapshot_evidence_v1` has established about a document it
accepts: the pass over the entries, and the checks around it.
-/

namespace Steward

open Py Sqlite

variable {F : Type} [SqliteFloat F]

/-! ## The pass over the entries -/

/-- No flag was lowered. -/
def EntryScan.valid (st : EntryScan) : Bool :=
  st.schemaValid && st.orderValid && st.keysUnique && st.idsValid && st.scopesValid && st.pathsValid

structure EntryAcceptedV1 (snapshotId : Option Text) (scopes item : Value F) : Prop where
  shaped : shapedV1 item = true
  flags : ∀ f, (keyOf item (EntryKey.flag f)).isBool = true
  scope : scopeMember snapshotId scopes item = .ok true
  identity : ∃ expected, entryId (F := F) (optText (F := F) snapshotId).pyStr
      (keyOf item (EntryKey.field .scopeId)).pyStr (keyOf item (EntryKey.field .relativePath)).pyStr =
        .ok expected ∧ keyOf item (EntryKey.field .entryId) = .str expected
  path : safePath (keyOf item (EntryKey.field .relativePath)) = true

/-- The scoped location of an item. -/
def locationOf (item : Value F) : Text × Text :=
  ((keyOf item (EntryKey.field .scopeId)).pyStr, (keyOf item (EntryKey.field .relativePath)).pyStr)

def identityOf (item : Value F) : Text := (keyOf item (EntryKey.field .entryId)).pyStr

/-- The key the entries are sorted by. -/
def orderKey (item : Value F) : Text × List Byte := ((locationOf item).1, Text.utf8 (locationOf item).2)

theorem sortKeyLe_trans {a b c : Text × List Byte} (h1 : sortKeyLe a b) (h2 : sortKeyLe b c) :
    sortKeyLe a c := by
  rcases h1 with h1 | ⟨h1, h1'⟩ <;> rcases h2 with h2 | ⟨h2, h2'⟩
  · exact .inl (lt_trans h1 h2)
  · exact .inl (h2 ▸ h1)
  · exact .inl (h1 ▸ h2)
  · exact .inr ⟨h1.trans h2, le_trans h1' h2'⟩

/-- What the state before an item demands of it. -/
structure Admits (st : EntryScan) (item : Value F) : Prop where
  location : locationOf item ∉ st.seenKeys
  identity : identityOf item ∉ st.seenIds
  order : ∀ p, st.previous = some p → sortKeyLe p (orderKey item)

theorem EntryFlag.mem_all (f : EntryFlag) : f ∈ EntryFlag.all := by cases f <;> decide

/-- One step keeps the flags up only on an acceptable item the state admits. -/
theorem scanEntry_valid {sid : Option Text} {scopes item : Value F} {st st' : EntryScan}
    (h : scanEntry sid scopes st item = .ok st') (hv : st'.valid = true) :
    st.valid = true ∧ EntryAcceptedV1 sid scopes item ∧ Admits st item ∧
      st'.seenKeys = locationOf item :: st.seenKeys ∧ st'.seenIds = identityOf item :: st.seenIds ∧
      st'.previous = some (orderKey item) := by
  unfold scanEntry at h
  split_ifs at h with hs
  · cases h
    simp [EntryScan.valid] at hv
  · obtain ⟨scopeOk, hscope, h⟩ := bind_eq_ok.1 h
    obtain ⟨expected, hid, h⟩ := bind_eq_ok.1 h
    obtain ⟨bytes, hbytes, h⟩ := bind_eq_ok.1 h
    cases h
    have hb : bytes = Text.utf8 (keyOf item (EntryKey.field .relativePath)).pyStr := by
      rw [sortBytes, Text.utf8Escape_of_encodable (ok_entryId.1 ⟨expected, hid⟩).2.2] at hbytes
      cases hbytes
      rfl
    subst hb
    simp only [EntryScan.valid, Bool.and_eq_true, decide_eq_true_eq, List.all_eq_true, Value.eq_str,
      Option.all_eq_true] at hv
    obtain ⟨⟨⟨⟨⟨⟨h1, h1'⟩, h2, h2'⟩, h3, h3'⟩, ⟨h4, h4'⟩, h4''⟩, h5, h5'⟩, h6, h6'⟩ := hv
    refine ⟨by simp [EntryScan.valid, h1, h2, h3, h4, h5, h6], ?_, ⟨h3', h4'', h2'⟩, rfl, rfl, rfl⟩
    exact ⟨by simpa using hs, fun f => h1' f f.mem_all, by rw [hscope, h5'], ⟨expected, hid, h4'⟩, h6'⟩

/-- The accepted items are pairwise different, and in order. -/
structure Precedes (a b : Value F) : Prop where
  location : locationOf a ≠ locationOf b
  identity : identityOf a ≠ identityOf b
  order : sortKeyLe (orderKey a) (orderKey b)

theorem scan_valid {sid : Option Text} {scopes : Value F} {items : List (Value F)} {st st' : EntryScan}
    (h : items.foldlM (scanEntry sid scopes) st = .ok st') (hv : st'.valid = true) :
    st.valid = true ∧ (∀ item ∈ items, EntryAcceptedV1 sid scopes item) ∧
      (∀ item ∈ items, Admits st item) ∧ items.Pairwise Precedes := by
  induction items generalizing st with
  | nil =>
    cases h
    simp [hv]
  | cons item items ih =>
    rw [List.foldlM_cons] at h
    obtain ⟨mid, hmid, h⟩ := bind_eq_ok.1 h
    obtain ⟨hmv, hacc, hadm, hp⟩ := ih h
    obtain ⟨hst, ha, had, hk, hi, ho⟩ := scanEntry_valid hmid hmv
    have later (x : Value F) (hx : x ∈ items) : Admits st x ∧ Precedes item x := by
      have hx := hadm x hx
      have hloc := hx.location
      have hid := hx.identity
      rw [hk, List.mem_cons, not_or] at hloc
      rw [hi, List.mem_cons, not_or] at hid
      have hord := hx.order _ ho
      exact ⟨⟨hloc.2, hid.2, fun p hp => sortKeyLe_trans (had.order p hp) hord⟩,
        ⟨Ne.symm hloc.1, Ne.symm hid.1, hord⟩⟩
    refine ⟨hst, ?_, ?_, List.pairwise_cons.2 ⟨fun x hx => (later x hx).2, hp⟩⟩
    · intro x hx
      rcases List.mem_cons.1 hx with rfl | hx
      exacts [ha, hacc x hx]
    · intro x hx
      rcases List.mem_cons.1 hx with rfl | hx
      exacts [had, (later x hx).1]

/-! ## The whole document -/

structure AcceptedV1 (env : List (Text × Value F)) : Prop where
  envelope : hasKeys (memberNames EnvelopeKey) env = true
  evidenceType : fieldOf env EnvelopeKey.evidenceType = lit "filesystem.snapshot"
  evidenceSafe : (Value.dict (without [txt "evidence_digest"] env)).safe = true
  evidenceDigest : fieldOf env EnvelopeKey.evidenceDigest =
    .str (sha (.dict (without [txt "evidence_digest"] env)))
  payload : payloadShaped env = true
  shaped : snapshotShapedV1 env = true
  runId : (fieldOf (members (snapshotOf env)) (SnapshotKey.field .runId)).eq
    (fieldOf env EnvelopeKey.runId) = true
  scan : ∃ st, (elements (entriesOf env)).foldlM (scanEntry (snapshotIdOf env) (scopesOf env))
    (.start true) = .ok st ∧ st.valid = true
  summary : ∃ s, snapshotStatistics (elements (entriesOf env)) = .ok s ∧
    ∀ f ∈ s.items, (fieldOf (members (snapshotOf env)) (SnapshotKey.field f.1)).eq f.2 = true
  entriesSafe : (Value.list (elements (entriesOf env))).safe = true
  entriesDigest : fieldOf (members (snapshotOf env)) (SnapshotKey.field .entriesDigest) =
    .str (sha (.list (elements (entriesOf env))))
  metadataSafe : (Value.dict (without undigested (members (snapshotOf env)))).safe = true
  snapshotDigest : fieldOf (members (snapshotOf env)) (SnapshotKey.field .snapshotDigest) =
    .str (sha (.dict (without undigested (members (snapshotOf env)))))

theorem evidenceDigestValid_eq_true {env : List (Text × Value F)} :
    evidenceDigestValid env = .ok true ↔
      (Value.dict (without [txt "evidence_digest"] env)).safe = true ∧
      fieldOf env EnvelopeKey.evidenceDigest = .str (sha (.dict (without [txt "evidence_digest"] env))) := by
  unfold evidenceDigestValid
  cases fieldOf env EnvelopeKey.evidenceDigest with
  | str s =>
    simp only [bind_eq_ok, digest, digestOf_eq_ok, Value.str.injEq]
    constructor
    · rintro ⟨d, ⟨hs, rfl⟩, h⟩
      exact ⟨hs, by simpa using h⟩
    · rintro ⟨hs, rfl⟩
      exact ⟨_, ⟨hs, rfl⟩, by simp⟩
  | _ => exact iff_of_false (by rintro ⟨⟩) (by rintro ⟨-, ⟨⟩⟩)

theorem digestMatches_eq_true {v w : Value F} :
    digestMatches true v (digestOf w) = .ok true ↔ w.safe = true ∧ v = .str (sha w) := by
  simp only [digestMatches, if_true, bind_eq_ok, digestOf_eq_ok]
  constructor
  · rintro ⟨d, ⟨hs, rfl⟩, h⟩
    exact ⟨hs, by simpa using h⟩
  · rintro ⟨hs, rfl⟩
    exact ⟨_, ⟨hs, rfl⟩, by simp⟩

theorem summaryMatches_eq_true {data : List (Text × Value F)} {es : List (Value F)} :
    summaryMatches true data es = .ok true ↔ ∃ s, snapshotStatistics es = .ok s ∧
      ∀ f ∈ s.items, (fieldOf data (SnapshotKey.field f.1)).eq f.2 = true := by
  simp only [summaryMatches, if_true, bind_eq_ok, py_eq_ok]
  exact exists_congr fun s => and_congr_right' (pure_eq_ok.trans List.all_eq_true)

omit [SqliteFloat F] in
theorem isList_of_shapedV1 {env : List (Text × Value F)} (h : snapshotShapedV1 env = true) :
    (entriesOf env).isList = true := (Bool.and_eq_true_iff.1 h).2

/-- The v1 validator accepts exactly these documents. -/
theorem validateV1_accepts {env : List (Text × Value F)} :
    (∃ r, validateSnapshotEvidenceV1 env = .ok r ∧ r.valid = true) ↔ AcceptedV1 env := by
  constructor
  · rintro ⟨r, h, hv⟩
    unfold validateSnapshotEvidenceV1 at h
    obtain ⟨digestValid, hdigest, h⟩ := bind_eq_ok.1 h
    obtain ⟨scan, hscan, h⟩ := bind_eq_ok.1 h
    obtain ⟨summaryValid, hsummary, h⟩ := bind_eq_ok.1 h
    obtain ⟨entriesValid, hentries, h⟩ := bind_eq_ok.1 h
    obtain ⟨snapshotValid, hsnapshot, h⟩ := bind_eq_ok.1 h
    cases h
    simp only [Validation.close, List.isEmpty_iff, problems_eq_nil] at hv
    simp only [v1Checks, List.forall_mem_cons, List.not_mem_nil, false_imp_iff, implies_true, and_true,
      Bool.and_eq_true] at hv
    obtain ⟨h1, h2, rfl, h4, h5, ⟨-, h6⟩, h7, h8, h9, h10, h11, h12, rfl, rfl, rfl⟩ := hv
    rw [h5] at hsummary hentries hsnapshot
    rw [isList_of_shapedV1 h5] at hscan
    exact {
      envelope := h1
      evidenceType := Value.eq_str.1 h2
      evidenceSafe := (evidenceDigestValid_eq_true.1 hdigest).1
      evidenceDigest := (evidenceDigestValid_eq_true.1 hdigest).2
      payload := h4
      shaped := h5
      runId := h6
      scan := ⟨scan, py_eq_ok.1 hscan, by simp [EntryScan.valid, h7, h8, h9, h10, h11, h12]⟩
      summary := summaryMatches_eq_true.1 hsummary
      entriesSafe := (digestMatches_eq_true.1 hentries).1
      entriesDigest := (digestMatches_eq_true.1 hentries).2
      metadataSafe := (digestMatches_eq_true.1 hsnapshot).1
      snapshotDigest := (digestMatches_eq_true.1 hsnapshot).2 }
  · intro a
    obtain ⟨st, hst, hsv⟩ := a.scan
    simp only [EntryScan.valid, Bool.and_eq_true] at hsv
    obtain ⟨⟨⟨⟨⟨h7, h8⟩, h9⟩, h10⟩, h11⟩, h12⟩ := hsv
    refine ⟨_, bind_eq_ok.2 ⟨_, evidenceDigestValid_eq_true.2 ⟨a.evidenceSafe, a.evidenceDigest⟩,
      bind_eq_ok.2 ⟨st, by rw [isList_of_shapedV1 a.shaped, hst]; rfl,
      bind_eq_ok.2 ⟨true, by rw [a.shaped]; exact summaryMatches_eq_true.2 a.summary,
      bind_eq_ok.2 ⟨true, by rw [a.shaped]; exact digestMatches_eq_true.2 ⟨a.entriesSafe, a.entriesDigest⟩,
      bind_eq_ok.2 ⟨true, by rw [a.shaped]; exact digestMatches_eq_true.2 ⟨a.metadataSafe, a.snapshotDigest⟩,
      rfl⟩⟩⟩⟩⟩, ?_⟩
    simp only [Validation.close, List.isEmpty_iff, problems_eq_nil]
    simp only [v1Checks, List.forall_mem_cons, List.not_mem_nil, false_imp_iff, implies_true, and_true,
      Bool.and_eq_true]
    exact ⟨a.envelope, Value.eq_str.2 a.evidenceType, trivial, a.payload, a.shaped,
      ⟨a.shaped, a.runId⟩, h7, h8, h9, h10, h11, h12⟩

end Steward
