import Steward.Snapshot.Serialize
import Steward.Snapshot.Verify
import Steward.Sqlite.Integral

/-!
# Totality of validation and verification

`ValidationTotal` are the documents `validate_snapshot_evidence` returns on;
`Reportable` says what `_verify_snapshot` needs, beyond that, to report a
rejected document as `INVALID`.
-/

namespace Steward

open Py Sqlite

variable {F : Type} [SqliteFloat F]

/-! ## Validation -/

/-- Only versions 1 and 2 have a validator. -/
structure ValidationTotal (evidence : Value F) : Prop where
  v1 : snapshotEvidenceSchemaVersion evidence = some 1 → V1Total (members evidence)
  v2 : snapshotEvidenceSchemaVersion evidence = some 2 → V2Total (members evidence)

theorem validationTotal_iff {evidence : Value F} : ValidationTotal evidence ↔
    (snapshotEvidenceSchemaVersion evidence = some 1 → V1Total (members evidence)) ∧
      (snapshotEvidenceSchemaVersion evidence = some 2 → V2Total (members evidence)) :=
  ⟨fun h => ⟨h.v1, h.v2⟩, fun h => ⟨h.1, h.2⟩⟩

theorem ok_validateSnapshotEvidence {evidence : Value F} :
    Ok (validateSnapshotEvidence evidence) ↔ ValidationTotal evidence := by
  unfold validateSnapshotEvidence
  rw [validationTotal_iff]
  cases snapshotEvidenceSchemaVersion evidence with
  | none => simp
  | some n =>
    by_cases h1 : n = 1
    · simp [h1, ok_validateV1]
    · by_cases h2 : n = 2
      · simp [h2, ok_validateV2]
      · simp [h1, h2]

/-! ## Entries of the index are well-formed -/

omit [SqliteFloat F] in
theorem observation_field {v : Value F} {o : Observation F} (h : observationFromDocument v = .ok o) :
    o.field = fun f => keyOf v (PayloadKey.field f) := by
  simp only [observationFromDocument, bind_eq_ok] at h
  obtain ⟨_, -, _, -, _, -, h⟩ := h
  cases h
  rfl

theorem wf_loadsCell {c : Cell F} {v : Value F} (h : loadsCell c = .ok v) : v.wf = true := by
  obtain ⟨s, -, hs⟩ := loadsCell_eq_ok.1 h
  exact Json.wf_loads hs

theorem wf_entryFromRow {row : Row EntryKey F} {e : Entry F} (h : entryFromRow row = .ok e) : e.Wf := by
  simp only [entryFromRow, bind_eq_ok] at h
  obtain ⟨_, -, _, -, h⟩ := h
  split_ifs at h with hn
  · cases h
    exact ⟨fun f => wf_toValue _, fun v hv => by cases hv⟩
  · obtain ⟨p, hp, h⟩ := bind_eq_ok.1 h
    obtain ⟨o, ho, h⟩ := bind_eq_ok.1 h
    cases h
    refine ⟨fun f => wf_toValue _, fun v hv => ?_⟩
    cases hv
    refine ⟨wf_toValue _, ⟨fun f => ?_⟩⟩
    rw [observation_field ho]
    exact wf_keyOf (wf_loadsCell hp) _

theorem getSnapshot_eq_ok {ix : Index F} {id : Value F} {s : Snapshot F} :
    getSnapshot ix id = .ok s ↔ ∃ row rest rows entries,
      snapshotSchema.select ix.snapshots (.field .snapshotId) id = .ok (row :: rest) ∧
        selectEntries ix id = .ok rows ∧ rows.mapM (fun r => py (entryFromRow r)) = .ok entries ∧
        snapshotFromRow row entries = .ok s := by
  rw [getSnapshot, bind_eq_ok]
  constructor
  · rintro ⟨rows, hrows, h⟩
    cases rows with
    | nil => cases h
    | cons row rest =>
      obtain ⟨es, hes, h⟩ := bind_eq_ok.1 h
      obtain ⟨entries, hentries, h⟩ := bind_eq_ok.1 h
      exact ⟨row, rest, es, entries, sql_eq_ok.1 hrows, hes, hentries, h⟩
  · rintro ⟨row, rest, es, entries, hrow, hes, hentries, h⟩
    exact ⟨row :: rest, sql_eq_ok.2 hrow, bind_eq_ok.2 ⟨es, hes, bind_eq_ok.2 ⟨entries, hentries, h⟩⟩⟩

theorem entries_of_snapshotFromRow {row : Row SnapshotColumn F} {entries : List (Entry F)}
    {s : Snapshot F} (h : snapshotFromRow row entries = .ok s) : s.entries = entries := by
  simp only [snapshotFromRow, bind_eq_ok] at h
  obtain ⟨_, -, _, -, _, -, _, -, _, -, _, -, _, -, h⟩ := h
  cases h
  rfl

theorem wf_entries {ix : Index F} {id : Value F} {s : Snapshot F} (h : getSnapshot ix id = .ok s) :
    ∀ e ∈ s.entries, e.Wf := by
  obtain ⟨row, _, rows, entries, -, -, hm, hs⟩ := getSnapshot_eq_ok.1 h
  rw [entries_of_snapshotFromRow hs]
  intro e he
  obtain ⟨r, -, hr⟩ := exists_of_mem_mapM hm he
  exact wf_entryFromRow (py_eq_ok.1 hr)

/-! ## Verification -/

/-- `len(v)` and `for x in v` are defined. -/
def sized : Value F → Bool | .str _ | .list _ | .dict _ => true | _ => false

/-- What reporting on a document needs: it is an object; its `snapshot` is one too once the file
carries the identities of the row; its `entries` have a length; and the entries of the row can be
written as strict JSON. -/
structure Reportable (s : Snapshot F) (evidence : Value F) : Prop where
  object : evidence.isDict = true
  fact : (evidence.getIf (txt "evidence_id")).eq (s.field .evidenceId) = true →
    (evidence.getIf (txt "run_id")).eq (s.field .runId) = true → (factOf evidence).isDict = true
  entries : sized (evidenceEntries evidence) = true
  index : ∀ e ∈ s.entries, e.toDict.safe = true

omit [SqliteFloat F] in
theorem ok_len {v : Value F} : Ok v.len ↔ sized v = true := by cases v <;> simp [Value.len, sized]

omit [SqliteFloat F] in
theorem ok_iter {v : Value F} : Ok v.iter ↔ sized v = true := by cases v <;> simp [Value.iter, sized]

theorem ok_entryDict {e : Entry F} (h : e.Wf) : Ok (entryDict e) ↔ e.toDict.safe = true := by
  simp [Ok, entryDict, jsonCopy_eq_ok (Entry.wf_toDict h)]

/-- A test `d.get(k) == x`. -/
theorem checks_getEq (v x : Value F) (k : Text) :
    Checks (do pure ((← v.callGet k).eq x)) v.isDict ((v.getIf k).eq x) := fun b => by
  cases v <;> simp [Value.callGet, Value.isDict, Value.getIf, eq_comm]

theorem ok_identityOk {s : Snapshot F} {id evidence : Value F} :
    Ok (identityOk s id evidence) ↔ evidence.isDict = true ∧
      ((evidence.getIf (txt "evidence_id")).eq (s.field .evidenceId) = true →
        (evidence.getIf (txt "run_id")).eq (s.field .runId) = true →
          (factOf evidence).isDict = true) := by
  have h := (checks_getEq evidence (s.field .evidenceId) (txt "evidence_id")).andThen fun _ =>
    (checks_getEq evidence (s.field .runId) (txt "run_id")).andThen fun _ =>
      checks_getEq (factOf evidence) id (txt "snapshot_id")
  rw [identityOk]
  refine h.ok.trans ?_
  cases evidence.isDict <;> cases (evidence.getIf (txt "evidence_id")).eq (s.field .evidenceId) <;>
    cases (evidence.getIf (txt "run_id")).eq (s.field .runId) <;> simp

theorem ok_compareEntries {s : Snapshot F} {entries : Value F} (hwf : ∀ e ∈ s.entries, e.Wf) :
    Ok (compareEntries entries s) ↔
      sized entries = true ∧ ∀ e ∈ s.entries, e.toDict.safe = true := by
  rw [compareEntries, ok_bind_const fun _ => ok_bind_const fun _ => ok_bind_of_total fun _ => ok_pure _,
    ok_py_iff, ok_py_iff, ok_len, ok_iter, and_self, and_comm, ok_mapM]
  exact and_congr_right' (forall₂_congr fun e he => ok_entryDict (hwf e he))

theorem ok_conclude {c : Corpus F} {ix : Index F} {id evidence : Value F} {s : Snapshot F}
    {intrinsic : Validation} {reuse : List Issue} (hwf : ∀ e ∈ s.entries, e.Wf) :
    Ok (conclude c ix id s evidence intrinsic reuse) ↔ Reportable s evidence := by
  rw [conclude, ok_bind_const fun _ => ok_bind_of_total fun _ => ok_pure _, ok_py_iff, ok_identityOk,
    ok_compareEntries hwf]
  exact ⟨fun ⟨⟨h1, h2⟩, h3, h4⟩ => ⟨h1, h2, h3, h4⟩, fun h => ⟨⟨h.object, h.fact⟩, h.entries, h.index⟩⟩

theorem verifySnapshot_json {c : Corpus F} {ix : Index F} {depth : Nat} {id : Value F}
    {s : Snapshot F} {d : Document F} (hs : getSnapshot ix id = .ok s)
    (hd : c.resolve (s.field .evidenceRelativePath).pyStr = some (.json d)) :
    verifySnapshot c ix depth id = verifyDocument c ix (verifyStatus c ix depth) id s d.value := by
  rw [verifySnapshot, verifyWith, hs, ok_bind_ok, hd]

/-- A rejected document is reported `INVALID`, or an access raises. -/
theorem verifyDocument_rejected {c : Corpus F} {ix : Index F}
    {verify : Value F → Result VerificationStatus} {id evidence : Value F} {s : Snapshot F}
    {r : Validation} (hr : validateSnapshotEvidence evidence = .ok r) (hv : r.valid = false)
    (hwf : ∀ e ∈ s.entries, e.Wf) :
    (∃ v, verifyDocument c ix verify id s evidence = .ok v ∧ v.status = .invalid) ↔
      Reportable s evidence := by
  have hreuse : reuseErrors c verify s evidence r.valid = .ok [] := by simp [reuseErrors, hv]
  have hok : Ok (verifyDocument c ix verify id s evidence) ↔ Reportable s evidence := by
    rw [verifyDocument, hr, ok_bind_ok, hreuse, ok_bind_ok, ok_conclude hwf]
  rw [← hok]
  refine ⟨fun ⟨v, h, _⟩ => ⟨v, h⟩, fun ⟨v, h⟩ => ⟨v, h, ?_⟩⟩
  rw [verifyDocument, hr, ok_bind_ok, hreuse, ok_bind_ok, conclude] at h
  obtain ⟨i, -, h⟩ := bind_eq_ok.1 h
  obtain ⟨e, -, h⟩ := bind_eq_ok.1 h
  cases h
  simp [hv, statusOf]

/-- A row of `snapshots` whose Evidence is at `path`. -/
def plainRow (id path : Text) : Row SnapshotColumn Integral
  | .field .snapshotId => .text id
  | .field .evidenceRelativePath => .text path
  | .status => .text (Named.name SnapshotStatus.complete)
  | .consistency => .text (Named.name SnapshotConsistency.bestEffortPointInTime)
  | .scopeIdsJson => .text (txt "[]")
  | .budgetJson => .text (txt "\x7b\x7d")
  | .schemaVersion => .integer 1
  | _ => .null

def plainIndex (id path : Text) : Index Integral := { Index.empty with snapshots := [plainRow id path] }

/-- The Snapshot the row reads as. -/
def plainSnapshot (id path : Text) : Snapshot Integral where
  field f := (plainRow id path (.field f)).toValue
  status := .complete
  consistency := .bestEffortPointInTime
  scopeIds := []
  budget := budgetDefault
  entries := []
  v2 := none

/-- A corpus with one file. -/
def plainCorpus (path : Text) (d : Document Integral) : Corpus Integral :=
  ⟨none, fun t => if t = path then some (.json d) else none⟩

/-- `[]` -/
def listEvidence : Document Integral := ⟨.list [], by decide⟩

/-- `{"schema_version": 1, "evidence_digest": "", "payload": NaN}` -/
def nanEvidence : Document Integral :=
  ⟨.dict [(txt "schema_version", .int 1), (txt "evidence_digest", lit ""), (txt "payload", .float .nan)],
    by decide +kernel⟩

end Steward
