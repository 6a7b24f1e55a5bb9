import Steward.Runs.Record

/-!
# Verification of a Run ledger

`_verify_run`: the checks of one record, the pass over the files of a Run
directory, and the comparison with the index. `LedgerTotal` says when the pass
returns, `History` which ledgers it finds no error in.
-/

namespace Steward

open Py Sqlite

variable {F : Type} [SqliteFloat F]

/-! ## One record -/

/-- The evidence types of a ledger. -/
def ledgerTypes : List Text :=
  [txt "run.created", txt "run.state_transition", txt "filesystem.snapshot", txt "filesystem.snapshot_diff"]

/-- The record is the expected one of the Run, and lies at its path. -/
def placed (runId : Text) (expected : Nat) (name : Text) (item : Value F) : Bool :=
  item.isDict && (keyOf item EnvelopeKey.runId).eq (.str runId) &&
    (keyOf item EnvelopeKey.sequence).eq (.int expected) && name.take 8 = Text.pad8 expected

/-- `name == filename(expected, item["evidence_type"])` -/
def namedAs (expected : Nat) (name : Text) (evidenceType : Value F) : Result Bool := do
  let expectedName ← filename expected (← py (strOf evidenceType))
  pure (decide (name = expectedName))

/-- `created_at.replace("Z", "+00:00")` -/
def zoned (t : Text) : Text := t.flatMap fun c => if c = ch 'Z' then txt "+00:00" else [c]

/-- The time is aware and the identity a UUIDv4; `except (TypeError, ValueError)` is `false`. -/
def identityValid (createdAt evidenceId : Value F) : Except Py.Error Bool :=
  match createdAt with
  | .str t => match Runtime.isoAware F (zoned t) with
    | none => .ok false
    | some aware => match evidenceId with
      | .none => .ok false
      | .str u => .ok (aware && Runtime.uuidVersion F u = some (some 4))
      | _ => .error .attributeError
  | _ => .error .attributeError

/-- The tests of a record that end its checking, each with the message of its failure. -/
def recordChecks (runId : Text) (expected : Nat) (name : Text) (item : Value F) : List (Result Bool × String) :=
  let version := snapshotEvidenceSchemaVersion item
  let evidenceType := keyOf item EnvelopeKey.evidenceType
  [(.ok (placed runId expected name item), "sequence/path mismatch: "),
    (.ok (hasKeys (memberNames EnvelopeKey) (members item) && version.isSome), "invalid evidence schema: "),
    (.ok (version = some 1 || version = some 2), "unsupported evidence schema version: "),
    (.ok (version ≠ some 2 || evidenceType.eq (lit "filesystem.snapshot")), "invalid evidence schema: "),
    (py (evidenceType.memStrs ledgerTypes), "unknown evidence type: "),
    (namedAs expected name evidenceType, "evidence type/path mismatch: "),
    (py (identityValid (keyOf item EnvelopeKey.createdAt) (keyOf item EnvelopeKey.evidenceId)),
      "invalid evidence identity/time: "),
    (.ok ((keyOf item EnvelopeKey.payload).isDict && (keyOf item EnvelopeKey.providerVersions).isDict),
      "invalid evidence payload: ")]

/-- The message of the first failed test. -/
def firstFailure : List (Result Bool × String) → Result (Option String)
  | [] => .ok none
  | c :: cs => do if ← c.1 then firstFailure cs else pure (some c.2)

attribute [local simp] firstFailure

/-- The local variables of the loop over the files. -/
structure LedgerScan (F : Type) where
  errors : List Text
  status : RunStatus
  previous : Value F
  seenIds : List Text
  seenDigests : List Text

def LedgerScan.start : LedgerScan F := ⟨[], .created, .none, [], []⟩

/-- `digest(item)` of an object. -/
def recordDigest (item : Value F) : Result Text := digest (members item)

/-- The record follows `previous` and carries its own digest. -/
def chained (previous item : Value F) : Result Bool :=
  andThen (.ok ((keyOf item EnvelopeKey.previousEvidenceDigest).eq previous))
    (do pure ((keyOf item EnvelopeKey.evidenceDigest).eq (.str (← recordDigest item))))

/-- The identity or the digest was seen before. -/
def repeated (st : LedgerScan F) (item : Value F) : Except Py.Error Bool := do
  if ← (keyOf item EnvelopeKey.evidenceId).memStrs st.seenIds then pure true
  else (keyOf item EnvelopeKey.evidenceDigest).memStrs st.seenDigests

/-- `validate_transition(status, RunStatus(v))` does not raise. -/
def allowsValue (status : RunStatus) (v : Value F) : Bool :=
  match enumOf RunStatus v with
  | .ok target => target ∈ allowedTargets status
  | .error _ => false

/-- `RunStatus(v) if v in RunStatus._value2member_map_ else status` -/
def nextStatus (status : RunStatus) (v : Value F) : Except Py.Error RunStatus := do
  if ← v.memStrs (memberNames RunStatus) then enumOf RunStatus v else pure status

def messageUnless (ok : Bool) (m : Text) : List Text := if ok then [] else [m]

/-- The status part of the loop body: its errors and the status it leaves. -/
def statusStep (expected : Nat) (name : Text) (item : Value F) (status : RunStatus) :
    Except Py.Error (List Text × RunStatus) :=
  let evidenceType := keyOf item EnvelopeKey.evidenceType
  let payload := keyOf item EnvelopeKey.payload
  if expected = 1 then
    .ok (messageUnless (evidenceType.eq (lit "run.created") &&
      (payload.getIf (txt "initial_status")).eq (lit "created")) (txt "invalid run.created record"), status)
  else if evidenceType.eq (lit "run.state_transition") then do
    let target := payload.getIf (txt "to_status")
    let next ← nextStatus status target
    pure (messageUnless ((payload.getIf (txt "from_status")).eq (nameValue status))
        (txt "transition source mismatch: " ++ name) ++
      messageUnless (allowsValue status target) (txt "invalid transition: " ++ name), next)
  else .ok ([], status)

/-- One turn of the loop. -/
def verifyRecord (runId : Text) (st : LedgerScan F) (expected : Nat) (name : Text) (item : Value F) :
    Result (LedgerScan F) := do
  match ← firstFailure (recordChecks runId expected name item) with
  | some m => pure { st with errors := st.errors ++ [txt m ++ name] }
  | none =>
    let chain ← chained st.previous item
    let again ← py (repeated st item)
    let (statusErrors, status) ← py (statusStep expected name item st.status)
    pure {
      errors := st.errors ++ messageUnless chain (txt "digest chain invalid: " ++ name) ++
        messageUnless (!again) (txt "duplicate evidence identity: " ++ name) ++ statusErrors
      status
      previous := keyOf item EnvelopeKey.evidenceDigest
      seenIds := (keyOf item EnvelopeKey.evidenceId).pyStr :: st.seenIds
      seenDigests := (keyOf item EnvelopeKey.evidenceDigest).pyStr :: st.seenDigests }

/-- `for expected, (path, item) in enumerate(files, 1)` -/
def verifyFiles (runId : Text) (files : List (Text × Document F)) : Result (LedgerScan F) :=
  (files.zipIdx 1).foldlM (fun st f => verifyRecord runId st f.2 f.1.1 f.1.2.value) .start

/-! ## A Run directory -/

inductive LedgerStatus where
  | valid | incomplete | invalid
  deriving DecidableEq, Repr

/-- `EvidenceVerificationResult` -/
structure EvidenceVerification where
  runId : Text
  status : LedgerStatus
  ledgerValid : Bool
  indexConsistent : Bool
  errors : List Text
  evidenceCount : Nat
  deriving DecidableEq

def EvidenceVerification.of (runId : Text) (ledgerValid indexConsistent : Bool) (errors : List Text)
    (count : Nat) : EvidenceVerification :=
  ⟨runId, if ledgerValid && indexConsistent then .valid else if ledgerValid then .incomplete else .invalid,
    ledgerValid, indexConsistent, errors, count⟩

/-- The ledger part: its errors and the last state of the pass. -/
def scanLedger (runId : Text) (loaded : RunFiles F) : Result (List Text × LedgerScan F) :=
  if loaded.errors = [] then do
    let st ← verifyFiles runId loaded.files
    pure (st.errors, st)
  else pure (loaded.errors, .start)

/-- `bool(files) and not errors` -/
def ledgerAccepted (loaded : RunFiles F) (errors : List Text) : Bool := loaded.files ≠ [] && errors = []

/-- `_verify_run(…, index=False)` -/
def verifyRun (c : Corpus F) (runId : Text) : Result EvidenceVerification := do
  let loaded ← loadRunFiles c runId
  let (errors, _) ← scanLedger runId loaded
  pure (.of runId (ledgerAccepted loaded errors) true errors loaded.files.length)

/-- `v > n` for a number. -/
def exceeds (v : Value F) (n : Nat) : Except Py.Error Bool :=
  match v.num? with
  | some (.int m) => .ok (decide ((n : Int) < m))
  | some (.float x) => .ok (PyFloat.intLe n x && !PyFloat.eqInt x n)
  | none => .error .typeError

/-- The index part of `_verify_run`: `index_consistent`, and whether the index is ahead. An exception
is `index_consistent = False`. -/
def compareIndex (ix : Index F) (runId : Text) (st : LedgerScan F) (count : Nat) : Bool × Bool :=
  match findRun ix (.str runId) with
  | .error _ | .ok none => (false, false)
  | .ok (some row) =>
    let consistent := (row .status).toValue.eq (nameValue st.status) &&
      (row .lastSequence).toValue.eq (.int count) && (row .lastEvidenceDigest).toValue.eq st.previous
    match exceeds (row .lastSequence).toValue count with
    | .ok ahead => (consistent, ahead)
    | .error _ => (false, false)

/-- `_verify_run` against an index. -/
def verifyRunIndexed (c : Corpus F) (ix : Index F) (runId : Text) : Result EvidenceVerification := do
  let loaded ← loadRunFiles c runId
  let (errors, st) ← scanLedger runId loaded
  if ledgerAccepted loaded errors then
    let (consistent, ahead) := compareIndex ix runId st loaded.files.length
    if ahead then
      pure (.of runId false consistent
        (errors ++ [txt "evidence chain is incomplete relative to indexed sequence"]) loaded.files.length)
    else pure (.of runId true consistent errors loaded.files.length)
  else pure (.of runId false true errors loaded.files.length)

/-! ## When a record passes its checks -/

/-- The tests that precede the type of a record. -/
structure RecordHead (runId : Text) (n : Nat) (name : Text) (item : Value F) : Prop where
  object : item.isDict = true
  runId : keyOf item EnvelopeKey.runId = .str runId
  sequence : (keyOf item EnvelopeKey.sequence).eq (.int n) = true
  number : name.take 8 = Text.pad8 n
  keys : hasKeys (memberNames EnvelopeKey) (members item) = true
  version : snapshotEvidenceSchemaVersion item = some 1 ∨ snapshotEvidenceSchemaVersion item = some 2 ∧
    keyOf item EnvelopeKey.evidenceType = lit "filesystem.snapshot"

/-- The record has a type of a ledger and lies under its name. -/
def Titled (n : Nat) (name : Text) (item : Value F) : Prop :=
  ∃ t ∈ ledgerTypes, keyOf item EnvelopeKey.evidenceType = .str t ∧ filename n t = .ok name

/-- The `n`-th record of a Run is well formed. -/
structure RecordShape (runId : Text) (n : Nat) (name : Text) (item : Value F) : Prop
    extends RecordHead runId n name item where
  title : Titled n name item
  createdAt : ∃ t, keyOf item EnvelopeKey.createdAt = .str t ∧ Runtime.isoAware F (zoned t) = some true
  evidenceId : ∃ u, keyOf item EnvelopeKey.evidenceId = .str u ∧ Runtime.uuidVersion F u = some (some 4)
  payload : (keyOf item EnvelopeKey.payload).isDict = true
  providers : (keyOf item EnvelopeKey.providerVersions).isDict = true

theorem firstFailure_eq_none {cs : List (Result Bool × String)} :
    firstFailure cs = .ok none ↔ ∀ c ∈ cs, c.1 = .ok true := by
  induction cs with
  | nil => simp [firstFailure]
  | cons c cs ih =>
    rw [firstFailure, List.forall_mem_cons, ← ih]
    cases c.1 with
    | error e => simp
    | ok b => cases b <;> simp

theorem ok_firstFailure_cons {c : Result Bool × String} {cs : List (Result Bool × String)} :
    Ok (firstFailure (c :: cs)) ↔ Ok c.1 ∧ (c.1 = .ok true → Ok (firstFailure cs)) := by
  rw [firstFailure]
  cases c.1 with
  | error e => simp
  | ok b => cases b <;> simp

theorem identityValid_eq_true {a b : Value F} : identityValid a b = .ok true ↔
    (∃ t, a = .str t ∧ Runtime.isoAware F (zoned t) = some true) ∧
      ∃ u, b = .str u ∧ Runtime.uuidVersion F u = some (some 4) := by
  cases a with
  | str t =>
    unfold identityValid
    cases h : Runtime.isoAware F (zoned t) with
    | none => simp [h]
    | some aware => cases b <;> simp [h]
  | _ => simp [identityValid]

/-- Parsing the time and the identity raises nothing but what is caught. -/
def Identifiable (createdAt evidenceId : Value F) : Prop :=
  ∃ t, createdAt = .str t ∧
    ((Runtime.isoAware F (zoned t)).isSome = true → evidenceId.isStr = true ∨ evidenceId = .none)

theorem ok_identityValid {a b : Value F} : Ok (identityValid a b) ↔ Identifiable a b := by
  cases a with
  | str t =>
    unfold identityValid Identifiable
    cases h : Runtime.isoAware F (zoned t) with
    | none => simp [h]
    | some aware => cases b <;> simp [h, Value.isStr]
  | _ => simp [identityValid, Identifiable]

section

omit [SqliteFloat F]

theorem namedAs_eq_true {n : Nat} {name : Text} {v : Value F} :
    namedAs n name v = .ok true ↔ ∃ t, v = .str t ∧ filename n t = .ok name := by
  unfold namedAs
  cases v with
  | str t =>
    simp only [strOf, py_ok, ok_bind_ok, bind_eq_ok, pure_eq_ok, decide_eq_true_eq, Value.str.injEq,
      exists_eq_left']
    constructor
    · rintro ⟨m, hm, rfl⟩
      exact hm
    · exact fun h => ⟨name, h, rfl⟩
  | _ => simp [strOf, py, Except.mapError]

theorem memStrs_eq_true {v : Value F} {ks : List Text} :
    v.memStrs ks = .ok true ↔ ∃ t ∈ ks, v = .str t := by
  cases v <;> simp [Value.memStrs]

theorem ok_memStrs_in (ks : List Text) {v : Value F} : Ok (v.memStrs ks) ↔ v.hashable = true := Value.ok_memStrs

end

/-- Every type of a ledger names a file. -/
theorem filename_of_ledgerType {n : Nat} {t : Text} (h : t ∈ ledgerTypes) : Ok (filename n t) := by
  have hall : ∀ t ∈ ledgerTypes, isTypeName (safeType t) = true := by decide +kernel
  exact ⟨_, filename_eq_ok.2 ⟨hall t h, rfl⟩⟩

theorem placed_eq_true {runId name : Text} {n : Nat} {item : Value F} : placed runId n name item = true ↔
    item.isDict = true ∧ keyOf item EnvelopeKey.runId = .str runId ∧
      (keyOf item EnvelopeKey.sequence).eq (.int n) = true ∧ name.take 8 = Text.pad8 n := by
  simp [placed, and_assoc]

/-- The four tests before the type. -/
theorem recordHead_iff {runId name : Text} {n : Nat} {item : Value F} : RecordHead runId n name item ↔
    placed runId n name item = true ∧
      (hasKeys (memberNames EnvelopeKey) (members item) && (snapshotEvidenceSchemaVersion item).isSome) = true ∧
      (snapshotEvidenceSchemaVersion item = some 1 || snapshotEvidenceSchemaVersion item = some 2) = true ∧
      (snapshotEvidenceSchemaVersion item ≠ some 2 ||
        (keyOf item EnvelopeKey.evidenceType).eq (lit "filesystem.snapshot")) = true := by
  rw [placed_eq_true]
  simp only [Bool.and_eq_true, Bool.or_eq_true, decide_eq_true_eq, lit, Value.eq_str]
  constructor
  · rintro ⟨h1, h2, h3, h4, h5, h6⟩
    refine ⟨⟨h1, h2, h3, h4⟩, ⟨h5, ?_⟩, h6.imp_right And.left, ?_⟩
    · rcases h6 with h | h
      · rw [h]; rfl
      · rw [h.1]; rfl
    · rcases h6 with h | h
      · exact .inl (by rw [h]; simp)
      · exact .inr h.2
  · rintro ⟨⟨h1, h2, h3, h4⟩, ⟨h5, -⟩, h6, h7⟩
    refine ⟨h1, h2, h3, h4, h5, ?_⟩
    rcases h6 with h | h
    · exact .inl h
    · exact .inr ⟨h, h7.resolve_left (not_not_intro h)⟩

/-- A record fails no check exactly when it is well formed. -/
theorem recordChecks_passed {runId name : Text} {n : Nat} {item : Value F} :
    firstFailure (recordChecks runId n name item) = .ok none ↔ RecordShape runId n name item := by
  rw [firstFailure_eq_none]
  simp only [recordChecks, List.forall_mem_cons, List.not_mem_nil, false_imp_iff, implies_true, and_true,
    Except.ok.injEq, py_eq_ok, memStrs_eq_true, namedAs_eq_true, identityValid_eq_true, Bool.and_eq_true]
  constructor
  · rintro ⟨h1, h2, h3, h4, ⟨t, ht, hty⟩, ⟨u, hu, hname⟩, ⟨h7, h8⟩, h9, h10⟩
    rw [hu] at hty
    cases hty
    exact { recordHead_iff.2 ⟨h1, Bool.and_eq_true_iff.2 h2, h3, h4⟩ with
      title := ⟨_, ht, hu, hname⟩
      createdAt := h7
      evidenceId := h8
      payload := h9
      providers := h10 }
  · intro h
    obtain ⟨h1, h2, h3, h4⟩ := recordHead_iff.1 h.toRecordHead
    obtain ⟨t, ht, hty, hname⟩ := h.title
    exact ⟨h1, Bool.and_eq_true_iff.1 h2, h3, h4, ⟨t, ht, hty⟩, ⟨t, hty, hname⟩,
      ⟨h.createdAt, h.evidenceId⟩, h.payload, h.providers⟩

/-- What the checks of a record need to return. -/
structure Checkable (runId : Text) (n : Nat) (name : Text) (item : Value F) : Prop where
  type : RecordHead runId n name item → (keyOf item EnvelopeKey.evidenceType).hashable = true
  identity : RecordHead runId n name item → Titled n name item →
    Identifiable (keyOf item EnvelopeKey.createdAt) (keyOf item EnvelopeKey.evidenceId)

theorem ok_recordChecks {runId name : Text} {n : Nat} {item : Value F} :
    Ok (firstFailure (recordChecks runId n name item)) ↔ Checkable runId n name item := by
  have hnamed : py ((keyOf item EnvelopeKey.evidenceType).memStrs ledgerTypes) = .ok true →
      Ok (namedAs n name (keyOf item EnvelopeKey.evidenceType)) := by
    intro h
    obtain ⟨t, ht, hty⟩ := memStrs_eq_true.1 (py_eq_ok.1 h)
    obtain ⟨m, hm⟩ := filename_of_ledgerType (n := n) ht
    rw [hty, namedAs, strOf, py_ok, ok_bind_ok, hm]
    exact ok_ok _
  have htitle : (py ((keyOf item EnvelopeKey.evidenceType).memStrs ledgerTypes) = .ok true ∧
      namedAs n name (keyOf item EnvelopeKey.evidenceType) = .ok true) ↔ Titled n name item := by
    rw [py_eq_ok, memStrs_eq_true, namedAs_eq_true]
    constructor
    · rintro ⟨⟨t, ht, hty⟩, u, hu, hname⟩
      rw [hty] at hu
      cases hu
      exact ⟨t, ht, hty, hname⟩
    · rintro ⟨t, ht, hty, hname⟩
      exact ⟨⟨t, ht, hty⟩, t, hty, hname⟩
  simp only [recordChecks, ok_firstFailure_cons, ok_ok, true_and, Except.ok.injEq]
  have hlast : Ok (firstFailure ([] : List (Result Bool × String))) := ok_ok _
  simp only [hlast, implies_true, and_true, ok_py_iff, Value.ok_memStrs, ok_identityValid]
  constructor
  · intro h
    refine ⟨fun hd => ?_, fun hd ht => ?_⟩
    · obtain ⟨h1, h2, h3, h4⟩ := recordHead_iff.1 hd
      exact (h h1 h2 h3 h4).1
    · obtain ⟨h1, h2, h3, h4⟩ := recordHead_iff.1 hd
      obtain ⟨ht, hn⟩ := htitle.2 ht
      exact ((h h1 h2 h3 h4).2 ht).2 hn
  · intro h h1 h2 h3 h4
    have hd := recordHead_iff.2 ⟨h1, h2, h3, h4⟩
    exact ⟨h.type hd, fun ht => ⟨hnamed ht, fun hn => h.identity hd (htitle.1 ⟨ht, hn⟩)⟩⟩

/-! ## When the pass returns -/

/-- What one turn needs, given the well-formed records before it, the latest first. -/
structure RecordTotal (runId : Text) (n : Nat) (name : Text) (item : Value F)
    (earlier : List (Value F)) : Prop where
  checks : Checkable runId n name item
  digest : RecordShape runId n name item → (keyOf item EnvelopeKey.previousEvidenceDigest).eq
    ((earlier.head?.map (keyOf · EnvelopeKey.evidenceDigest)).getD .none) = true →
    (Value.dict (without [txt "evidence_digest"] (members item))).safe = true
  identity : RecordShape runId n name item →
    (keyOf item EnvelopeKey.evidenceId).pyStr ∉ earlier.map (fun r => (keyOf r EnvelopeKey.evidenceId).pyStr) →
    (keyOf item EnvelopeKey.evidenceDigest).hashable = true
  target : RecordShape runId n name item → n ≠ 1 →
    keyOf item EnvelopeKey.evidenceType = lit "run.state_transition" →
    ((keyOf item EnvelopeKey.payload).getIf (txt "to_status")).hashable = true

/-- The pass returns from a file on. -/
def TotalFrom (runId : Text) : Nat → List (Value F) → List (Text × Document F) → Prop
  | _, _, [] => True
  | n, earlier, f :: fs => RecordTotal runId n f.1 f.2.value earlier ∧
      (RecordShape runId n f.1 f.2.value → TotalFrom runId (n + 1) (f.2.value :: earlier) fs) ∧
      (¬ RecordShape runId n f.1 f.2.value → TotalFrom runId (n + 1) earlier fs)

/-- No access, membership test or digest of the pass raises. -/
def LedgerTotal (runId : Text) (files : List (Text × Document F)) : Prop := TotalFrom runId 1 [] files

/-- The state of the pass after the well-formed records `earlier`. -/
structure LedgerScan.Follows (st : LedgerScan F) (earlier : List (Value F)) : Prop where
  previous : st.previous = (earlier.head?.map (keyOf · EnvelopeKey.evidenceDigest)).getD .none
  seenIds : st.seenIds = earlier.map fun r => (keyOf r EnvelopeKey.evidenceId).pyStr

theorem ok_chained {previous item : Value F} : Ok (chained previous item) ↔
    ((keyOf item EnvelopeKey.previousEvidenceDigest).eq previous = true →
      (Value.dict (without [txt "evidence_digest"] (members item))).safe = true) := by
  rw [chained, andThen, ok_bind_ok]
  cases (keyOf item EnvelopeKey.previousEvidenceDigest).eq previous with
  | false => simp
  | true => simp [recordDigest, ok_map, ok_digest]

omit [SqliteFloat F] in
theorem ok_repeated {st : LedgerScan F} {item : Value F} {u : Text}
    (hu : keyOf item EnvelopeKey.evidenceId = .str u) : Ok (repeated st item) ↔
      (u ∉ st.seenIds → (keyOf item EnvelopeKey.evidenceDigest).hashable = true) := by
  have hmem : (Value.str u : Value F).memStrs st.seenIds = .ok (decide (u ∈ st.seenIds)) := rfl
  rw [repeated, hu, hmem, ok_bind_ok, ← ok_memStrs_in st.seenDigests]
  by_cases h : u ∈ st.seenIds <;> simp [h]

omit [SqliteFloat F] in
theorem ok_nextStatus {status : RunStatus} {v : Value F} : Ok (nextStatus status v) ↔ v.hashable = true := by
  rw [nextStatus, ok_bind]
  constructor
  · rintro ⟨b, hb, -⟩
    exact Value.ok_memStrs.1 ⟨b, hb⟩
  · intro h
    obtain ⟨b, hb⟩ := (ok_memStrs_in (memberNames RunStatus)).2 h
    refine ⟨b, hb, ?_⟩
    cases b with
    | false => exact ok_ok _
    | true =>
      obtain ⟨t, ht, rfl⟩ := memStrs_eq_true.1 hb
      obtain ⟨a, ha⟩ := mem_memberNames.1 ht
      rw [if_pos rfl, enumOf, ha]
      exact ok_ok _

theorem ok_statusStep {n : Nat} {name : Text} {item : Value F} {status : RunStatus} :
    Ok (statusStep n name item status) ↔ (n ≠ 1 →
      keyOf item EnvelopeKey.evidenceType = lit "run.state_transition" →
        ((keyOf item EnvelopeKey.payload).getIf (txt "to_status")).hashable = true) := by
  unfold statusStep
  by_cases hn : n = 1
  · simp [hn]
  · rw [if_neg hn, ok_ite, lit, Value.eq_str, ok_bind_of_total fun _ => ok_pure _, ok_nextStatus]
    simp [hn]

/-- A turn that passes the checks returns exactly when the three later steps do. -/
theorem ok_verifyRecord {runId name : Text} {n : Nat} {item : Value F} {st : LedgerScan F}
    {earlier : List (Value F)} (hst : st.Follows earlier) :
    Ok (verifyRecord runId st n name item) ↔ RecordTotal runId n name item earlier := by
  rw [verifyRecord, ok_bind]
  constructor
  · rintro ⟨m, hm, h⟩
    have hsteps (hs : RecordShape runId n name item) : Ok (chained st.previous item) ∧
        Ok (repeated st item) ∧ Ok (statusStep n name item st.status) := by
      rw [recordChecks_passed.2 hs] at hm
      cases hm
      obtain ⟨c, hc, h⟩ := ok_bind.1 h
      obtain ⟨r, hr, h⟩ := ok_bind.1 h
      obtain ⟨s, hs, -⟩ := ok_bind.1 h
      exact ⟨⟨c, hc⟩, ⟨r, py_eq_ok.1 hr⟩, ⟨s, py_eq_ok.1 hs⟩⟩
    refine ⟨ok_recordChecks.1 ⟨m, hm⟩, fun hs => ?_, fun hs => ?_, fun hs => ?_⟩
    · rw [← hst.previous]
      exact ok_chained.1 (hsteps hs).1
    · obtain ⟨u, hu, -⟩ := hs.evidenceId
      rw [← hst.seenIds, hu]
      exact (ok_repeated hu).1 (hsteps hs).2.1
    · exact ok_statusStep.1 (hsteps hs).2.2
  · intro h
    obtain ⟨m, hm⟩ := ok_recordChecks.2 h.checks
    refine ⟨m, hm, ?_⟩
    cases m with
    | some m => exact ok_ok _
    | none =>
      have hs := recordChecks_passed.1 hm
      obtain ⟨u, hu, -⟩ := hs.evidenceId
      have hid := h.identity hs
      rw [← hst.seenIds, hu] at hid
      obtain ⟨c, hc⟩ := ok_chained.2 (hst.previous ▸ h.digest hs)
      obtain ⟨r, hr⟩ := (ok_repeated hu).2 hid
      have hstep : Ok (statusStep n name item st.status) := ok_statusStep.2 (h.target hs)
      obtain ⟨s, hs'⟩ := hstep
      simp only [hc, hr, hs', py_ok, ok_bind_ok]
      exact ok_ok _

/-- What a turn leaves of the records before it. -/
theorem LedgerScan.Follows.step {runId name : Text} {n : Nat} {item : Value F} {st st' : LedgerScan F}
    {earlier : List (Value F)} (hst : st.Follows earlier) (h : verifyRecord runId st n name item = .ok st') :
    (RecordShape runId n name item → st'.Follows (item :: earlier)) ∧
      (¬ RecordShape runId n name item → st'.Follows earlier) := by
  rw [verifyRecord, bind_eq_ok] at h
  obtain ⟨m, hm, h⟩ := h
  cases m with
  | some m =>
    cases h
    refine ⟨fun hs => ?_, fun _ => ⟨hst.previous, hst.seenIds⟩⟩
    rw [recordChecks_passed.2 hs] at hm
    cases hm
  | none =>
    simp only [bind_eq_ok] at h
    obtain ⟨c, -, r, -, s, -, h⟩ := h
    cases h
    exact ⟨fun _ => ⟨rfl, by rw [hst.seenIds]; rfl⟩, fun hs => absurd (recordChecks_passed.1 hm) hs⟩

theorem ok_verifyFrom {runId : Text} {files : List (Text × Document F)} {n : Nat} {st : LedgerScan F}
    {earlier : List (Value F)} (hst : st.Follows earlier) :
    Ok ((files.zipIdx n).foldlM (fun st f => verifyRecord runId st f.2 f.1.1 f.1.2.value) st) ↔
      TotalFrom runId n earlier files := by
  induction files generalizing n st earlier with
  | nil => exact iff_of_true (ok_pure _) trivial
  | cons f fs ih =>
    rw [List.zipIdx_cons, List.foldlM_cons, ok_bind, TotalFrom, ← ok_verifyRecord hst]
    constructor
    · rintro ⟨st', h, hrest⟩
      obtain ⟨h1, h2⟩ := hst.step h
      exact ⟨⟨st', h⟩, fun hs => (ih (h1 hs)).1 hrest, fun hs => (ih (h2 hs)).1 hrest⟩
    · rintro ⟨⟨st', h⟩, h1, h2⟩
      refine ⟨st', h, ?_⟩
      by_cases hs : RecordShape runId n f.1 f.2.value
      · exact (ih ((hst.step h).1 hs)).2 (h1 hs)
      · exact (ih ((hst.step h).2 hs)).2 (h2 hs)

/-- The pass over the files returns exactly on the total ledgers. -/
theorem ok_verifyFiles {runId : Text} {files : List (Text × Document F)} :
    Ok (verifyFiles runId files) ↔ LedgerTotal runId files :=
  ok_verifyFrom ⟨rfl, rfl⟩

end Steward
