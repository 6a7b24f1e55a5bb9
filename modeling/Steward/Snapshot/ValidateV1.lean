import Steward.Snapshot.Statistics

/-!
# Version 1 Snapshot Evidence

`_validate_snapshot_evidence_v1`, and when it returns at all: `V1Total` lists
the documents on which no access, membership test, sum or digest raises.
-/

namespace Steward

open Py Sqlite

variable {F : Type} [SqliteFloat F]

structure Issue where
  code : Text
  message : Text
  deriving DecidableEq

/-- `(code, message)` order. -/
def Issue.le (a b : Issue) : Prop := a.code < b.code ∨ a.code = b.code ∧ a.message ≤ b.message

instance : DecidableRel Issue.le := fun a b =>
  inferInstanceAs (Decidable (a.code < b.code ∨ a.code = b.code ∧ a.message ≤ b.message))

def issue (code message : String) : Issue := ⟨txt code, txt message⟩

/-- The sorted problems of the checks that failed. -/
def problems (checks : List (Bool × Issue)) : List Issue :=
  ((checks.filter fun c => !c.1).map Prod.snd).insertionSort Issue.le

theorem problems_eq_nil {checks : List (Bool × Issue)} :
    problems checks = [] ↔ ∀ c ∈ checks, c.1 = true := by
  have h := (List.perm_insertionSort Issue.le ((checks.filter fun c => !c.1).map Prod.snd)).length_eq
  rw [problems, ← List.length_eq_zero_iff, h]
  simp

/-- `SnapshotEvidenceValidationResult` -/
structure Validation where
  evidenceId : Option Text
  snapshotId : Option Text
  valid : Bool
  envelopeValid : Bool
  evidenceDigestValid : Bool
  evidenceTypeValid : Bool
  payloadSchemaValid : Bool
  runIdConsistent : Bool
  snapshotSchemaValid : Bool
  entriesSchemaValid : Bool
  entryOrderValid : Bool
  entryKeysUnique : Bool
  entryIdsValid : Bool
  scopeMembershipValid : Bool
  pathsValid : Bool
  summaryValid : Bool
  entriesDigestValid : Bool
  snapshotDigestValid : Bool
  errors : List Issue

/-- `path` is a string, relative and without `..` components. -/
def safePath : Value F → Bool
  | .str s => !s.startsWith (txt "/") && s ≠ txt ".." && !s.startsWith (txt "../") &&
      !Text.hasInfix (txt "/../") s
  | _ => false

/-! ## The pass over the entries -/

/-- The local variables of the loop over `entries`. -/
structure EntryScan where
  schemaValid : Bool
  orderValid : Bool
  keysUnique : Bool
  idsValid : Bool
  scopesValid : Bool
  pathsValid : Bool
  seenKeys : List (Text × Text)
  seenIds : List Text
  previous : Option (Text × List Byte)

def EntryScan.start (schemaValid : Bool) : EntryScan :=
  ⟨schemaValid, true, true, true, true, true, [], [], none⟩

def shapedV1 (item : Value F) : Bool :=
  match item with
  | .dict fs => hasKeys (names EntryKey.v1) fs
  | _ => false

def EntryFlag.all : List EntryFlag := [.readable, .writable, .executable, .excluded]

/-- The loop's scope test: the ids agree, and the scope is a string that is `in scopes`. -/
def scopeMember (snapshotId : Option Text) (scopes item : Value F) : Except Py.Error Bool :=
  if (keyOf item (EntryKey.field .snapshotId)).eq (optText snapshotId) &&
      (keyOf item (EntryKey.field .scopeId)).isStr then
    scopes.contains (keyOf item (EntryKey.field .scopeId))
  else .ok false

def sortBytes (path : Text) : Except Py.Error (List Byte) :=
  match path.utf8Escape with
  | some bs => .ok bs
  | none => .error .unicodeEncodeError

def scanEntry (snapshotId : Option Text) (scopes : Value F) (st : EntryScan) (item : Value F) :
    Except Py.Error EntryScan :=
  if !shapedV1 item then pure { st with schemaValid := false }
  else do
    let scope := (keyOf item (EntryKey.field .scopeId)).pyStr
    let path := keyOf item (EntryKey.field .relativePath)
    let identifier := keyOf item (EntryKey.field .entryId)
    let scopeOk ← scopeMember snapshotId scopes item
    let expected ← entryId (F := F) (optText (F := F) snapshotId).pyStr scope path.pyStr
    let bytes ← sortBytes path.pyStr
    pure {
      schemaValid := st.schemaValid &&
        EntryFlag.all.all fun f => (keyOf item (EntryKey.flag f)).isBool
      orderValid := st.orderValid && st.previous.all fun p => sortKeyLe p (scope, bytes)
      keysUnique := st.keysUnique && (scope, path.pyStr) ∉ st.seenKeys
      idsValid := st.idsValid && identifier.eq (.str expected) && identifier.pyStr ∉ st.seenIds
      scopesValid := st.scopesValid && scopeOk
      pathsValid := st.pathsValid && safePath path
      seenKeys := (scope, path.pyStr) :: st.seenKeys
      seenIds := identifier.pyStr :: st.seenIds
      previous := some (scope, bytes) }

/-! ## The validator -/

/-- The parts of an envelope the validators look at. -/
def payloadOf (env : List (Text × Value F)) : Value F := fieldOf env EnvelopeKey.payload

def snapshotOf (env : List (Text × Value F)) : Value F := (payloadOf env).getIf (txt "snapshot")

def entriesOf (env : List (Text × Value F)) : Value F := (payloadOf env).getIf (txt "entries")

def snapshotIdOf (env : List (Text × Value F)) : Option Text :=
  str? (keyOf (snapshotOf env) (SnapshotKey.field .snapshotId))

def payloadShaped (env : List (Text × Value F)) : Bool :=
  match payloadOf env with
  | .dict p => hasKeys [txt "snapshot", txt "entries"] p
  | _ => false

def snapshotShapedV1 (env : List (Text × Value F)) : Bool :=
  (match snapshotOf env with
    | .dict s => hasKeys (names SnapshotKey.v1) s || hasKeys (names SnapshotKey.v1Current) s
    | _ => false) && (entriesOf env).isList

/-- `snapshot_data.get("scope_ids", [])` -/
def scopesOf (env : List (Text × Value F)) : Value F :=
  (lookup (members (snapshotOf env)) (Named.name SnapshotKey.scopeIds)).getD (.list [])

def v1Checks (v : Validation) : List (Bool × Issue) :=
  [(v.envelopeValid, issue "SNAPSHOT_EVIDENCE_SCHEMA_INVALID" "invalid evidence envelope schema"),
    (v.evidenceTypeValid,
      issue "SNAPSHOT_EVIDENCE_TYPE_INVALID" "evidence_type must be filesystem.snapshot"),
    (v.evidenceDigestValid, issue "SNAPSHOT_EVIDENCE_INVALID" "evidence digest mismatch"),
    (v.payloadSchemaValid,
      issue "SNAPSHOT_PAYLOAD_SCHEMA_INVALID" "payload must contain snapshot and entries"),
    (v.snapshotSchemaValid, issue "SNAPSHOT_PAYLOAD_SCHEMA_INVALID" "invalid snapshot schema"),
    (v.runIdConsistent,
      issue "SNAPSHOT_RUN_ID_MISMATCH" "snapshot run_id differs from evidence run_id"),
    (v.entriesSchemaValid, issue "SNAPSHOT_ENTRY_SCHEMA_INVALID" "invalid entry schema"),
    (v.entryOrderValid, issue "SNAPSHOT_ENTRY_ORDER_INVALID" "entries are not sorted"),
    (v.entryKeysUnique, issue "SNAPSHOT_ENTRY_DUPLICATE" "duplicate entry key"),
    (v.entryIdsValid, issue "SNAPSHOT_ENTRY_ID_INVALID" "invalid entry id"),
    (v.scopeMembershipValid, issue "SNAPSHOT_SCOPE_MISMATCH" "invalid entry scope"),
    (v.pathsValid, issue "SNAPSHOT_PATH_INVALID" "invalid entry path"),
    (v.summaryValid, issue "SNAPSHOT_SUMMARY_INVALID" "snapshot summary mismatch"),
    (v.entriesDigestValid, issue "SNAPSHOT_ENTRIES_DIGEST_INVALID" "entries digest mismatch"),
    (v.snapshotDigestValid, issue "SNAPSHOT_DIGEST_INVALID" "snapshot digest mismatch")]

/-- The result with its errors and verdict filled in. -/
def Validation.close (checks : Validation → List (Bool × Issue)) (v : Validation) : Validation :=
  { v with errors := problems (checks v), valid := (problems (checks v)).isEmpty }

/-- `get("evidence_digest")` is a string and the digest of the rest. -/
def evidenceDigestValid (env : List (Text × Value F)) : Result Bool :=
  match fieldOf env EnvelopeKey.evidenceDigest with
  | .str s => do pure (decide (s = (← digest env)))
  | _ => pure false

/-- `c and data.get(k) == d()` -/
def digestMatches (c : Bool) (claimed : Value F) (d : Result Text) : Result Bool :=
  if c then do pure (claimed.eq (.str (← d))) else pure false

/-- `c and all(data.get(key) == value for key, value in snapshot_statistics(entries).items())` -/
def summaryMatches (c : Bool) (data : List (Text × Value F)) (entries : List (Value F)) :
    Result Bool :=
  if c then do
    let s ← py (snapshotStatistics entries)
    pure (s.items.all fun f => (fieldOf data (SnapshotKey.field f.1)).eq f.2)
  else pure false

/-- Validate one snapshot Evidence fact without SQLite, Run, or filesystem access. The dispatcher
passes only dictionaries. -/
def validateSnapshotEvidenceV1 (env : List (Text × Value F)) : Result Validation := do
  let digestValid ← evidenceDigestValid env
  let data := members (snapshotOf env)
  let items := elements (entriesOf env)
  let schemaValid := snapshotShapedV1 env
  let scan ← py (items.foldlM (scanEntry (snapshotIdOf env) (scopesOf env))
    (.start (entriesOf env).isList))
  let summaryValid ← summaryMatches schemaValid data items
  let entriesDigestValid ← digestMatches schemaValid
    (fieldOf data (SnapshotKey.field .entriesDigest)) (snapshotEntriesDigest items)
  let snapshotDigestValid ← digestMatches schemaValid
    (fieldOf data (SnapshotKey.field .snapshotDigest)) (snapshotMetadataDigest data)
  pure (Validation.close v1Checks {
    evidenceId := str? (fieldOf env EnvelopeKey.evidenceId)
    snapshotId := snapshotIdOf env
    valid := false
    envelopeValid := hasKeys (memberNames EnvelopeKey) env
    evidenceDigestValid := digestValid
    evidenceTypeValid := (fieldOf env EnvelopeKey.evidenceType).eq (lit "filesystem.snapshot")
    payloadSchemaValid := payloadShaped env
    runIdConsistent := schemaValid &&
      (fieldOf data (SnapshotKey.field .runId)).eq (fieldOf env EnvelopeKey.runId)
    snapshotSchemaValid := schemaValid
    entriesSchemaValid := scan.schemaValid
    entryOrderValid := scan.orderValid
    entryKeysUnique := scan.keysUnique
    entryIdsValid := scan.idsValid
    scopeMembershipValid := scan.scopesValid
    pathsValid := scan.pathsValid
    summaryValid, entriesDigestValid, snapshotDigestValid
    errors := [] })

/-! ## When it returns -/

/-- `x in v` is defined for a string `x`. -/
def isContainer : Value F → Bool | .list _ | .dict _ | .str _ => true | _ => false

/-- What the loop needs of a well-shaped entry. -/
structure ScannableV1 (snapshotId : Option Text) (scopes : Value F) (item : Value F) : Prop where
  scopes : (keyOf item (EntryKey.field .snapshotId)).eq (optText snapshotId) = true →
    (keyOf item (EntryKey.field .scopeId)).isStr = true → isContainer scopes = true
  snapshotId : (optText (F := F) snapshotId).pyStr.encodable = true
  scopeId : (keyOf item (EntryKey.field .scopeId)).pyStr.encodable = true
  relativePath : (keyOf item (EntryKey.field .relativePath)).pyStr.encodable = true

/-- What the aggregates and digests need. -/
structure Summarizable (entries : List (Value F)) (data : List (Text × Value F)) : Prop where
  countable : ∀ item ∈ entries, Countable item = true
  flags : Summable (excludedFlags entries)
  sizes : Summable (regularSizes entries)
  entries : (Value.list entries).safe = true
  metadata : (Value.dict (without undigested data)).safe = true

structure V1Total (env : List (Text × Value F)) : Prop where
  envelope : (fieldOf env EnvelopeKey.evidenceDigest).isStr = true →
    (Value.dict (without [txt "evidence_digest"] env)).safe = true
  entries : ∀ item ∈ elements (entriesOf env), shapedV1 item = true →
    ScannableV1 (snapshotIdOf env) (scopesOf env) item
  summary : snapshotShapedV1 env = true →
    Summarizable (elements (entriesOf env)) (members (snapshotOf env))

theorem ok_evidenceDigestValid {env : List (Text × Value F)} : Ok (evidenceDigestValid env) ↔
    ((fieldOf env EnvelopeKey.evidenceDigest).isStr = true →
      (Value.dict (without [txt "evidence_digest"] env)).safe = true) := by
  unfold evidenceDigestValid
  cases fieldOf env EnvelopeKey.evidenceDigest <;> simp [Value.isStr, ok_map, ok_digest]

theorem ok_contains_str {c x : Value F} (hx : x.isStr = true) :
    Ok (c.contains x) ↔ isContainer c = true := by
  cases x <;> cases hx
  cases c <;> simp [Value.contains, isContainer, Value.memStrs]

theorem ok_digestMatches {c : Bool} {v : Value F} {d : Result Text} :
    Ok (digestMatches c v d) ↔ (c = true → Ok d) := by
  rw [digestMatches]
  cases c <;> simp [ok_map]

theorem ok_summaryMatches {c : Bool} {data : List (Text × Value F)} {es : List (Value F)} :
    Ok (summaryMatches c data es) ↔ (c = true → Ok (snapshotStatistics es)) := by
  rw [summaryMatches]
  cases c <;> simp [ok_map]

theorem ok_scopeMember {sid : Option Text} {scopes item : Value F} :
    Ok (scopeMember sid scopes item) ↔
      ((keyOf item (EntryKey.field .snapshotId)).eq (optText sid) = true →
        (keyOf item (EntryKey.field .scopeId)).isStr = true → isContainer scopes = true) := by
  rw [scopeMember, ok_ite, Bool.and_eq_true, and_imp]
  exact (and_iff_left fun _ => ok_ok _).trans (forall₂_congr fun _ h => ok_contains_str h)

theorem ok_scanEntry {sid : Option Text} {scopes : Value F} {st : EntryScan} {item : Value F} :
    Ok (scanEntry sid scopes st item) ↔
      (shapedV1 item = true → ScannableV1 sid scopes item) := by
  unfold scanEntry
  by_cases hs : shapedV1 item = true
  · simp only [hs, Bool.not_true, Bool.false_eq_true, if_false, true_imp_iff]
    have hbytes (path : Text) (hp : path.encodable = true) : Ok (sortBytes path) := by
      rw [sortBytes, Text.utf8Escape_of_encodable hp]; exact ok_ok _
    rw [ok_bind_const (p := Ok (entryId (F := F) (optText (F := F) sid).pyStr
      (keyOf item (EntryKey.field .scopeId)).pyStr (keyOf item (EntryKey.field .relativePath)).pyStr)),
      ok_scopeMember, ok_entryId]
    · exact ⟨fun ⟨h1, h2, h3, h4⟩ => ⟨h1, h2, h3, h4⟩, fun ⟨h1, h2, h3, h4⟩ => ⟨h1, h2, h3, h4⟩⟩
    · intro b
      rw [ok_bind]
      refine ⟨fun ⟨d, hd, _⟩ => ⟨d, hd⟩, fun ⟨d, hd⟩ => ⟨d, hd, ?_⟩⟩
      exact (ok_bind_of_total fun _ => ok_pure _).2 (hbytes _ (ok_entryId.1 ⟨d, hd⟩).2.2)
  · simp [hs]

/-- The v1 validator returns exactly on the `V1Total` documents. -/
theorem ok_validateV1 {env : List (Text × Value F)} :
    Ok (validateSnapshotEvidenceV1 env) ↔ V1Total env := by
  have hscan : Ok (py ((elements (entriesOf env)).foldlM
      (scanEntry (snapshotIdOf env) (scopesOf env)) (.start (entriesOf env).isList))) ↔
      ∀ item ∈ elements (entriesOf env), shapedV1 item = true →
        ScannableV1 (snapshotIdOf env) (scopesOf env) item := by
    rw [ok_py_iff]
    exact ok_foldlM (f := scanEntry (snapshotIdOf env) (scopesOf env)) fun _ _ => ok_scanEntry
  unfold validateSnapshotEvidenceV1
  rw [ok_bind_const fun _ => ok_bind_const fun _ => ok_bind_const fun _ => ok_bind_const fun _ =>
      ok_bind_of_total fun _ => ok_pure _,
    ok_evidenceDigestValid, hscan, ok_summaryMatches, ok_digestMatches, ok_digestMatches,
    ok_snapshotStatistics, snapshotEntriesDigest, snapshotMetadataDigest, ok_digestOf, ok_digestOf]
  constructor
  · rintro ⟨h1, h2, h3, h4, h5⟩
    exact ⟨h1, h2, fun h => ⟨(h3 h).1, (h3 h).2.1, (h3 h).2.2, h4 h, h5 h⟩⟩
  · rintro ⟨h1, h2, h3⟩
    exact ⟨h1, h2, fun h => ⟨(h3 h).countable, (h3 h).flags, (h3 h).sizes⟩,
      fun h => (h3 h).entries, fun h => (h3 h).metadata⟩

end Steward
