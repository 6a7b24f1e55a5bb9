import Steward.Snapshot.Model

/-!
# The derived index

The four business tables of `database.py`, the shared writer
`_insert_snapshot_index_rows`, and the readers `_entry_from_row`,
`_snapshot_from_row` and `_get_snapshot`.
-/

namespace Steward

open Py Sqlite

inductive RunColumn where
  | runId | runKind | status | createdAt | updatedAt | configDigest | metadataJson | lastSequence
  | lastEvidenceDigest | terminal
  deriving DecidableEq, Repr

inductive EvidenceColumn where
  | evidenceId | runId | sequence | evidenceType | createdAt | relativePath | previousEvidenceDigest
  | evidenceDigest | schemaVersion
  deriving DecidableEq, Repr

inductive SnapshotColumn where
  | field (f : SnapshotField)
  | status
  | consistency
  | scopeIdsJson
  | budgetJson
  | schemaVersion
  | hashPolicyJson
  | allocatedKnownSum
  | allocatedUnknownCount
  | summaryJson
  deriving DecidableEq, Repr

def runSchema : Schema RunColumn where
  columns := [.runId, .runKind, .status, .createdAt, .updatedAt, .configDigest, .metadataJson,
    .lastSequence, .lastEvidenceDigest, .terminal]
  affinity
    | .lastSequence | .terminal => .integer
    | _ => .text
  notNull
    | .runId | .lastEvidenceDigest => false
    | _ => true
  unique := [[.runId]]
  complete c := by cases c <;> decide

def evidenceSchema : Schema EvidenceColumn where
  columns := [.evidenceId, .runId, .sequence, .evidenceType, .createdAt, .relativePath,
    .previousEvidenceDigest, .evidenceDigest, .schemaVersion]
  affinity
    | .sequence | .schemaVersion => .integer
    | _ => .text
  notNull
    | .evidenceId | .previousEvidenceDigest => false
    | _ => true
  unique := [[.evidenceId], [.runId, .sequence], [.relativePath], [.evidenceDigest]]
  complete c := by cases c <;> decide

/-- The integer columns among the copied snapshot fields. -/
def SnapshotField.affinity : SnapshotField → Affinity
  | .entryCount | .observedCount | .errorCount | .excludedCount | .totalRegularFileBytes
  | .maxDepthObserved => .integer
  | _ => .text

def snapshotSchema : Schema SnapshotColumn where
  columns := [.field .snapshotId, .field .runId, .status, .consistency, .field .createdAt,
    .field .startedAt, .field .completedAt, .field .configDigest, .scopeIdsJson, .budgetJson,
    .field .entryCount, .field .observedCount, .field .errorCount, .field .excludedCount,
    .field .totalRegularFileBytes, .field .maxDepthObserved, .field .entriesDigest,
    .field .snapshotDigest, .field .evidenceId, .field .evidenceRelativePath, .schemaVersion,
    .hashPolicyJson, .allocatedKnownSum, .allocatedUnknownCount, .summaryJson]
  affinity
    | .field f => f.affinity
    | .schemaVersion | .allocatedKnownSum | .allocatedUnknownCount => .integer
    | _ => .text
  notNull
    | .field .snapshotId | .hashPolicyJson | .allocatedKnownSum | .allocatedUnknownCount
    | .summaryJson => false
    | _ => true
  unique := [[.field .snapshotId], [.field .snapshotDigest], [.field .evidenceRelativePath],
    [.field .runId]]
  complete c := by
    rcases c with f | _ | _ | _ | _ | _ | _ | _ | _ | _
    · cases f <;> decide
    all_goals decide

def EntryField.affinity : EntryField → Affinity
  | .deviceId | .inode | .mode | .uid | .gid | .sizeBytes | .mtimeNs | .ctimeNs | .birthtimeNs
  | .linkCount => .integer
  | _ => .text

/-- `snapshot_entries` has one column for each key; `payload_observation_json` holds text. -/
def entrySchema : Schema EntryKey where
  columns := [.field .snapshotId, .field .scopeId, .field .relativePath, .field .entryId, .objectType,
    .field .deviceId, .field .inode, .field .mode, .field .uid, .field .gid, .field .sizeBytes,
    .field .mtimeNs, .field .ctimeNs, .field .birthtimeNs, .field .linkCount,
    .field .symlinkTargetRaw, .flag .readable, .flag .writable, .flag .executable,
    .observationStatus, .field .errorCode, .field .errorMessage, .flag .excluded,
    .allocatedSizeBytes, .payloadObservation]
  affinity
    | .field f => f.affinity
    | .flag _ | .allocatedSizeBytes => .integer
    | _ => .text
  notNull
    | .field .entryId | .field .snapshotId | .field .scopeId | .field .relativePath => true
    | .flag _ | .objectType | .observationStatus => true
    | _ => false
  unique := [[.field .entryId], [.field .snapshotId, .field .scopeId, .field .relativePath]]
  complete c := by
    rcases c with f | f | _ | _ | _ | _
    · cases f <;> decide
    · cases f <;> decide
    all_goals decide

/-- The rows of `runs`, `evidence_records`, `snapshots` and `snapshot_entries`. -/
structure Index (F : Type) where
  runs : List (Row RunColumn F)
  evidenceRecords : List (Row EvidenceColumn F)
  snapshots : List (Row SnapshotColumn F)
  snapshotEntries : List (Row EntryKey F)

def Index.empty {F : Type} : Index F := ⟨[], [], [], []⟩

variable {F : Type} [SqliteFloat F]

/-- A child key is `NULL` or equals a parent key; else `FOREIGN KEY constraint failed`. -/
def references (child : Cell F) (parents : List (Cell F)) : Bool :=
  child.isNull || parents.any child.agrees

def requireReference (child : Cell F) (parents : List (Cell F)) : Except Sqlite.Error Unit :=
  if references child parents then .ok () else .error .integrity

/-! ## Writing -/

/-- `canonical_json(_json(value)).decode()` -/
def copiedJson (v : Value F) : Result Text := do canonicalJson (← jsonCopy v)

/-- `_entry_payload_projection` -/
def entryPayloadProjection (e : Entry F) : Result (Value F) :=
  match e.v2 with
  | none => .ok .none
  | some v => do pure (.str (← canonicalJson v.observation.toDict))

/-- The parameters of one row of `snapshot_entries`. -/
def entryRow (s : Snapshot F) (e : Entry F) : Result (EntryKey → Value F) := do
  let payload ← entryPayloadProjection e
  pure fun
    | .field .snapshotId => s.field .snapshotId
    | .field f => e.field f
    | .flag f => .int (if e.flag f then 1 else 0)
    | .objectType => nameValue e.objectType
    | .observationStatus => nameValue e.observationStatus
    | .allocatedSizeBytes => (e.v2.map EntryV2.allocatedSizeBytes).getD .none
    | .payloadObservation => payload

/-- `hash_policy` and `payload_summary`, `None` for v1. -/
def snapshotJsonV2 (s : Snapshot F) : Result (Value F × Value F) :=
  match s.v2 with
  | none => .ok (.none, .none)
  | some v => do
    let policy ← copiedJson (policyDict v.hashPolicy)
    let summary ← canonicalJson (summaryDict v.summary)
    pure (.str policy, .str summary)

/-- The parameters of the row of `snapshots`. -/
def snapshotRow (s : Snapshot F) (evidenceId evidenceRelativePath : Value F) :
    Result (SnapshotColumn → Value F) := do
  let v2 ← snapshotJsonV2 s
  let budget ← copiedJson (budgetDict s.budget)
  pure fun
    | .field .evidenceId => evidenceId
    | .field .evidenceRelativePath => evidenceRelativePath
    | .field f => s.field f
    | .status => nameValue s.status
    | .consistency => nameValue s.consistency
    | .scopeIdsJson => .str (Json.render defaultStyle (.list s.scopeIds))
    | .budgetJson => .str budget
    | .schemaVersion => .int (if s.v2.isSome then 2 else 1)
    | .hashPolicyJson => v2.1
    | .allocatedKnownSum => (s.v2.map SnapshotV2.allocatedKnownSum).getD .none
    | .allocatedUnknownCount => (s.v2.map SnapshotV2.allocatedUnknownCount).getD .none
    | .summaryJson => v2.2

/-- Shared Snapshot/Entry derived-index writer for creation and isolated replay. -/
def insertSnapshotIndexRows (ix : Index F) (s : Snapshot F)
    (evidenceId evidenceRelativePath : Value F) : Result (Index F) := do
  let vals ← snapshotRow s evidenceId evidenceRelativePath
  let snapshots ← sql (snapshotSchema.insert ix.snapshots vals)
  let cell (c : SnapshotColumn) : Cell F := snapshotSchema.cell c (vals c)
  sql (requireReference (cell (.field .runId)) (ix.runs.map (· .runId)))
  sql (requireReference (cell (.field .evidenceId)) (ix.evidenceRecords.map (· .evidenceId)))
  let rows ← s.entries.mapM (entryRow s)
  let entries ← sql (entrySchema.insertMany ix.snapshotEntries rows)
  pure { ix with snapshots, snapshotEntries := entries }

/-! ## Reading -/

/-- `json.loads(row[c])` -/
def loadsCell (c : Cell F) : Except Py.Error (Value F) :=
  match c with
  | .text s => match Json.loads s with
    | some v => .ok v
    | none => .error .jsonDecodeError
  | _ => .error .typeError

theorem loadsCell_eq_ok {c : Cell F} {v : Value F} :
    loadsCell c = .ok v ↔ ∃ s, c = .text s ∧ Json.loads s = some v := by
  cases c with
  | text s => cases h : Json.loads (F := F) s <;> simp [loadsCell, h]
  | _ => simp [loadsCell]

def entryFromRow (row : Row EntryKey F) : Except Py.Error (Entry F) := do
  let objectType ← enumOf FilesystemObjectType (row .objectType).toValue
  let observationStatus ← enumOf FilesystemObservationStatus (row .observationStatus).toValue
  let entry : Entry F := ⟨fun f => (row (.field f)).toValue, fun f => (row (.flag f)).toValue.truthy,
    objectType, observationStatus, none⟩
  if (row .payloadObservation).isNull then pure entry
  else
    let payload ← loadsCell (row .payloadObservation)
    let observation ← observationFromDocument payload
    pure { entry with v2 := some ⟨(row .allocatedSizeBytes).toValue, observation⟩ }

/-- The defaults of `ScanBudget`. -/
def budgetDefault : BudgetKey → Value F
  | .maxEntries => .int 1000000
  | .maxTotalStatBytes => .none
  | .maxDurationSeconds => .float (PyFloat.ofLiteral (txt "600.0"))
  | .maxDepth => .none

/-- `ScanBudget(**d)`: unknown keywords are a `TypeError`, missing ones default. -/
def scanBudget (d : Value F) : Except Py.Error (BudgetKey → Value F) :=
  match d with
  | .dict fs =>
    if (keys fs).all (· ∈ memberNames BudgetKey) then
      .ok fun k => (lookup fs (Named.name k)).getD (budgetDefault k)
    else .error .typeError
  | _ => .error .typeError

/-- `PayloadHashPolicy(**d)`: exactly its fields. -/
def payloadHashPolicy (d : Value F) : Except Py.Error (PolicyKey → Value F) :=
  match d with
  | .dict fs =>
    if hasKeys (memberNames PolicyKey) fs then .ok fun k => fieldOf fs k else .error .typeError
  | _ => .error .typeError

/-- The fields of the v2 class, read from a row. -/
def snapshotV2FromRow (row : Row SnapshotColumn F) : Except Py.Error (SnapshotV2 F) := do
  let policy ← loadsCell (row .hashPolicyJson)
  let summary ← loadsCell (row .summaryJson)
  let hashPolicy ← payloadHashPolicy policy
  let counts ← summaryFromDocument summary
  pure ⟨.int 2, hashPolicy, (row .allocatedKnownSum).toValue, (row .allocatedUnknownCount).toValue,
    counts⟩

/-- The v2 part of a row that says it is v2; its entries must have payload observations. -/
def snapshotV2Part (row : Row SnapshotColumn F) (entries : List (Entry F)) :
    Result (Option (SnapshotV2 F)) :=
  if !(row .schemaVersion).toValue.eq (.int 2) then .ok none
  else if !entries.all fun e => e.v2.isSome then .error (.steward .storageCorruptionError)
  else py (some <$> snapshotV2FromRow row)

/-- Map a derived-index row into the shared Snapshot model. -/
def snapshotFromRow (row : Row SnapshotColumn F) (entries : List (Entry F)) : Result (Snapshot F) := do
  let v2 ← snapshotV2Part row entries
  let status ← py (enumOf SnapshotStatus (row .status).toValue)
  let consistency ← py (enumOf SnapshotConsistency (row .consistency).toValue)
  let scopes ← py (loadsCell (row .scopeIdsJson))
  let scopeIds ← py scopes.iter
  let budgetData ← py (loadsCell (row .budgetJson))
  let budget ← py (scanBudget budgetData)
  pure ⟨fun f => (row (.field f)).toValue, status, consistency, scopeIds, budget, entries, v2⟩

/-- The order of two cells of `TEXT` columns under `BINARY`. -/
def cellLe : Cell F → Cell F → Bool
  | .text s, .text t => Text.utf8 s ≤ Text.utf8 t
  | .text _, _ => false
  | _, _ => true

/-- `ORDER BY scope_id, relative_path` -/
def entryRowLe (a b : Row EntryKey F) : Prop :=
  (!cellLe (b (.field .scopeId)) (a (.field .scopeId)) ||
    cellLe (a (.field .scopeId)) (b (.field .scopeId)) &&
      cellLe (a (.field .relativePath)) (b (.field .relativePath))) = true

instance : DecidableRel (entryRowLe (F := F)) := fun _ _ => inferInstanceAs (Decidable (_ = true))

/-- `SELECT * FROM snapshot_entries WHERE snapshot_id=? ORDER BY scope_id, relative_path` -/
def selectEntries (ix : Index F) (snapshotId : Value F) : Result (List (Row EntryKey F)) := do
  let rows ← sql (entrySchema.select ix.snapshotEntries (.field .snapshotId) snapshotId)
  pure (rows.insertionSort entryRowLe)

def getSnapshot (ix : Index F) (snapshotId : Value F) : Result (Snapshot F) := do
  match ← sql (snapshotSchema.select ix.snapshots (.field .snapshotId) snapshotId) with
  | [] => throw (.steward .snapshotNotFoundError)
  | row :: _ =>
    let rows ← selectEntries ix snapshotId
    let entries ← rows.mapM fun r => py (entryFromRow r)
    snapshotFromRow row entries

end Steward
