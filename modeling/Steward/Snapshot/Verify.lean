import Steward.Runs.Record
import Steward.Snapshot.Reuse

/-!
# Verification

`_verify_snapshot`: one Evidence file against the derived index and the Run.
The recursion through the reuse references is cut by a depth; a call that
exceeds it is the interpreter's `RecursionError`.
-/

namespace Steward

open Py Sqlite

variable {F : Type} [SqliteFloat F]

/-- `SnapshotVerificationResult` -/
structure Verification (F : Type) where
  snapshotId : Value F
  status : VerificationStatus
  evidenceId : Value F
  persistentRunId : Value F
  evidencePresent : Bool
  evidenceValid : Bool
  indexPresent : Bool
  indexConsistent : Bool
  runPresent : Bool
  runConsistent : Bool
  snapshotRowConsistent : Bool
  entryCountConsistent : Bool
  entryContentConsistent : Bool
  entryOrderConsistent : Bool
  errors : List Issue

/-! ## The row -/

/-- An attribute of the Snapshot as it is compared with the fact: an enumeration by its value. -/
inductive StableField where
  | field (f : SnapshotField)
  | status
  | consistency
  deriving DecidableEq, Repr

/-- `stable` -/
def stable : List StableField :=
  [.field .runId, .status, .consistency, .field .createdAt, .field .startedAt, .field .completedAt,
    .field .configDigest, .field .entryCount, .field .observedCount, .field .errorCount,
    .field .excludedCount, .field .totalRegularFileBytes, .field .maxDepthObserved,
    .field .entriesDigest, .field .snapshotDigest]

def StableField.key : StableField → SnapshotKey
  | .field f => .field f
  | .status => .status
  | .consistency => .consistency

/-- `getattr(snapshot, name) == x or getattr(getattr(snapshot, name), "value", None) == x`: a plain
attribute has no `value`, so `None` matches any. -/
def StableField.matches (s : Snapshot F) (x : Value F) : StableField → Bool
  | .field f => (s.field f).eq x || x.isNone
  | .status => (nameValue s.status).eq x
  | .consistency => (nameValue s.consistency).eq x

def rowConsistent (s : Snapshot F) (fact : List (Text × Value F)) : Bool :=
  stable.all fun n => n.matches s (fieldOf fact n.key)

/-- `d.get(k, {})` -/
def getOrEmpty (fs : List (Text × Value F)) (k : String) : Value F := (lookup fs (txt k)).getD (.dict [])

/-- `evidence.get("payload", {}) if isinstance(evidence, dict) else {}` -/
def evidencePayload (evidence : Value F) : Value F :=
  match evidence with
  | .dict env => getOrEmpty env "payload"
  | _ => .dict []

/-- `payload.get("snapshot", {}) if isinstance(payload, dict) else {}` -/
def factOf (evidence : Value F) : Value F :=
  match evidencePayload evidence with
  | .dict p => getOrEmpty p "snapshot"
  | _ => .dict []

/-- `identity_ok` -/
def identityOk (s : Snapshot F) (snapshotId evidence : Value F) : Except Py.Error Bool := do
  andThen (do pure ((← evidence.callGet (txt "evidence_id")).eq (s.field .evidenceId)))
    (andThen (do pure ((← evidence.callGet (txt "run_id")).eq (s.field .runId)))
      (do pure ((← (factOf evidence).callGet (txt "snapshot_id")).eq snapshotId)))

/-! ## The entries -/

/-- `payload.get("entries", []) if isinstance(payload, dict) else []` -/
def evidenceEntries (evidence : Value F) : Value F :=
  match evidencePayload evidence with
  | .dict p => (lookup p (txt "entries")).getD (.list [])
  | _ => .list []

/-- `(item.get("scope_id"), item.get("relative_path"))` of the items that are objects. -/
def locationsOf (items : List (Value F)) : List (Value F × Value F) :=
  items.filterMap fun item => match item with
    | .dict fs => some (fieldOf fs (EntryKey.field .scopeId), fieldOf fs (EntryKey.field .relativePath))
    | _ => none

/-- Equality of two lists of locations. -/
def sameLocations : List (Value F × Value F) → List (Value F × Value F) → Bool
  | [], [] => true
  | x :: xs, y :: ys => x.1.same y.1 && x.2.same y.2 && sameLocations xs ys
  | _, _ => false

structure EntryChecks where
  count : Bool
  content : Bool
  order : Bool

def compareEntries (entries : Value F) (s : Snapshot F) : Result EntryChecks := do
  let index ← s.entries.mapM entryDict
  let n ← py entries.len
  let items ← py entries.iter
  pure ⟨decide (n = index.length), entries.eq (.list index),
    sameLocations (locationsOf items) (locationsOf index)⟩

/-! ## The Run -/

/-- `ORDER BY sequence`: `NULL` before numbers before text. -/
def sequenceLe : Cell F → Cell F → Bool
  | .null, _ => true
  | _, .null => false
  | .integer m, .integer n => m ≤ n
  | .integer m, .real y => PyFloat.intLe m y
  | .real x, .integer n => PyFloat.leInt x n
  | .real x, .real y => PyFloat.le x y
  | .text s, .text t => Text.utf8 s ≤ Text.utf8 t
  | .text _, _ => false
  | _, .text _ => true

def sequenceRowLe (a b : Row EvidenceColumn F) : Prop := sequenceLe (a .sequence) (b .sequence) = true

instance : DecidableRel (sequenceRowLe (F := F)) := fun _ _ => inferInstanceAs (Decidable (_ = true))

/-- `SELECT … FROM evidence_records WHERE run_id=? ORDER BY sequence` -/
def selectEvidence (ix : Index F) (runId : Value F) : Result (List (Row EvidenceColumn F)) := do
  let rows ← sql (evidenceSchema.select ix.evidenceRecords .runId runId)
  pure (rows.insertionSort sequenceRowLe)

/-- `json.loads((evidence_dir / path).read_text(encoding="utf-8"))` -/
def readDocument (c : Corpus F) (path : Text) : Except Py.Error (Document F) :=
  match c.resolve path with
  | some (.json d) => .ok d
  | some (.raises e) => .error e
  | some .invalid | none => .error .jsonDecodeError

/-- One document of the indexed chain. -/
def chainDocument (c : Corpus F) (row : Row EvidenceColumn F) : Except Py.Error (Value F) := do
  let relative := (row .relativePath).toValue.pyStr
  if relative.startsWith (txt "/") || txt ".." ∈ pathParts relative then throw .valueError
  let d ← readDocument c relative
  if !d.value.isDict || !(d.value.getIf (txt "sequence")).eq (row .sequence).toValue then
    throw .valueError
  pure d.value

/-- The indexed chain; `none` when `except (OSError, ValueError, json.JSONDecodeError)` caught one. -/
def indexedChain (c : Corpus F) (rows : List (Row EvidenceColumn F)) : Result (Option (List (Value F))) :=
  match rows.mapM (chainDocument c) with
  | .ok ds => .ok (some ds)
  | .error e => if e = .osError || e.isValueError then .ok none else .error (.python e)

/-- The documents of the indexed chain of a governed Run, none of any other. -/
def runDocuments (c : Corpus F) (ix : Index F) (runId : Value F) (run : RunRecord F) :
    Result (Option (List (Value F))) := do
  if ← supportedAcquisitionMetadataValid run.metadata run.configDigest then
    indexedChain c (← selectEvidence ix runId)
  else pure (some [])

/-- `run_consistent`, before `except Exception`. -/
def runCompatible (c : Corpus F) (ix : Index F) (s : Snapshot F) : Result Bool := do
  let run ← getRun ix (s.field .runId)
  match ← runDocuments c ix (s.field .runId) run with
  | none => pure false
  | some documents =>
    snapshotRunCompatible (nameValue s.status) run.runKind (nameValue run.status) documents

/-- `(run_present, run_consistent)` -/
def runChecks (c : Corpus F) (ix : Index F) (s : Snapshot F) : Bool × Bool :=
  match runCompatible c ix s with
  | .ok b => (true, b)
  | .error _ => (false, false)

/-! ## The verdict -/

/-- An `INVALID` result for a file that is missing or unreadable. -/
def unreadable (snapshotId : Value F) (s : Snapshot F) (present : Bool) (i : Issue) : Verification F where
  snapshotId := snapshotId
  status := .invalid
  evidenceId := s.field .evidenceId
  persistentRunId := s.field .runId
  evidencePresent := present
  evidenceValid := false
  indexPresent := true
  indexConsistent := false
  runPresent := false
  runConsistent := false
  snapshotRowConsistent := false
  entryCountConsistent := false
  entryContentConsistent := false
  entryOrderConsistent := false
  errors := [i]

/-- The errors a failed flag appends. -/
def errorUnless (ok : Bool) (i : Issue) : List Issue := if ok then [] else [i]

def entryIssues (e : EntryChecks) : List Issue :=
  if !e.count then
    [issue "SNAPSHOT_ENTRY_INDEX_INCOMPLETE" "snapshot entry count differs from evidence"]
  else errorUnless e.content
    (issue "SNAPSHOT_ENTRY_INDEX_INCONSISTENT" "snapshot entry content differs from evidence")

def runIssues (run : Bool × Bool) : List Issue :=
  if !run.1 then [issue "SNAPSHOT_RUN_MISSING" "persistent Run is missing"]
  else errorUnless run.2
    (issue "SNAPSHOT_RUN_STATUS_INVALID" "Run is incompatible with snapshot status")

def statusOf (trusted complete : Bool) : VerificationStatus :=
  if !trusted then .invalid else if complete then .valid else .incomplete

/-- The reuse errors of a valid v2 document; other documents have none. -/
def reuseErrors (c : Corpus F) (verify : Value F → Result VerificationStatus) (s : Snapshot F)
    (evidence : Value F) (valid : Bool) : Result (List Issue) :=
  if valid && snapshotEvidenceSchemaVersion evidence = some 2 then do
    let current ← py (snapshotV2FromValidEvidence evidence (s.field .evidenceRelativePath).pyStr)
    validateSnapshotReuseReferences c verify current
  else .ok []

/-- Everything after the reuse check. -/
def conclude (c : Corpus F) (ix : Index F) (snapshotId : Value F) (s : Snapshot F) (evidence : Value F)
    (intrinsic : Validation) (reuse : List Issue) : Result (Verification F) := do
  let identity ← py (identityOk s snapshotId evidence)
  let row := identity && rowConsistent s (members (factOf evidence))
  let e ← compareEntries (evidenceEntries evidence) s
  let run := runChecks c ix s
  pure {
    snapshotId := snapshotId
    status := statusOf (intrinsic.valid && reuse.isEmpty && identity && run.2)
      (row && e.count && e.content && e.order)
    evidenceId := s.field .evidenceId
    persistentRunId := s.field .runId
    evidencePresent := true
    evidenceValid := intrinsic.valid
    indexPresent := true
    indexConsistent := row && e.count && e.content
    runPresent := run.1
    runConsistent := run.2
    snapshotRowConsistent := row
    entryCountConsistent := e.count
    entryContentConsistent := e.content
    entryOrderConsistent := e.order
    errors := (if intrinsic.valid then [] else intrinsic.errors) ++ reuse ++
      errorUnless identity (issue "SNAPSHOT_ID_MISMATCH" "index and evidence identities differ") ++
      errorUnless row
        (issue "SNAPSHOT_INDEX_INCOMPLETE" "snapshot index metadata differs from evidence") ++
      entryIssues e ++ runIssues run }

/-- Verification of a file that parsed. -/
def verifyDocument (c : Corpus F) (ix : Index F) (verify : Value F → Result VerificationStatus)
    (snapshotId : Value F) (s : Snapshot F) (evidence : Value F) : Result (Verification F) := do
  let intrinsic ← validateSnapshotEvidence evidence
  let reuse ← reuseErrors c verify s evidence intrinsic.valid
  conclude c ix snapshotId s evidence intrinsic reuse

/-- `_verify_snapshot`, with the recursive call as a parameter. -/
def verifyWith (c : Corpus F) (ix : Index F) (verify : Value F → Result VerificationStatus)
    (snapshotId : Value F) : Result (Verification F) := do
  let s ← getSnapshot ix snapshotId
  match c.resolve (s.field .evidenceRelativePath).pyStr with
  | none => pure (unreadable snapshotId s false
      (issue "SNAPSHOT_EVIDENCE_MISSING" "snapshot evidence is missing"))
  | some .invalid => pure (unreadable snapshotId s true
      (issue "SNAPSHOT_EVIDENCE_INVALID" "snapshot evidence cannot be read"))
  | some (.raises e) => throw (.python e)
  | some (.json d) => verifyDocument c ix verify snapshotId s d.value

/-- The status of `_verify_snapshot` with at most `depth` nested calls. -/
def verifyStatus (c : Corpus F) (ix : Index F) : Nat → Value F → Result VerificationStatus
  | 0, _ => .error .stackOverflow
  | depth + 1, id => Verification.status <$> verifyWith c ix (verifyStatus c ix depth) id

/-- `_verify_snapshot` with at most `depth` calls below it. -/
def verifySnapshot (c : Corpus F) (ix : Index F) (depth : Nat) (snapshotId : Value F) :
    Result (Verification F) := verifyWith c ix (verifyStatus c ix depth) snapshotId

end Steward
