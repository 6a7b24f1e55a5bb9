import Steward.Snapshot.FieldTests
import Steward.StateMachine

/-!
# Snapshot/Run lifecycle

`snapshot_lifecycle.py`: which Run states a Snapshot status is compatible with,
and the governed acquisition runs that must also prove their ledger.
-/

namespace Steward

open Py Sqlite

variable {F : Type} [SqliteFloat F]

/-- Return the only Snapshot-compatible observation status. -/
def expectedRunStatus (snapshotStatus : Value F) : Option RunStatus :=
  if snapshotStatus.eq (nameValue SnapshotStatus.complete) then some .scanned
  else if snapshotStatus.eq (nameValue SnapshotStatus.partialStatus) then some .partialStatus
  else none

/-! ## Governed acquisition metadata -/

def metadataKeys : List Text :=
  [txt "workflow", txt "workflow_version", txt "scope_binding", txt "scan_budget",
    txt "payload_hash_policy"]

def bindingKeys : List Text :=
  [txt "scope_id", txt "role", txt "device_id", txt "inode", txt "follow_directory_symlinks",
    txt "allow_cross_mount", txt "binding_digest"]

/-- Bind one path-free scope identity to the immutable Run configuration fact. -/
def scopeBindingDigest (configDigest : Value F) (binding : List (Text × Value F)) : Result Text :=
  digestOf (.dict ([(txt "domain", lit "local_steward.snapshot_acquisition.scope_binding.v1"),
      (txt "config_digest", configDigest)] ++
    ([txt "scope_id", txt "role", txt "device_id", txt "inode", txt "follow_directory_symlinks",
      txt "allow_cross_mount"].map fun k => (k, Value.get binding k))))

def isFalse : Value F → Bool
  | .bool b => !b
  | _ => false

/-- The tests on the binding before its role is hashed. -/
def bindingHead (binding : List (Text × Value F)) : Bool :=
  hasKeys bindingKeys binding &&
    (match Value.get binding (txt "scope_id") with
      | .str s => !s.isEmpty
      | _ => false)

def bindingTail (binding : List (Text × Value F)) : Bool :=
  isNonnegativeInt (Value.get binding (txt "device_id")) &&
    isNonnegativeInt (Value.get binding (txt "inode")) &&
    isFalse (Value.get binding (txt "follow_directory_symlinks")) &&
    isFalse (Value.get binding (txt "allow_cross_mount")) &&
    isSha256Hex (Value.get binding (txt "binding_digest"))

/-- `math.isfinite(float(d)) and 0 < float(d) <= 600`, for a number that is not a boolean. -/
def durationInRange : Value F → Result Bool
  | .int n => match PyFloat.ofInt (F := F) n with
    | some _ => .ok (0 < n && n ≤ 600)
    | none => .error (.python .overflowError)
  | .float x => .ok (PyFloat.isFinite x && PyFloat.isPositive x && PyFloat.leInt x 600)
  | _ => .ok false

def scanBudgetValid (budget : Value F) : Result Bool :=
  match budget with
  | .dict b =>
    if hasKeys (memberNames BudgetKey) b &&
        isIntWith (fun n => 1 ≤ n && n ≤ 1000000) (fieldOf b BudgetKey.maxEntries) then
      andThen (durationInRange (fieldOf b BudgetKey.maxDurationSeconds))
        (.ok (isOptionalNonnegativeInt (fieldOf b BudgetKey.maxTotalStatBytes) &&
          isOptionalNonnegativeInt (fieldOf b BudgetKey.maxDepth)))
    else .ok false
  | _ => .ok false

def scopeBindingValid (configDigest binding : Value F) : Result Bool :=
  match binding with
  | .dict b =>
    if bindingHead b then
      andThen (py ((Value.get b (txt "role")).memStrs [txt "managed_root", txt "reference_root"]))
        (if bindingTail b then do
          let expected ← scopeBindingDigest configDigest b
          pure ((Value.get b (txt "binding_digest")).eq (.str expected))
        else .ok false)
    else .ok false
  | _ => .ok false

/-- Recognize only the exact path-free workflow-v1 authority marker. -/
def supportedAcquisitionMetadataValid (metadata configDigest : Value F) : Result Bool :=
  match metadata with
  | .dict m =>
    if hasKeys metadataKeys m &&
        (Value.get m (txt "workflow")).eq (lit "supported_snapshot_acquisition") &&
        isIntWith (· = 1) (Value.get m (txt "workflow_version")) &&
        (Value.get m (txt "payload_hash_policy")).isNone && isSha256Hex configDigest then
      andThen (scopeBindingValid configDigest (Value.get m (txt "scope_binding")))
        (scanBudgetValid (Value.get m (txt "scan_budget")))
    else .ok false
  | _ => .ok false

/-- Return the immutable metadata/config facts from the first ledger document. -/
def runCreatedMetadata (documents : List (Value F)) : Result (Value F × Value F) :=
  match documents with
  | [] => .ok (.none, .none)
  | first :: _ => do
    let payload ← py (first.callGet (txt "payload"))
    let configDigest ← py (first.callGet (txt "config_digest"))
    pure (payload.getIf (txt "metadata"), configDigest)

def isSupportedAcquisitionRun (documents : List (Value F)) : Result Bool := do
  let facts ← runCreatedMetadata documents
  andThen (supportedAcquisitionMetadataValid facts.1 facts.2)
    (.ok (match documents with
      | [] => false
      | first :: _ =>
        let payload := first.getIf (txt "payload")
        (first.getIf (txt "evidence_type")).eq (lit "run.created") &&
          (payload.getIf (txt "run_kind")).eq (lit "filesystem.snapshot") &&
          (payload.getIf (txt "initial_status")).eq (nameValue RunStatus.created)))

/-! ## Ledgers as documents -/

/-- The `(from_status, to_status)` pairs; empty when one is malformed. -/
def transitionPairs (documents : List (Value F)) : Result (List (Text × Text)) := do
  let types ← documents.mapM fun d => py (d.callGet (txt "evidence_type"))
  let transitions := ((documents.zip types).filter
    fun d => d.2.eq (lit "run.state_transition")).map fun d => d.1.getIf (txt "payload")
  let pair (p : Value F) : Option (Text × Text) := do
    let before ← str? (p.getIf (txt "from_status"))
    let after ← str? (p.getIf (txt "to_status"))
    pure (before, after)
  pure ((transitions.mapM pair).getD [])

/-- The per-document tests of `_supported_ledger_integrity`. -/
def ledgerLink (runId configDigest previous : Value F) (sequence : Nat) (ids digests : List Text)
    (document : Value F) : Result Bool :=
  match document with
  | .dict fs =>
    match Value.get fs (txt "evidence_id"), Value.get fs (txt "evidence_digest") with
    | .str i, .str d =>
      if (Value.get fs (txt "run_id")).eq runId && (Value.get fs (txt "config_digest")).eq configDigest &&
          (Value.get fs (txt "sequence")).eq (.int sequence) &&
          (Value.get fs (txt "previous_evidence_digest")).eq previous && i ∉ ids && d ∉ digests then do
        pure (decide ((← digest fs) = d))
      else .ok false
    | _, _ => .ok false
  | _ => .error (.python .attributeError)

def ledgerLinks (runId configDigest : Value F) :
    Value F → Nat → List Text → List Text → List (Value F) → Result Bool
  | _, _, _, _, [] => .ok true
  | previous, sequence, ids, digests, d :: ds =>
    andThen (ledgerLink runId configDigest previous sequence ids digests d)
      (ledgerLinks runId configDigest (d.getIf (txt "evidence_digest")) (sequence + 1)
        ((str? (d.getIf (txt "evidence_id"))).toList ++ ids)
        ((str? (d.getIf (txt "evidence_digest"))).toList ++ digests) ds)

def supportedLedgerIntegrity (documents : List (Value F)) : Result Bool :=
  match documents with
  | [] => .ok false
  | first :: _ => do
    let runId ← py (first.callGet (txt "run_id"))
    let configDigest ← py (first.callGet (txt "config_digest"))
    ledgerLinks runId configDigest .none 1 [] [] documents

/-! ## Compatibility -/

def statusPair (a b : RunStatus) : Text × Text := (Named.name a, Named.name b)

/-- The transitions of a governed Run that reached `expected`. -/
def requiredPairs (expected : RunStatus) : List (Text × Text) :=
  [statusPair .created .scanning, statusPair .scanning expected, statusPair expected .verifying]

def snapshotEvidenceCount (documents : List (Value F)) : Result Nat := do
  let types ← documents.mapM fun d => py (d.callGet (txt "evidence_type"))
  pure (types.countP (·.eq (lit "filesystem.snapshot")))

/-- Accept legacy final states and only chain-proven workflow-v1 closure states. -/
def snapshotRunCompatible (snapshotStatus runKind finalStatus : Value F)
    (documents : List (Value F)) : Result Bool :=
  match expectedRunStatus snapshotStatus with
  | none => .ok false
  | some expected =>
    if !runKind.eq (lit "filesystem.snapshot") then .ok false
    else if finalStatus.eq (nameValue expected) then do
      let supported ← isSupportedAcquisitionRun documents
      if supported then
        andThen (supportedLedgerIntegrity documents) (do
          let pairs ← transitionPairs documents
          pure (decide (pairs = (requiredPairs expected).take 2)))
      else pure true
    else
      andThen (py (finalStatus.memStrs (names [RunStatus.verifying, .verified])))
        (andThen (isSupportedAcquisitionRun documents)
        (andThen (supportedLedgerIntegrity documents)
        (andThen (do pure (decide ((← snapshotEvidenceCount documents) = 1))) (do
          let pairs ← transitionPairs documents
          if finalStatus.eq (nameValue RunStatus.verifying) then
            pure (decide (pairs = requiredPairs expected))
          else
            pure (decide (pairs = requiredPairs expected ++ [statusPair .verifying .verified]))))))

end Steward
