import Steward.Py.Stateful
import Steward.Snapshot.Lookup

/-!
# Entry references

The two functions that resolve one location of a Snapshot:
`steward_resolve_entry_reference` of the Agent facade, under the budget of its
turn, and `TaskObjectMemory.remember_entry` of a session. The size of a result
and the time a call took are parameters; only the budget reads them.
-/

namespace Steward.Session

open Py Sqlite

variable {F : Type} [SqliteFloat F]

/-! ## The tool budget -/

structure ToolBudgetLimits where
  maxStewardCallsPerTurn : Option Nat
  maxItemsPerCall : Option Nat
  maxItemsPerTurn : Option Nat
  maxSerializedBytesPerCall : Option Nat
  maxSerializedBytesPerTurn : Option Nat
  maxDepth : Option Nat
  maxElapsedMsPerCall : Option Nat
  maxElapsedMsPerTurn : Option Nat

structure ToolBudgetUsage where
  calls : Nat
  items : Nat
  serializedBytes : Nat
  elapsedMs : Nat

structure SharedToolBudget where
  limits : ToolBudgetLimits
  usage : ToolBudgetUsage

/-- A facade-local safe error. -/
structure AgentToolError where
  code : Text
  message : Text
  deriving DecidableEq, Repr

def toolError (code message : String) : AgentToolError := ⟨txt code, txt message⟩

def exhausted (message : String) : AgentToolError := toolError "BUDGET_EXHAUSTED" message

/-- `limit is not None and used > limit` -/
def exceeds (limit : Option Nat) (used : Nat) : Bool := limit.any (· < used)

def SharedToolBudget.beginCall (b : SharedToolBudget) (depth : Option Nat) :
    Except AgentToolError SharedToolBudget := do
  if depth.any (exceeds b.limits.maxDepth) then
    throw (toolError "QUERY_TOO_BROAD" "depth exceeds the configured tool budget")
  if b.limits.maxStewardCallsPerTurn.any (· ≤ b.usage.calls) then
    throw (exhausted "the per-turn tool-call budget is exhausted")
  pure { b with usage.calls := b.usage.calls + 1 }

/-- `min(capped, limit)` for a limit that is there. -/
def capped (limit : Option Nat) (n : Nat) : Nat := limit.elim n (min n)

def SharedToolBudget.effectiveLimit (b : SharedToolBudget) (requested : Option Nat) :
    Except AgentToolError (Option Nat × Bool) :=
  match requested with
  | none => pure (none, false)
  | some n =>
    let left := b.limits.maxItemsPerTurn.map fun m => m - b.usage.items
    let effective := capped left (capped b.limits.maxItemsPerCall n)
    if effective < 1 then throw (exhausted "the item budget is exhausted")
    else pure (some effective, decide (effective ≠ n))

def SharedToolBudget.consumeResult (b : SharedToolBudget) (items serializedBytes elapsedMs : Nat) :
    Except AgentToolError SharedToolBudget := do
  let used : ToolBudgetUsage := ⟨b.usage.calls, b.usage.items + items,
    b.usage.serializedBytes + serializedBytes, b.usage.elapsedMs + elapsedMs⟩
  if exceeds b.limits.maxItemsPerCall items then
    throw (exhausted "the per-call item budget is exhausted")
  if exceeds b.limits.maxSerializedBytesPerCall serializedBytes then
    throw (exhausted "the per-call serialized-byte budget is exhausted")
  if exceeds b.limits.maxSerializedBytesPerTurn used.serializedBytes then
    throw (exhausted "the per-turn serialized-byte budget is exhausted")
  if exceeds b.limits.maxElapsedMsPerCall elapsedMs then
    throw (exhausted "the per-call elapsed-time budget is exhausted")
  if exceeds b.limits.maxElapsedMsPerTurn used.elapsedMs then
    throw (exhausted "the per-turn elapsed-time budget is exhausted")
  if exceeds b.limits.maxItemsPerTurn used.items then
    throw (exhausted "the per-turn item budget is exhausted")
  pure { b with usage := used }

/-- A budget operation on the shared budget. -/
def charge (f : SharedToolBudget → Except AgentToolError SharedToolBudget) :
    Stateful SharedToolBudget AgentToolError Unit := do
  let b ← Stateful.get
  let used ← Stateful.lift (f b)
  Stateful.modify fun _ => used

/-! ## The facade -/

def notFound : AgentToolError := toolError "SNAPSHOT_NOT_FOUND" "the requested Snapshot does not exist"

def unavailable : AgentToolError :=
  toolError "HISTORICAL_SOURCE_UNAVAILABLE" "the historical query is unavailable"

def notResolved : AgentToolError :=
  toolError "ENTRY_REFERENCE_NOT_FOUND" "the historical Entry reference does not resolve"

/-- `_safe_call` -/
def safeCall {α : Type} (action : Result α) : Except AgentToolError α :=
  match action with
  | .ok a => .ok a
  | .error (.steward .snapshotNotFoundError) => .error notFound
  | .error (.steward .snapshotBudgetError) | .error (.steward .snapshotScopeError)
  | .error (.steward .structureError) | .error (.steward .duplicateAnalysisError)
  | .error (.steward .relationError) =>
    .error (toolError "INVALID_ARGUMENT" "the historical query arguments are invalid")
  | .error (.python e) =>
    if e.isValueError then
      .error (toolError "INVALID_ARGUMENT" "the historical query arguments are invalid")
    else .error unavailable
  | .error _ => .error unavailable

/-- `_verification` -/
def verification (c : Corpus F) (ix : Index F) (depth : Nat) (snapshotId : Text) :
    Except AgentToolError (Verification F) :=
  match verifySnapshot c ix depth (.str snapshotId) with
  | .ok v =>
    if v.status = .valid then .ok v
    else .error (toolError "SNAPSHOT_NOT_VALID" "the requested Snapshot is not VALID")
  | .error (.steward .snapshotNotFoundError) => .error notFound
  | .error _ =>
    .error (toolError "HISTORICAL_SOURCE_UNAVAILABLE" "Snapshot verification is unavailable")

/-- `_validate_scope` -/
def validateScope (ix : Index F) (snapshotId : Text) : Option Text → Except AgentToolError Unit
  | none => pure ()
  | some scopeId => do
    let summaries ← safeCall (listSnapshots ix none)
    match summaries.find? fun item => item.snapshotId.eq (.str snapshotId) with
    | none => throw notFound
    | some summary =>
      if !holdsText summary.scopeIds scopeId then
        throw (toolError "INVALID_ARGUMENT" "scope_id is not present in the requested Snapshot")

/-- A component that is empty, `.` or `..`. -/
def hierarchyInvalid (path : Text) : Bool :=
  (Path.components path).any fun part => part = [] || part = txt "." || part = txt ".."

/-- `_validate_relative_path` of the facade. -/
def validateRelativePath (path : Option Text) (field : Text) : Except AgentToolError Unit :=
  match path with
  | none => pure ()
  | some path => do
    if path = [] || path.startsWith (txt "/") then
      throw ⟨txt "INVALID_ARGUMENT", field ++ txt " must be a scoped relative path"⟩
    if path ≠ txt "." && hierarchyInvalid path then
      throw ⟨txt "INVALID_ARGUMENT", field ++ txt " hierarchy is invalid"⟩

/-- The `result` of a resolved reference. -/
structure EntryResolution (F : Type) where
  verification : Verification F
  snapshotId : Text
  scopeId : Text
  relativePath : Text
  entry : Entry F
  currentFactRequiresRecheck : Bool
  recommendedRealtimeQuery : Text

/-- The parts of an `AgentToolEnvelope` that depend on the call. -/
structure AgentToolEnvelope (F : Type) where
  toolName : Text
  snapshotIds : List Text
  scopeId : Option Text
  result : EntryResolution F
  entriesExamined : Option Nat
  entriesReturned : Option Nat
  serializedBytes : Nat
  elapsedMs : Nat

/-- `steward_resolve_entry_reference`; `size` is the length of a result's canonical JSON. -/
def stewardResolveEntryReference (c : Corpus F) (ix : Index F) (depth : Nat)
    (size : EntryResolution F → Nat) (elapsed : Nat) (snapshotId scopeId relativePath : Text) :
    Stateful SharedToolBudget AgentToolError (AgentToolEnvelope F) := do
  Stateful.lift (validateScope ix snapshotId (some scopeId))
  Stateful.lift (validateRelativePath (some relativePath) (txt "relative_path"))
  let budget ← Stateful.get
  let _ ← Stateful.lift (budget.effectiveLimit (some 1))
  charge fun b => b.beginCall none
  let verified ← Stateful.lift (verification c ix depth snapshotId)
  let page ← Stateful.lift
    (safeCall (listSnapshotEntries ix (.str snapshotId) (atLocation scopeId relativePath) 2 0))
  match page.entries.filter (·.hasPath relativePath) with
  | [entry] =>
    let result : EntryResolution F := ⟨verified, snapshotId, scopeId, relativePath, entry, true,
      txt "filesystem_metadata_or_search"⟩
    charge fun b => b.consumeResult 1 (size result) elapsed
    pure ⟨txt "steward_resolve_entry_reference", [snapshotId], some scopeId, result, some 1, some 1,
      size result, elapsed⟩
  | _ => Stateful.raise notResolved

/-! ## The task memory -/

/-- What `remember_entry` raises; `raised` is an exception it lets through. -/
inductive SessionError where
  | pathResolution (message : Text)
  | selectionNotFound (message : Text)
  | taskReference (message : Text)
  | raised (e : Exc)
  deriving DecidableEq, Repr

inductive TaskObjectKind where
  | snapshot
  | run
  | scope
  | entry
  deriving DecidableEq, Repr

def TaskObjectKind.value : TaskObjectKind → Text
  | snapshot => txt "SNAPSHOT"
  | run => txt "RUN"
  | scope => txt "SCOPE"
  | entry => txt "ENTRY"

structure TaskObjectReference where
  referenceId : Text
  authorityDomainDigest : Text
  kind : TaskObjectKind
  objectId : Text
  snapshotId : Option Text
  scopeId : Option Text
  relativePath : Option Text
  deriving DecidableEq, Repr

/-- `TaskObjectMemory`; both digests are hexadecimal. -/
structure TaskObjectMemory where
  taskDigest : Text
  authorityDomainDigest : Text
  references : List (Text × TaskObjectReference)
  taskDigest_encodable : taskDigest.encodable = true
  authorityDomainDigest_encodable : authorityDomainDigest.encodable = true

/-- `_MAX_PATH_BYTES` -/
def maxPathBytes : Nat := 16384

/-- `_bounded_utf8` -/
def boundedUtf8 (value : Text) (maximum : Nat) : Bool :=
  value.encode.any fun bytes => bytes.length ≤ maximum

/-- The paths `ScopeBinding.resolve_relative_path` takes. -/
def bindingAdmits (path : Text) : Bool :=
  !(path = [] || path.startsWith (txt "/") || ch '\x00' ∈ path || hierarchyInvalid path)

/-- `_validate_relative_path` of the session. -/
def admitsRelativePath (path : Text) : Bool := boundedUtf8 path maxPathBytes && bindingAdmits path

/-- `None` or the text. -/
def textOrNull (t : Option Text) : Value F := t.elim .none .str

/-- The digested payload of a reference. -/
def referencePayload (m : TaskObjectMemory) (kind : TaskObjectKind) (objectId : Text)
    (snapshotId scopeId relativePath : Option Text) : Value F :=
  .dict [(txt "domain", .str (txt "local_steward.task_object_reference.v1")),
    (txt "task_digest", .str m.taskDigest),
    (txt "authority_domain_digest", .str m.authorityDomainDigest),
    (txt "kind", .str kind.value), (txt "object_id", .str objectId),
    (txt "snapshot_id", textOrNull snapshotId), (txt "scope_id", textOrNull scopeId),
    (txt "relative_path", textOrNull relativePath)]

def raising {S α : Type} (x : Result α) : Stateful S SessionError α := Stateful.lift (x.mapError .raised)

/-- `_record` -/
def recordReference (F : Type) [SqliteFloat F] (kind : TaskObjectKind) (objectId : Text)
    (snapshotId scopeId relativePath : Option Text) :
    Stateful TaskObjectMemory SessionError TaskObjectReference := do
  let m ← Stateful.get
  let referenceId ← raising
    (digestOf (F := F) (referencePayload m kind objectId snapshotId scopeId relativePath))
  let reference : TaskObjectReference := ⟨referenceId, m.authorityDomainDigest, kind, objectId,
    snapshotId, scopeId, relativePath⟩
  Stateful.modify fun m => { m with
    references := without [referenceId] m.references ++ [(referenceId, reference)] }
  pure reference

/-- `TaskObjectMemory.remember_entry` -/
def rememberEntry (c : Corpus F) (ix : Index F) (depth : Nat) (snapshotId scopeId relativePath : Text) :
    Stateful TaskObjectMemory SessionError TaskObjectReference := do
  if !admitsRelativePath relativePath then
    Stateful.raise (.pathResolution (txt "Scope-relative path is invalid"))
  let (verified, snapshot, page) ← raising
    (verifiedSnapshotEntries c ix depth (.str snapshotId) (atLocation scopeId relativePath) 1 0)
  if verified.status ≠ .valid then
    Stateful.raise (.taskReference (txt "Entry Snapshot is not authoritatively VALID"))
  let exact := page.entries.find? fun item => item.inScope scopeId && item.hasPath relativePath
  if exact.isNone || !holdsText snapshot.scopeIds scopeId then
    Stateful.raise (.selectionNotFound (txt "task Entry does not exist"))
  let objectId ← raising (py (entryId (F := F) snapshotId scopeId relativePath))
  recordReference F .entry objectId (some snapshotId) (some scopeId) (some relativePath)

end Steward.Session
