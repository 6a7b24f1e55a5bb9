import Steward.Py.Assoc

/-!
# The turn state of the lifecycle hooks

What one invocation of a hook does to the state file of its turn, under the
file's lock: the pre-tool and post-tool hooks record the workspace they
observed and the event of their tool, the stop hook publishes the turn and
removes the file, or keeps it once to have the receipt delivered.
-/

namespace Steward.Workspace.Hooks

open Py

def maxEvents : Nat := 128

/-- What `_observe_workspace` returns, as far as the turn state looks at it.
`taken` is when it was observed; the file does not hold it. -/
structure WorkspaceState where
  workspaceId : Text
  stateDigest : Text
  taken : Nat
  deriving DecidableEq, Repr

structure WorkspaceRecord where
  workspaceRootPrivate : Text
  baseline : WorkspaceState
  latest : WorkspaceState
  deriving DecidableEq, Repr

/-- The outcome of a tool, as `_post_tool_use` derives it from the response. -/
structure ToolResult where
  resultStatus : Text
  exitCode : Option Int
  outputSha256 : Option Text
  outputDigestStatus : Text
  deriving DecidableEq, Repr

def pending : ToolResult := ⟨txt "PENDING", none, none, txt "PENDING"⟩

/-- A tool call, as both hooks derive it from their payload; `eventId` is the
signature of its `tool_use_id`. -/
structure ToolCall where
  eventId : Text
  toolName : Text
  validationChecks : List Text
  inputSha256 : Option Text
  inputDigestStatus : Text
  deriving DecidableEq, Repr

structure Event where
  call : ToolCall
  workspaceId : Text
  operationKind : Text
  result : ToolResult
  preflightObserved : Bool
  deriving DecidableEq, Repr

def Event.eventId (e : Event) : Text := e.call.eventId

/-- The session, the turn and the generation of the hooks. -/
structure TurnIdentity where
  sessionSignature : Text
  turnSignature : Text
  hookGenerationSha256 : Text
  deriving DecidableEq, Repr

structure TurnState where
  identity : TurnIdentity
  workspaces : List (Text × WorkspaceRecord)
  events : List Event
  deliveryInjected : Bool
  deriving DecidableEq, Repr

/-- `_empty_turn_state` -/
def emptyTurnState (identity : TurnIdentity) : TurnState := ⟨identity, [], [], false⟩

/-- `_load_turn_state`: a missing file, or one of another turn or generation, is an empty state. -/
def loadTurnState (identity : TurnIdentity) : Option TurnState → TurnState
  | some state => if state.identity = identity then state else emptyTurnState identity
  | none => emptyTurnState identity

/-! ## The workspaces -/

/-- `_workspace_record` on `workspaces`: the first observation of a workspace stays
its baseline. -/
def workspaceRecord (workspaces : List (Text × WorkspaceRecord)) (root : Text)
    (observed : WorkspaceState) : List (Text × WorkspaceRecord) :=
  match lookup workspaces observed.workspaceId with
  | none => workspaces ++ [(observed.workspaceId, ⟨root, observed, observed⟩)]
  | some _ => workspaces.map fun w =>
    if w.1 = observed.workspaceId then (w.1, { w.2 with latest := observed }) else w

theorem lookup_append {ws vs : List (Text × WorkspaceRecord)} {id : Text} :
    lookup (ws ++ vs) id = (lookup ws id).or (lookup vs id) := by
  induction ws with
  | nil => rfl
  | cons w ws ih =>
    obtain ⟨k, v⟩ := w
    rw [List.cons_append, lookup_cons, lookup_cons, ih]
    split_ifs <;> rfl

/-- An update of the records that keeps ids and baselines keeps the baseline of every id. -/
theorem baseline_map {f : Text × WorkspaceRecord → Text × WorkspaceRecord}
    (hf : ∀ w, (f w).1 = w.1 ∧ (f w).2.baseline = w.2.baseline)
    (ws : List (Text × WorkspaceRecord)) (id : Text) :
    (lookup (ws.map f) id).map WorkspaceRecord.baseline =
      (lookup ws id).map WorkspaceRecord.baseline := by
  induction ws with
  | nil => rfl
  | cons w ws ih =>
    have hw : f w = (w.1, (f w).2) := Prod.ext (hf w).1 rfl
    rw [List.map_cons, hw, lookup_cons, lookup_cons]
    split_ifs
    · simp [(hf w).2]
    · exact ih

/-- The baseline of a workspace is set once. -/
theorem baseline_workspaceRecord (ws : List (Text × WorkspaceRecord)) (root : Text)
    (observed : WorkspaceState) (id : Text) :
    (lookup (workspaceRecord ws root observed) id).map WorkspaceRecord.baseline =
      ((lookup ws id).map WorkspaceRecord.baseline).or
        (if observed.workspaceId = id then some observed else none) := by
  unfold workspaceRecord
  cases h : lookup ws observed.workspaceId with
  | none =>
    simp only [lookup_append, lookup_cons]
    by_cases hid : observed.workspaceId = id
    · subst hid; simp [h]
    · cases lookup ws id <;> simp [hid]
  | some w =>
    simp only
    rw [baseline_map (fun w => by split_ifs <;> exact ⟨rfl, rfl⟩)]
    by_cases hid : observed.workspaceId = id
    · subst hid; simp [h]
    · simp [hid]

/-! ## The events -/

/-- The last `MAX_EVENTS` events stay. -/
def truncateEvents (events : List Event) : List Event := events.drop (events.length - maxEvents)

def hasEvent (events : List Event) (id : Text) : Bool := events.any fun e => e.eventId = id

def newEvent (call : ToolCall) (workspaceId : Text) (result : ToolResult) (preflight : Bool) :
    Event where
  call := call
  workspaceId := workspaceId
  operationKind := if call.toolName = txt "apply_patch" then txt "EDIT" else txt "COMMAND"
  result := result
  preflightObserved := preflight

/-- `event.update(…)` on the first event of that id. -/
def recordResult (id : Text) (result : ToolResult) : List Event → List Event
  | [] => []
  | e :: es =>
    if e.eventId = id then { e with result := result } :: es else e :: recordResult id result es

/-- The events after the locked part of `_pre_tool_use`. -/
def preEvents (events : List Event) (call : ToolCall) (workspaceId : Text) : List Event :=
  truncateEvents (if hasEvent events call.eventId then events
    else events ++ [newEvent call workspaceId pending true])

/-- The events after the locked part of `_post_tool_use`. -/
def postEvents (events : List Event) (call : ToolCall) (workspaceId : Text) (result : ToolResult) :
    List Event :=
  truncateEvents (if hasEvent events call.eventId then recordResult call.eventId result events
    else events ++ [newEvent call workspaceId result false])

/-! ## The hooks -/

/-- One invocation of a tool hook; without a result it is the pre-tool hook. -/
structure ToolUse where
  call : ToolCall
  result : Option ToolResult
  deriving DecidableEq, Repr

/-- The locked part of `_pre_tool_use`, up to the save. -/
def preToolUse (identity : TurnIdentity) (call : ToolCall) (root : Text)
    (observed : WorkspaceState) (file : Option TurnState) : TurnState :=
  let state := loadTurnState identity file
  { state with
    workspaces := workspaceRecord state.workspaces root observed
    events := preEvents state.events call observed.workspaceId }

/-- The locked part of `_post_tool_use`, up to the save. -/
def postToolUse (identity : TurnIdentity) (call : ToolCall) (result : ToolResult) (root : Text)
    (observed : WorkspaceState) (file : Option TurnState) : TurnState :=
  let state := loadTurnState identity file
  { state with
    workspaces := workspaceRecord state.workspaces root observed
    events := postEvents state.events call observed.workspaceId result }

def ToolUse.apply (identity : TurnIdentity) (use : ToolUse) (root : Text)
    (observed : WorkspaceState) (file : Option TurnState) : TurnState :=
  match use.result with
  | none => preToolUse identity use.call root observed file
  | some result => postToolUse identity use.call result root observed file

/-- One workspace in `_refresh_workspace_records`: `final` is its observation at the
end, if there is one. The flag is whether it counts as `CHANGED`. -/
def refreshWorkspace (final : Text → Option WorkspaceState) (w : Text × WorkspaceRecord) :
    (Text × WorkspaceRecord) × Bool :=
  match final w.2.workspaceRootPrivate with
  | none => (w, false)
  | some latest =>
    if latest.workspaceId ≠ w.1 then (w, false)
    else ((w.1, { w.2 with latest := latest }), w.2.baseline.stateDigest ≠ latest.stateDigest)

/-- What `_stop` leaves of the file, once its receipt is persisted. -/
inductive Stopped where
  | untouched
  | saved (state : TurnState)
  | removed
  deriving DecidableEq, Repr

/-- `_stop` -/
def stop (identity : TurnIdentity) (stopHookActive : Bool) (final : Text → Option WorkspaceState) :
    Option TurnState → Stopped
  | none => .untouched
  | some state =>
    if state.identity.sessionSignature ≠ identity.sessionSignature then .untouched
    else
      let refreshed := state.workspaces.map (refreshWorkspace final)
      let changed := refreshed.any Prod.snd
      if changed ∧ stopHookActive = false ∧ state.deliveryInjected = false then
        .saved { state with workspaces := refreshed.map Prod.fst, deliveryInjected := true }
      else .removed

/-- Refreshing keeps the baselines. -/
theorem baseline_refresh (final : Text → Option WorkspaceState)
    (ws : List (Text × WorkspaceRecord)) (id : Text) :
    (lookup ((ws.map (refreshWorkspace final)).map Prod.fst) id).map WorkspaceRecord.baseline =
      (lookup ws id).map WorkspaceRecord.baseline := by
  rw [List.map_map]
  refine baseline_map (fun w => ?_) ws id
  unfold Function.comp refreshWorkspace
  split
  · exact ⟨rfl, rfl⟩
  · split_ifs <;> exact ⟨rfl, rfl⟩

end Steward.Workspace.Hooks
