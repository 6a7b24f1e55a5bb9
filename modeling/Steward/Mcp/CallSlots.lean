import Steward.Py.Text

/-!
# Call slots

`McpDispatcher.dispatch`: an admitted call takes a slot before its operation is handed
to a worker thread, and the operation gives the slot back when it ends. Calls arrive,
start, end and are cut off in any order. A call that is cut off before its operation
starts keeps its slot.
-/

namespace Steward.Mcp

open Py

/-- What the thread of a call raises. -/
inductive Raised where
  | timeoutError
  | agentContextError (code : Text) (causeCode : Option Text)
  | agentToolError (code : Text)
  | configurationError (code : Text)
  | other

/-- `McpArgumentError`, or any other exception of `_operation`. -/
inductive OperationError where
  | mcpArgumentError
  | other

/-- The dispatcher over arguments `A`, operations `O`, their results `R` and tool results `C`. -/
structure McpDispatcher (A O R C : Type) where
  toolNames : List Text
  maxConcurrentCalls : Int
  /-- `_schema_valid`; an exception of it counts as not valid. -/
  schemaValid : Text → A → Bool
  operation : Text → A → Except OperationError O
  /-- `_success`; `none` when it raises. -/
  success : Text → R → Option C
  error : Text → Text → Option Text → C

/-- The thread of an admitted call: handed over, at work, ended, or never to start. -/
inductive Worker (R : Type) where
  | pending
  | running
  | finished (outcome : Except Raised R)
  | dropped

/-- The task that awaits the thread. -/
inductive Task (C : Type) where
  | awaiting
  | cancelled
  | replied (reply : C)

structure Call (O R C : Type) where
  toolName : Text
  operation : O
  worker : Worker R
  task : Task C

/-- The operation has neither ended nor been cancelled before it started. -/
def Worker.unsettled {R : Type} : Worker R → Bool
  | pending | running => true
  | finished _ | dropped => false

/-- The slot has not been given back. -/
def Worker.keeps {R : Type} : Worker R → Bool
  | finished _ => false
  | _ => true

/-- `abandon_on_cancel=True`: a thread at work runs on, an operation that has not started never does. -/
def Worker.abandoned {R : Type} : Worker R → Worker R
  | pending => dropped
  | worker => worker

structure State (O R C : Type) where
  activeCalls : Int
  calls : List (Call O R C)

def State.start {O R C : Type} : State O R C := ⟨0, []⟩

/-- The admitted calls whose operation is not settled. -/
def State.unsettled {O R C : Type} (s : State O R C) : Nat := s.calls.countP fun c => c.worker.unsettled

inductive Action (A R : Type) where
  | dispatch (toolName : Text) (arguments : A)
  | start (i : Nat)
  | finish (i : Nat) (outcome : Except Raised R)
  | deliver (i : Nat)
  | timeout (i : Nat)
  | cancel (i : Nat)

/-- The call that is acted on. -/
def Action.target {A R : Type} : Action A R → Option Nat
  | dispatch _ _ => none
  | start i | finish i _ | deliver i | timeout i | cancel i => some i

def Action.cutsOff {A R : Type} : Action A R → Bool
  | timeout _ | cancel _ => true
  | _ => false

namespace McpDispatcher

variable {A O R C : Type} (d : McpDispatcher A O R C)

/-- `dispatch` up to its `await`: a reply at once, or the operation. -/
def prepare (toolName : Text) (arguments : A) : Except C O :=
  if toolName ∉ d.toolNames then .error (d.error (txt "unknown") (txt "STEWARD_MCP_TOOL_NOT_FOUND") none)
  else if ¬ d.schemaValid toolName arguments then
    .error (d.error toolName (txt "STEWARD_MCP_ARGUMENT_INVALID") none)
  else match d.operation toolName arguments with
    | .error .mcpArgumentError => .error (d.error toolName (txt "STEWARD_MCP_ARGUMENT_INVALID") none)
    | .error .other => .error (d.error toolName (txt "STEWARD_MCP_UNAVAILABLE") none)
    | .ok operation => .ok operation

def busy (toolName : Text) : C := d.error toolName (txt "STEWARD_MCP_BUSY") none

/-- Under the lock, a slot is taken or the call is refused. -/
def takeSlot (s : State O R C) (toolName : Text) (arguments : A) : Except C (State O R C) := do
  let operation ← d.prepare toolName arguments
  if s.activeCalls ≥ d.maxConcurrentCalls then .error (d.busy toolName)
  else .ok ⟨s.activeCalls + 1, s.calls ++ [⟨toolName, operation, .pending, .awaiting⟩]⟩

/-- What the outcome of the thread is turned into. -/
def reply (toolName : Text) : Except Raised R → C
  | .ok result => (d.success toolName result).getD (d.error toolName (txt "STEWARD_MCP_UNAVAILABLE") none)
  | .error .timeoutError => d.error toolName (txt "STEWARD_MCP_TIMEOUT") none
  | .error (.agentContextError code causeCode) => d.error toolName code causeCode
  | .error (.agentToolError code) => d.error toolName code none
  | .error (.configurationError code) => d.error toolName (txt "STEWARD_MCP_SOURCE_UNAVAILABLE") (some code)
  | .error .other => d.error toolName (txt "STEWARD_MCP_UNAVAILABLE") none

/-- What happens to one call, and what it adds to the count of active calls. -/
def act (c : Call O R C) : Action A R → Option (Call O R C × Int)
  | .dispatch _ _ => none
  | .start _ => match c.worker with
    | .pending => some ({ c with worker := .running }, 0)
    | _ => none
  | .finish _ outcome => match c.worker with
    | .running => some ({ c with worker := .finished outcome }, -1)
    | _ => none
  | .deliver _ => match c.worker, c.task with
    | .finished outcome, .awaiting => some ({ c with task := .replied (d.reply c.toolName outcome) }, 0)
    | _, _ => none
  | .timeout _ => match c.task with
    | .awaiting => some ({ c with
        worker := c.worker.abandoned
        task := .replied (d.error c.toolName (txt "STEWARD_MCP_TIMEOUT") none) }, 0)
    | _ => none
  | .cancel _ => match c.task with
    | .awaiting => some ({ c with worker := c.worker.abandoned, task := .cancelled }, 0)
    | _ => none

/-- The action on the call with a number. -/
def actOn (s : State O R C) (i : Nat) (a : Action A R) : Option (State O R C) := do
  let c ← s.calls[i]?
  let r ← d.act c a
  pure ⟨s.activeCalls + r.2, s.calls.set i r.1⟩

/-- One action; `none` where it cannot happen. A refused call leaves the state alone. -/
def step (s : State O R C) : Action A R → Option (State O R C)
  | .dispatch toolName arguments => match d.takeSlot s toolName arguments with
    | .error _ => some s
    | .ok s' => some s'
  | a => a.target.bind fun i => d.actOn s i a

/-! ## Runs -/

/-- The states of the runs whose actions are all admitted. -/
def Reaches (Admits : State O R C → Action A R → Prop) : State O R C → Prop :=
  Relation.ReflTransGen (fun s s' => ∃ a, d.step s a = some s' ∧ Admits s a) .start

/-- The action cuts off no call whose operation has not started. -/
def Timely (s : State O R C) (a : Action A R) : Prop :=
  a.cutsOff = true → ∀ i c, a.target = some i → s.calls[i]? = some c → c.worker ≠ .pending

/-- The count is that of the unsettled calls, it stays within the bound, and a free dispatcher
admits a valid call. -/
structure Exact (s : State O R C) : Prop where
  active : s.activeCalls = s.unsettled
  bounded : s.activeCalls ≤ d.maxConcurrentCalls
  free : (∀ c ∈ s.calls, c.worker.unsettled = false) → ∀ toolName arguments operation,
    d.prepare toolName arguments = .ok operation → ∃ s', d.takeSlot s toolName arguments = .ok s'

variable {d} {s s' : State O R C} {a : Action A R}

theorem takeSlot_eq_ok {toolName : Text} {arguments : A} (h : d.takeSlot s toolName arguments = .ok s') :
    s.activeCalls < d.maxConcurrentCalls ∧ ∃ operation,
      s' = ⟨s.activeCalls + 1, s.calls ++ [⟨toolName, operation, .pending, .awaiting⟩]⟩ := by
  unfold takeSlot at h
  cases hprepare : d.prepare toolName arguments with
  | error e =>
    rw [hprepare] at h
    cases h
  | ok operation =>
    rw [hprepare] at h
    change (if s.activeCalls ≥ d.maxConcurrentCalls then _ else _) = _ at h
    split_ifs at h with hbusy
    cases h
    exact ⟨not_le.1 hbusy, operation, rfl⟩

theorem takeSlot_of_free {toolName : Text} {arguments : A} {operation : O}
    (h : d.prepare toolName arguments = .ok operation) (hfree : s.activeCalls < d.maxConcurrentCalls) :
    ∃ s', d.takeSlot s toolName arguments = .ok s' := by
  unfold takeSlot
  rw [h]
  exact ⟨_, if_neg (not_le.2 hfree)⟩

/-- An action changes the count by what it changes of the slot of its call, and takes no slot. -/
theorem act_keeps {c : Call O R C} {r : Call O R C × Int} (h : d.act c a = some r) :
    r.2 + (if c.worker.keeps then 1 else 0) = (if r.1.worker.keeps then 1 else 0) ∧ r.2 ≤ 0 := by
  obtain ⟨toolName, operation, worker, task⟩ := c
  cases a with
  | dispatch => cases h
  | start =>
    cases worker <;> cases h
    exact ⟨rfl, le_rfl⟩
  | finish _ outcome =>
    cases worker <;> cases h
    exact ⟨rfl, (by decide : (-1 : Int) ≤ 0)⟩
  | deliver =>
    cases worker <;> cases task <;> cases h
    exact ⟨rfl, le_rfl⟩
  | timeout =>
    cases task <;> cases h
    cases worker <;> exact ⟨rfl, le_rfl⟩
  | cancel =>
    cases task <;> cases h
    cases worker <;> exact ⟨rfl, le_rfl⟩

/-- Only a call that is cut off before it starts is dropped. -/
theorem act_dropped {c : Call O R C} {r : Call O R C × Int} (h : d.act c a = some r)
    (hdropped : r.1.worker = .dropped) : c.worker = .dropped ∨ c.worker = .pending ∧ a.cutsOff = true := by
  obtain ⟨toolName, operation, worker, task⟩ := c
  cases a with
  | dispatch => cases h
  | start =>
    cases worker <;> cases h
    cases hdropped
  | finish _ outcome =>
    cases worker <;> cases h
    cases hdropped
  | deliver =>
    cases worker <;> cases task <;> cases h
    cases hdropped
  | _ =>
    cases task <;> cases h
    cases worker with
    | pending => exact .inr ⟨rfl, rfl⟩
    | dropped => exact .inl rfl
    | _ => cases hdropped

/-- What a step is: a refusal, an admission, or an action on one call. -/
theorem step_cases (h : d.step s a = some s') : s' = s ∨
    (∃ toolName arguments, a = .dispatch toolName arguments ∧ d.takeSlot s toolName arguments = .ok s') ∨
    ∃ i c r, a.target = some i ∧ s.calls[i]? = some c ∧ d.act c a = some r ∧
      s' = ⟨s.activeCalls + r.2, s.calls.set i r.1⟩ := by
  unfold McpDispatcher.step at h
  split at h
  · split at h
    · exact .inl (Option.some.inj h).symm
    · rename_i htakes
      cases h
      exact .inr (.inl ⟨_, _, rfl, htakes⟩)
  · obtain ⟨i, hi, h⟩ := Option.bind_eq_some_iff.1 h
    obtain ⟨c, hc, h⟩ := Option.bind_eq_some_iff.1 h
    obtain ⟨r, hr, h⟩ := Option.bind_eq_some_iff.1 h
    exact .inr (.inr ⟨i, c, r, hi, hc, hr, (Option.some.inj h).symm⟩)

/-- The slots that have been taken and not given back. -/
def kept (s : State O R C) : Nat := s.calls.countP fun c => c.worker.keeps

/-- The count is that of the slots in use, and stays within the bound, whatever is cut off. -/
structure Counted (d : McpDispatcher A O R C) (s : State O R C) : Prop where
  active : s.activeCalls = kept s
  bounded : s.activeCalls ≤ max 0 d.maxConcurrentCalls

theorem Counted.step (h : Counted d s) (hstep : d.step s a = some s') : Counted d s' := by
  obtain rfl | ⟨toolName, arguments, rfl, htakes⟩ | ⟨i, c, r, -, hc, hr, rfl⟩ := step_cases hstep
  · exact h
  · obtain ⟨hfree, operation, rfl⟩ := takeSlot_eq_ok htakes
    refine ⟨?_, by show s.activeCalls + 1 ≤ _; omega⟩
    rw [kept, List.countP_append, List.countP_singleton]
    show s.activeCalls + 1 = ((kept s + 1 : Nat) : Int)
    rw [h.active]
    rfl
  · obtain ⟨hi, hget⟩ := List.getElem?_eq_some_iff.1 hc
    have hcount := List.countP_set (p := fun c : Call O R C => c.worker.keeps) (a := r.1) hi
    obtain ⟨hkeeps, htakes⟩ := act_keeps hr
    have hle := List.boole_getElem_le_countP (p := fun c : Call O R C => c.worker.keeps) hi
    rw [hget] at hcount hle
    have hactive : s.activeCalls + r.2 = kept ⟨s.activeCalls + r.2, s.calls.set i r.1⟩ := by
      rw [h.active]
      show (kept s : Int) + r.2 = ((s.calls.set i r.1).countP fun c => c.worker.keeps : Nat)
      rw [hcount]
      unfold kept
      cases hold : c.worker.keeps <;> cases hnew : r.1.worker.keeps <;>
        simp only [hold, hnew, Bool.false_eq_true, if_false, if_true] at hkeeps hle ⊢ <;> omega
    refine ⟨hactive, ?_⟩
    have hbound := h.bounded
    show s.activeCalls + r.2 ≤ _
    omega

theorem Counted.of_reaches {Admits : State O R C → Action A R → Prop} (h : d.Reaches Admits s) : Counted d s := by
  induction h with
  | refl => exact ⟨rfl, le_max_left _ _⟩
  | tail _ hstep ih =>
    obtain ⟨a, hstep, -⟩ := hstep
    exact ih.step hstep

/-- No operation was cancelled before it started. -/
def Started (s : State O R C) : Prop := ∀ c ∈ s.calls, c.worker ≠ .dropped

theorem Started.step (h : Started s) (hstep : d.step s a = some s') (htimely : Timely s a) : Started s' := by
  obtain rfl | ⟨toolName, arguments, rfl, htakes⟩ | ⟨i, c, r, hi, hc, hr, rfl⟩ := step_cases hstep
  · exact h
  · obtain ⟨-, operation, rfl⟩ := takeSlot_eq_ok htakes
    exact List.forall_mem_append.2 ⟨h, List.forall_mem_singleton.2 nofun⟩
  · intro c' hc'
    rcases List.mem_or_eq_of_mem_set hc' with hc' | rfl
    · exact h c' hc'
    · intro hdropped
      rcases act_dropped hr hdropped with hd | ⟨hpending, hcuts⟩
      · exact h c (List.mem_of_getElem? hc) hd
      · -- the call was cut off before it started
        exact htimely hcuts i c hi hc hpending

theorem Started.of_reaches (h : d.Reaches Timely s) : Started s := by
  induction h with
  | refl => exact List.forall_mem_nil _
  | tail _ hstep ih =>
    obtain ⟨a, hstep, htimely⟩ := hstep
    exact ih.step hstep htimely

/-- Where every operation starts, only unsettled calls keep a slot. -/
theorem Started.kept_eq (h : Started s) : kept s = s.unsettled := by
  refine List.countP_congr fun c hc => ?_
  have hstarted := h c hc
  cases hw : c.worker with
  | dropped => exact absurd hw hstarted
  | _ => simp [Worker.keeps, Worker.unsettled]

/-- The actions in their order; `none` where one of them cannot happen. -/
def runFrom (d : McpDispatcher A O R C) : State O R C → List (Action A R) → Option (State O R C)
  | s, [] => some s
  | s, a :: rest => (d.step s a).bind fun s' => runFrom d s' rest

theorem Reaches.run {Admits : State O R C → Action A R → Prop} {actions : List (Action A R)}
    (hadmits : ∀ a ∈ actions, ∀ s, Admits s a) (h : d.Reaches Admits s) (hrun : runFrom d s actions = some s') :
    d.Reaches Admits s' := by
  induction actions generalizing s with
  | nil =>
    cases hrun
    exact h
  | cons a rest ih =>
    obtain ⟨t, hstep, hrest⟩ := Option.bind_eq_some_iff.1 hrun
    obtain ⟨ha, hadmits⟩ := List.forall_mem_cons.1 hadmits
    exact ih hadmits (Relation.ReflTransGen.tail h ⟨a, hstep, ha s⟩) hrest

end McpDispatcher

/-! ## Four calls that never start -/

namespace Sample

/-- Four slots; a tool result is `none` or the code of an error. -/
def dispatcher : McpDispatcher Unit Unit Unit (Option Text) where
  toolNames := [txt "steward_list_historical_snapshots", txt "steward_prepare_context",
    txt "steward_resolve_historical_entry"]
  maxConcurrentCalls := 4
  schemaValid _ _ := true
  operation _ _ := .ok ()
  success _ _ := some none
  error _ code _ := some code

def listTool : Text := txt "steward_list_historical_snapshots"

/-- Each call is cancelled before its operation starts. -/
def cancellations : List (Action Unit Unit) :=
  [.dispatch listTool (), .cancel 0, .dispatch listTool (), .cancel 1, .dispatch listTool (), .cancel 2,
    .dispatch listTool (), .cancel 3]

def droppedCall : Call Unit Unit (Option Text) := ⟨listTool, (), .dropped, .cancelled⟩

theorem step_dispatch {n : Int} (hn : n < 4) (calls : List (Call Unit Unit (Option Text))) :
    dispatcher.step ⟨n, calls⟩ (.dispatch listTool ()) =
      some ⟨n + 1, calls ++ [⟨listTool, (), .pending, .awaiting⟩]⟩ := by
  have hmem : listTool ∈ dispatcher.toolNames := List.mem_cons_self
  have hprepare : dispatcher.prepare listTool () = .ok () := by
    rw [McpDispatcher.prepare, if_neg (not_not.2 hmem)]
    rfl
  have hfree : ¬ n ≥ dispatcher.maxConcurrentCalls := not_le.2 hn
  have htaken : dispatcher.takeSlot ⟨n, calls⟩ listTool () =
      .ok ⟨n + 1, calls ++ [⟨listTool, (), .pending, .awaiting⟩]⟩ := by
    rw [McpDispatcher.takeSlot, hprepare]
    exact if_neg hfree
  rw [McpDispatcher.step, htaken]

theorem run_cancellations : McpDispatcher.runFrom dispatcher .start cancellations =
    some ⟨4, List.replicate 4 droppedCall⟩ := by
  rw [cancellations, McpDispatcher.runFrom, State.start, step_dispatch (by decide)]
  rfl

/-- A call whose operation starts and returns. -/
def completion : List (Action Unit Unit) := [.dispatch listTool (), .start 0, .finish 0 (.ok ()), .deliver 0]

theorem run_completion : McpDispatcher.runFrom dispatcher .start completion =
    some ⟨0, [⟨listTool, (), .finished (.ok ()), .replied none⟩]⟩ := by
  rw [completion, McpDispatcher.runFrom, State.start, step_dispatch (by decide)]
  rfl

end Sample

end Steward.Mcp
