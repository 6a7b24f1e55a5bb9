import Steward.Agent.Budget

/-!
# The shared tool budget

`SharedToolBudget`: the limits of one execution context, and what its calls have used.
An operation raises and leaves the usage alone, or returns a new one.
-/

namespace Steward.Agent

open Py

/-- `AgentToolError` -/
structure AgentToolError where
  code : Text
  message : Text
  deriving DecidableEq

def budgetExhausted (message : String) : AgentToolError := ⟨txt "BUDGET_EXHAUSTED", txt message⟩

/-- `ToolBudgetLimits`, as the constructor of `SharedToolBudget` admits them. -/
structure ToolBudgetLimits where
  maxStewardCallsPerTurn : Option Nat
  maxItemsPerCall : Option Nat
  maxItemsPerTurn : Option Nat
  maxSerializedBytesPerCall : Option Nat
  maxSerializedBytesPerTurn : Option Nat
  maxDepth : Option Nat
  maxElapsedMsPerCall : Option Nat
  maxElapsedMsPerTurn : Option Nat

structure ToolBudgetUsage where
  calls : Nat := 0
  items : Int := 0
  serializedBytes : Int := 0
  elapsedMs : Int := 0

/-- `value > limit`, when there is one. -/
def above (value : Int) (limit : Option Nat) : Bool := exceeds value (limit.map (↑))

namespace ToolBudgetUsage

variable (limits : ToolBudgetLimits) (u : ToolBudgetUsage)

/-- `begin_call` -/
def beginCall (depth : Option Int) : Except AgentToolError ToolBudgetUsage :=
  if depth.any fun d => above d limits.maxDepth then
    .error ⟨txt "QUERY_TOO_BROAD", txt "depth exceeds the configured tool budget"⟩
  else if limits.maxStewardCallsPerTurn.any fun limit => limit ≤ u.calls then
    .error (budgetExhausted "the per-turn tool-call budget is exhausted")
  else .ok { u with calls := u.calls + 1 }

/-- `effective_limit` -/
def effectiveLimit : Option Int → Except AgentToolError (Option Int × Bool)
  | none => .ok (none, false)
  | some requested =>
    let capped := limits.maxItemsPerCall.elim requested fun limit => min requested limit
    let capped := limits.maxItemsPerTurn.elim capped fun limit => min capped (max 0 (limit - u.items))
    if capped < 1 then .error (budgetExhausted "the item budget is exhausted")
    else .ok (some capped, capped ≠ requested)

/-- The tests of `consume_result` in their order, with what each raises. -/
def overdrafts (items serializedBytes elapsedMs : Int) : List (Bool × String) :=
  [(above items limits.maxItemsPerCall, "the per-call item budget is exhausted"),
    (above serializedBytes limits.maxSerializedBytesPerCall, "the per-call serialized-byte budget is exhausted"),
    (above (u.serializedBytes + serializedBytes) limits.maxSerializedBytesPerTurn,
      "the per-turn serialized-byte budget is exhausted"),
    (above elapsedMs limits.maxElapsedMsPerCall, "the per-call elapsed-time budget is exhausted"),
    (above (u.elapsedMs + elapsedMs) limits.maxElapsedMsPerTurn, "the per-turn elapsed-time budget is exhausted"),
    (above (u.items + items) limits.maxItemsPerTurn, "the per-turn item budget is exhausted")]

/-- `consume_result` -/
def consumeResult (items serializedBytes elapsedMs : Int) : Except AgentToolError ToolBudgetUsage :=
  match (u.overdrafts limits items serializedBytes elapsedMs).find? Prod.fst with
  | some (_, message) => .error (budgetExhausted message)
  | none => .ok { u with
      items := u.items + items
      serializedBytes := u.serializedBytes + serializedBytes
      elapsedMs := u.elapsedMs + elapsedMs }

/-- No limit of the turn is overdrawn. -/
structure Within : Prop where
  calls : above u.calls limits.maxStewardCallsPerTurn = false
  items : above u.items limits.maxItemsPerTurn = false
  serializedBytes : above u.serializedBytes limits.maxSerializedBytesPerTurn = false
  elapsedMs : above u.elapsedMs limits.maxElapsedMsPerTurn = false

variable {limits u} {u' : ToolBudgetUsage}

theorem above_zero (limit : Option Nat) : above 0 limit = false := by
  cases limit <;> simp [above, exceeds]

theorem within_start : Within limits {} := ⟨above_zero _, above_zero _, above_zero _, above_zero _⟩

theorem Within.beginCall {depth : Option Int} (h : Within limits u) (hcall : u.beginCall limits depth = .ok u') :
    Within limits u' ∧ u' = { u with calls := u.calls + 1 } := by
  unfold ToolBudgetUsage.beginCall at hcall
  split_ifs at hcall with _ hcalls
  cases hcall
  refine ⟨⟨?_, h.items, h.serializedBytes, h.elapsedMs⟩, rfl⟩
  cases hlimit : limits.maxStewardCallsPerTurn with
  | none => rfl
  | some limit =>
    simp only [hlimit, Option.any_some, decide_eq_true_eq, not_le] at hcalls
    simp only [above, exceeds, Option.map_some, decide_eq_false_iff_not]
    omega

theorem Within.consumeResult {items bytes elapsed : Int} (h : Within limits u)
    (hcall : u.consumeResult limits items bytes elapsed = .ok u') : Within limits u' ∧
      u' = ⟨u.calls, u.items + items, u.serializedBytes + bytes, u.elapsedMs + elapsed⟩ ∧
      above items limits.maxItemsPerCall = false ∧ above bytes limits.maxSerializedBytesPerCall = false ∧
      above elapsed limits.maxElapsedMsPerCall = false := by
  unfold ToolBudgetUsage.consumeResult at hcall
  cases hfind : (u.overdrafts limits items bytes elapsed).find? Prod.fst with
  | some overdraft =>
    rw [hfind] at hcall
    cases hcall
  | none =>
    rw [hfind] at hcall
    cases hcall
    have hnone := List.find?_eq_none.1 hfind
    simp only [overdrafts, List.forall_mem_cons, List.not_mem_nil, false_imp_iff, implies_true, and_true,
      Bool.not_eq_true] at hnone
    obtain ⟨hitems, hbytes, hbytesTurn, helapsed, helapsedTurn, hitemsTurn⟩ := hnone
    exact ⟨⟨h.calls, hitemsTurn, hbytesTurn, helapsedTurn⟩, rfl, hitems, hbytes, helapsed⟩

end ToolBudgetUsage

end Steward.Agent
