import Mathlib.Algebra.Order.Ring.Int
import Mathlib.Algebra.Order.BigOperators.Group.List
import Steward.Py.Value

/-!
# The combined budget

The limits and the accounts that the agent loop keeps, and the four operations
on the accounts. Each either raises and leaves them alone, or returns new ones.
-/

namespace Steward.Agent

open Py

/-- `RuntimeFailure` -/
structure RuntimeFailure where
  code : Text
  message : Text
  deriving DecidableEq, Repr

/-- What a function of the agent runtime raises. -/
inductive Raised where
  | failure (e : RuntimeFailure)
  | other (name : Text)
  deriving DecidableEq, Repr

def fail (code message : String) : Raised := .failure ⟨txt code, txt message⟩

inductive SourceFamily where
  | synthetic
  | stewardHistorical
  | filesystemCurrent
  | filesystemContent
  | filesystemDocument
  | temporalRelation
  deriving DecidableEq, Repr

def SourceFamily.value : SourceFamily → Text
  | synthetic => txt "SYNTHETIC"
  | stewardHistorical => txt "STEWARD_HISTORICAL"
  | filesystemCurrent => txt "FILESYSTEM_CURRENT"
  | filesystemContent => txt "CURRENT_FILESYSTEM_CONTENT"
  | filesystemDocument => txt "CURRENT_FILESYSTEM_DOCUMENT"
  | temporalRelation => txt "HISTORICAL_CURRENT_RELATION"

/-- `_FILESYSTEM_SOURCE_FAMILIES` -/
def SourceFamily.filesystem : SourceFamily → Bool
  | filesystemCurrent | filesystemContent | filesystemDocument | temporalRelation => true
  | synthetic | stewardHistorical => false

/-- `RuntimeToolResult`. A count that is `none` is no number: arithmetic on it raises. -/
structure RuntimeToolResult (F : Type) where
  sourceFamily : SourceFamily
  payload : List (Text × Value F)
  resultDigest : Option Text
  itemsReturned : Option Int
  serializedBytes : Option Int
  elapsedMs : Option Int
  status : Text
  contentBytesObserved : Nat

/-- `CombinedBudgetLimits`, as the constructor of `CombinedBudget` admits them. -/
structure Limits where
  maxModelCalls : Nat
  maxTotalToolCalls : Nat
  maxFilesystemToolCalls : Option Int
  maxFilesystemItems : Option Int
  maxSerializedBytes : Option Int
  maxElapsedMs : Option Int
  maxContentBytes : Option Nat
  model_pos : 1 ≤ maxModelCalls
  tool_pos : 1 ≤ maxTotalToolCalls

def Limits.default : Limits where
  maxModelCalls := 4
  maxTotalToolCalls := 8
  maxFilesystemToolCalls := none
  maxFilesystemItems := none
  maxSerializedBytes := some 65536
  maxElapsedMs := none
  maxContentBytes := some 16384
  model_pos := by decide
  tool_pos := by decide

/-- `CombinedBudgetUsage` -/
structure Usage where
  modelCallsUsed : Nat := 0
  totalToolCallsUsed : Nat := 0
  stewardToolCallsUsed : Nat := 0
  filesystemToolCallsUsed : Nat := 0
  syntheticToolCallsUsed : Nat := 0
  stewardItemsReturned : Int := 0
  filesystemItemsReturned : Int := 0
  serializedBytes : Int := 0
  elapsedMs : Int := 0
  contentBytesReserved : Nat := 0
  contentBytesObserved : Nat := 0
  deriving DecidableEq, Repr

/-- `value > limit`, when there is one. -/
def exceeds (value : Int) : Option Int → Bool
  | some limit => limit < value
  | none => false

namespace Usage

variable (limits : Limits) (u : Usage)

/-- `admit_model_call` -/
def admitModelCall : Except Raised Usage :=
  if u.modelCallsUsed ≥ limits.maxModelCalls then
    .error (fail "AGENT_STEP_LIMIT_REACHED" "model-call limit reached")
  else .ok { u with modelCallsUsed := u.modelCallsUsed + 1 }

/-- `admit_tool_call` -/
def admitToolCall (source : SourceFamily) : Except Raised Usage :=
  if u.totalToolCallsUsed ≥ limits.maxTotalToolCalls then
    .error (fail "AGENT_STEP_LIMIT_REACHED" "tool-call limit reached")
  else if source.filesystem ∧ exceeds (u.filesystemToolCallsUsed + 1) limits.maxFilesystemToolCalls then
    .error (fail "BUDGET_EXHAUSTED" "filesystem tool-call budget is exhausted")
  else .ok { u with
    totalToolCallsUsed := u.totalToolCallsUsed + 1
    stewardToolCallsUsed := u.stewardToolCallsUsed + (if source = .stewardHistorical then 1 else 0)
    filesystemToolCallsUsed := u.filesystemToolCallsUsed + (if source.filesystem then 1 else 0)
    syntheticToolCallsUsed := u.syntheticToolCallsUsed + (if source = .synthetic then 1 else 0) }

/-- `reserve_content_batch` -/
def reserveContentBatch (reservations : List Int) : Except Raised Usage :=
  if ∃ value ∈ reservations, value ≤ 0 then
    .error (fail "INTERNAL_INVARIANT_FAILED" "content reservation must be positive")
  else if exceeds (u.contentBytesReserved + reservations.sum) (limits.maxContentBytes.map (↑)) then
    .error (fail "BUDGET_EXHAUSTED" "content-byte budget is exhausted")
  else .ok { u with contentBytesReserved := u.contentBytesReserved + reservations.sum.toNat }

/-- An operand of an addition. -/
def operand : Option Int → Except Raised Int
  | some n => .ok n
  | none => .error (.other (txt "TypeError"))

/-- The items that count for a family, if the result is one of its. -/
def itemsFor (counts : Bool) (items : Option Int) : Except Raised Int :=
  if counts then operand items else .ok 0

/-- `record_result` -/
def recordResult {F : Type} (result : RuntimeToolResult F) : Except Raised Usage := do
  let filesystemItems ← itemsFor result.sourceFamily.filesystem result.itemsReturned
  let stewardItems ← itemsFor (result.sourceFamily = .stewardHistorical) result.itemsReturned
  let bytes ← operand result.serializedBytes
  let elapsed ← operand result.elapsedMs
  if exceeds (u.filesystemItemsReturned + filesystemItems) limits.maxFilesystemItems then
    .error (fail "BUDGET_EXHAUSTED" "filesystem item budget is exhausted")
  else if exceeds (u.serializedBytes + bytes) limits.maxSerializedBytes then
    .error (fail "BUDGET_EXHAUSTED" "runtime serialized-byte budget is exhausted")
  else if exceeds (u.elapsedMs + elapsed) limits.maxElapsedMs then
    .error (fail "BUDGET_EXHAUSTED" "runtime elapsed-time budget is exhausted")
  else if u.contentBytesObserved + result.contentBytesObserved > u.contentBytesReserved then
    .error (fail "INTERNAL_INVARIANT_FAILED" "content observation exceeds reservation")
  else pure { u with
    stewardItemsReturned := u.stewardItemsReturned + stewardItems
    filesystemItemsReturned := u.filesystemItemsReturned + filesystemItems
    serializedBytes := u.serializedBytes + bytes
    elapsedMs := u.elapsedMs + elapsed
    contentBytesObserved := u.contentBytesObserved + result.contentBytesObserved }

end Usage

/-! ## The accounts of a budget -/

/-- What the accounts of a budget keep. -/
structure Usage.Sound (limits : Limits) (u : Usage) : Prop where
  model : u.modelCallsUsed ≤ limits.maxModelCalls
  total : u.totalToolCallsUsed ≤ limits.maxTotalToolCalls
  split : u.stewardToolCallsUsed + u.filesystemToolCallsUsed + u.syntheticToolCallsUsed =
    u.totalToolCallsUsed
  observed : u.contentBytesObserved ≤ u.contentBytesReserved
  reserved : ∀ limit ∈ limits.maxContentBytes, u.contentBytesReserved ≤ limit

/-- The accounts that some sequence of operations leads to. -/
inductive Usage.Reachable (F : Type) (limits : Limits) : Usage → Prop where
  | fresh : Reachable F limits {}
  | model {u v : Usage} (h : Reachable F limits u) (hop : u.admitModelCall limits = .ok v) :
      Reachable F limits v
  | tool {u v : Usage} (h : Reachable F limits u) (source : SourceFamily)
      (hop : u.admitToolCall limits source = .ok v) : Reachable F limits v
  | reserve {u v : Usage} (h : Reachable F limits u) (reservations : List Int)
      (hop : u.reserveContentBatch limits reservations = .ok v) : Reachable F limits v
  | record {u v : Usage} (h : Reachable F limits u) (result : RuntimeToolResult F)
      (hop : u.recordResult limits result = .ok v) : Reachable F limits v

variable {limits : Limits} {u v : Usage} {F : Type}

theorem admitModelCall_eq_ok : u.admitModelCall limits = .ok v ↔
    u.modelCallsUsed < limits.maxModelCalls ∧ v = { u with modelCallsUsed := u.modelCallsUsed + 1 } := by
  unfold Usage.admitModelCall
  split_ifs with h
  · exact iff_of_false (by simp) fun h' => by omega
  · exact ⟨fun h' => ⟨by omega, (Except.ok.inj h').symm⟩, fun h' => by rw [h'.2]⟩

/-- The operation that admits a tool call counts it once, under its family. -/
theorem admitToolCall_ok {source : SourceFamily} (h : u.admitToolCall limits source = .ok v) :
    u.totalToolCallsUsed < limits.maxTotalToolCalls ∧
      v.totalToolCallsUsed = u.totalToolCallsUsed + 1 ∧
      v.stewardToolCallsUsed + v.filesystemToolCallsUsed + v.syntheticToolCallsUsed =
        u.stewardToolCallsUsed + u.filesystemToolCallsUsed + u.syntheticToolCallsUsed + 1 ∧
      v.modelCallsUsed = u.modelCallsUsed ∧ v.contentBytesObserved = u.contentBytesObserved ∧
      v.contentBytesReserved = u.contentBytesReserved := by
  unfold Usage.admitToolCall at h
  by_cases h1 : u.totalToolCallsUsed ≥ limits.maxTotalToolCalls
  · rw [if_pos h1] at h
    cases h
  rw [if_neg h1] at h
  by_cases h2 : source.filesystem ∧
      exceeds (u.filesystemToolCallsUsed + 1) limits.maxFilesystemToolCalls
  · rw [if_pos h2] at h
    cases h
  rw [if_neg h2] at h
  have hone : (if source = .stewardHistorical then 1 else 0) + (if source.filesystem then 1 else 0) +
      (if source = .synthetic then 1 else 0) = 1 := by cases source <;> rfl
  rw [← Except.ok.inj h]
  refine ⟨by omega, rfl, ?_, rfl, rfl, rfl⟩
  show u.stewardToolCallsUsed + _ + (u.filesystemToolCallsUsed + _) +
    (u.syntheticToolCallsUsed + _) = _
  omega

theorem reserveContentBatch_ok {reservations : List Int}
    (h : u.reserveContentBatch limits reservations = .ok v) :
    v = { u with contentBytesReserved := v.contentBytesReserved } ∧
      u.contentBytesReserved ≤ v.contentBytesReserved ∧
      ∀ limit ∈ limits.maxContentBytes, v.contentBytesReserved ≤ limit := by
  unfold Usage.reserveContentBatch at h
  split_ifs at h with hpos hlimit
  have hsum : 0 ≤ reservations.sum := List.sum_nonneg fun value hv => by
    by_contra hneg
    exact hpos ⟨value, hv, by omega⟩
  rw [← Except.ok.inj h]
  refine ⟨rfl, Nat.le_add_right _ _, fun limit hl => ?_⟩
  rw [Option.mem_def.1 hl] at hlimit
  simp only [Option.map_some, exceeds, decide_eq_true_eq, not_lt] at hlimit
  show u.contentBytesReserved + reservations.sum.toNat ≤ limit
  omega

theorem recordResult_ok {result : RuntimeToolResult F} (h : u.recordResult limits result = .ok v) :
    v.modelCallsUsed = u.modelCallsUsed ∧ v.totalToolCallsUsed = u.totalToolCallsUsed ∧
      v.stewardToolCallsUsed = u.stewardToolCallsUsed ∧
      v.filesystemToolCallsUsed = u.filesystemToolCallsUsed ∧
      v.syntheticToolCallsUsed = u.syntheticToolCallsUsed ∧
      v.contentBytesReserved = u.contentBytesReserved ∧
      v.contentBytesObserved ≤ u.contentBytesReserved := by
  unfold Usage.recordResult at h
  obtain ⟨filesystemItems, -, h⟩ := bind_eq_ok.1 h
  obtain ⟨stewardItems, -, h⟩ := bind_eq_ok.1 h
  obtain ⟨bytes, -, h⟩ := bind_eq_ok.1 h
  obtain ⟨elapsed, -, h⟩ := bind_eq_ok.1 h
  split_ifs at h with h1 h2 h3 h4
  rw [← pure_eq_ok.1 h]
  exact ⟨rfl, rfl, rfl, rfl, rfl, rfl, by simpa using h4⟩

theorem Usage.Reachable.sound (h : Usage.Reachable F limits u) : u.Sound limits := by
  induction h with
  | fresh => exact ⟨by simp, by simp, rfl, le_rfl, fun limit _ => Nat.zero_le _⟩
  | model _ hop ih =>
    obtain ⟨hlt, rfl⟩ := admitModelCall_eq_ok.1 hop
    exact ⟨hlt, ih.total, ih.split, ih.observed, ih.reserved⟩
  | tool _ source hop ih =>
    obtain ⟨hlt, htotal, hsplit, hmodel, hobs, hres⟩ := admitToolCall_ok hop
    have hsum := ih.split
    exact ⟨hmodel ▸ ih.model, by omega, by omega, by rw [hobs, hres]; exact ih.observed,
      fun limit hl => hres ▸ ih.reserved limit hl⟩
  | reserve _ reservations hop ih =>
    obtain ⟨heq, hle, hlimit⟩ := reserveContentBatch_ok hop
    have hobs := ih.observed
    rw [heq]
    exact ⟨ih.model, ih.total, ih.split, hobs.trans hle, hlimit⟩
  | record _ result hop ih =>
    obtain ⟨hmodel, htotal, hs, hf, hy, hres, hobs⟩ := recordResult_ok hop
    have hsum := ih.split
    exact ⟨hmodel ▸ ih.model, htotal ▸ ih.total, by omega, by omega,
      fun limit hl => hres ▸ ih.reserved limit hl⟩

end Steward.Agent
