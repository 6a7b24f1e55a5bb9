import Steward.Py.Error

/-!
# Computations that write

A computation that writes records, one after the other, and then returns or
raises. What it has written stays written when it raises.
-/

namespace Py

structure Writing (ω ε α : Type) where
  written : List ω
  outcome : Except ε α

/-- What becomes of one call: it raises before it has written its records, after that, or not at all. -/
inductive Stage (ε : Type) where
  | passed
  | raisedBefore (e : ε)
  | raisedAfter (e : ε)

namespace Writing

variable {ω ε α β : Type}

def bind (x : Writing ω ε α) (f : α → Writing ω ε β) : Writing ω ε β :=
  match x.outcome with
  | .ok a => ⟨x.written ++ (f a).written, (f a).outcome⟩
  | .error e => ⟨x.written, .error e⟩

instance : Monad (Writing ω ε) where
  pure a := ⟨[], .ok a⟩
  bind := bind

def lift (x : Except ε α) : Writing ω ε α := ⟨[], x⟩

/-- A call that writes the records `ws`. -/
def call (stage : Stage ε) (ws : List ω) : Writing ω ε Unit :=
  match stage with
  | .passed => ⟨ws, .ok ()⟩
  | .raisedBefore e => ⟨[], .error e⟩
  | .raisedAfter e => ⟨ws, .error e⟩

/-- An `except` clause that raises another exception, which may depend on what was written. -/
def rethrow (g : List ω → ε → ε) (x : Writing ω ε α) : Writing ω ε α :=
  ⟨x.written, x.outcome.mapError (g x.written)⟩

variable {x : Writing ω ε α} {f : α → Writing ω ε β} {us vs : List ω}

@[simp] theorem written_pure (a : α) : (pure a : Writing ω ε α).written = [] := rfl

@[simp] theorem outcome_pure (a : α) : (pure a : Writing ω ε α).outcome = .ok a := rfl

@[simp] theorem written_lift (y : Except ε α) : (lift y : Writing ω ε α).written = [] := rfl

@[simp] theorem outcome_lift (y : Except ε α) : (lift y : Writing ω ε α).outcome = y := rfl

@[simp] theorem written_rethrow (g : List ω → ε → ε) : (x.rethrow g).written = x.written := rfl

theorem bind_ok {a : α} (h : x.outcome = .ok a) :
    x >>= f = ⟨x.written ++ (f a).written, (f a).outcome⟩ := by
  change x.bind f = _
  rw [bind, h]

theorem bind_error {e : ε} (h : x.outcome = .error e) : x >>= f = ⟨x.written, .error e⟩ := by
  change x.bind f = _
  rw [bind, h]

/-- What is computed first decides what is written, if it returns. -/
theorem lift_bind_induction {P : List ω → Prop} {y : Except ε α} (hnil : P [])
    (hf : ∀ a, y = .ok a → P (f a).written) : P (lift y >>= f).written := by
  cases y with
  | ok a =>
    rw [bind_ok (x := lift (.ok a)) rfl, written_lift, List.nil_append]
    exact hf a rfl
  | error e =>
    rw [bind_error (x := lift (.error e)) rfl, written_lift]
    exact hnil

/-- A sequence that ends by returning writes what its first half does. -/
theorem written_bind_pure {g : α → β} : (x >>= fun a => pure (g a)).written = x.written := by
  cases h : x.outcome with
  | ok a => rw [bind_ok h, written_pure, List.append_nil]
  | error e => rw [bind_error h]

/-- A sequence writes part of what its two halves may write. -/
theorem sublist_bind (hx : x.written.Sublist us) (hf : ∀ a, (f a).written.Sublist vs) :
    (x >>= f).written.Sublist (us ++ vs) := by
  cases h : x.outcome with
  | ok a =>
    rw [bind_ok h]
    exact hx.append (hf a)
  | error e =>
    rw [bind_error h]
    exact hx.trans (List.sublist_append_left us vs)

theorem sublist_call (stage : Stage ε) (ws : List ω) : (call stage ws).written.Sublist ws := by
  cases stage with
  | passed | raisedAfter => exact List.Sublist.refl ws
  | raisedBefore => exact List.nil_sublist ws

/-- A call that writes first, and then the rest. -/
theorem sublist_call_bind {stage : Stage ε} {w : List ω} {f : Unit → Writing ω ε β}
    (hf : ∀ u, (f u).written.Sublist vs) : (call stage w >>= f).written.Sublist (w ++ vs) :=
  sublist_bind (sublist_call stage w) hf

/-- What is only computed writes nothing of its own. -/
theorem sublist_lift_bind {y : Except ε α} (hf : ∀ a, (f a).written.Sublist vs) :
    (lift y >>= f).written.Sublist vs := sublist_bind (List.Sublist.refl _) hf

end Writing

end Py
