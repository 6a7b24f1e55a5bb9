import Mathlib.Data.List.Forall2

/-!
# Built-in exceptions

The exceptions the interpreter itself raises, and the calculus of computations
that may raise: `Ok x` says `x` returns.
-/

namespace Py

/-- Built-in exception classes. `unicodeEncodeError` and `jsonDecodeError` are
subclasses of `ValueError`. -/
inductive Error where
  | typeError
  | valueError
  | unicodeEncodeError
  | jsonDecodeError
  | keyError
  | indexError
  | attributeError
  | overflowError
  | osError
  | runtimeError
  | recursionError
  deriving DecidableEq, Repr

def Error.isValueError : Error → Bool
  | .valueError | .unicodeEncodeError | .jsonDecodeError => true
  | _ => false

/-- The computation returns. -/
def Ok {ε α : Type} (x : Except ε α) : Prop := ∃ a, x = .ok a

section
variable {ε α β : Type}

instance (x : Except ε α) : Decidable (Ok x) :=
  match x with
  | .ok a => .isTrue ⟨a, rfl⟩
  | .error _ => .isFalse fun ⟨_, h⟩ => by cases h

@[simp] theorem ok_ok (a : α) : Ok (.ok a : Except ε α) := ⟨a, rfl⟩

@[simp] theorem ok_pure (a : α) : Ok (pure a : Except ε α) := ⟨a, rfl⟩

@[simp] theorem not_ok_error (e : ε) : ¬ Ok (.error e : Except ε α) := by rintro ⟨_, h⟩; cases h

@[simp] theorem not_ok_throw (e : ε) : ¬ Ok (throw e : Except ε α) := not_ok_error e

@[simp] theorem ok_bind_ok (a : α) (f : α → Except ε β) : ((.ok a : Except ε α) >>= f) = f a := rfl

@[simp] theorem error_bind (e : ε) (f : α → Except ε β) :
    ((.error e : Except ε α) >>= f) = .error e := rfl

@[simp] theorem pure_eq_ok {a b : α} : (pure a : Except ε α) = .ok b ↔ a = b :=
  ⟨fun h => by cases h; rfl, fun h => h ▸ rfl⟩

theorem bind_eq_ok {x : Except ε α} {f : α → Except ε β} {b : β} :
    (x >>= f) = .ok b ↔ ∃ a, x = .ok a ∧ f a = .ok b := by
  cases x <;> simp

theorem bind_eq_error {x : Except ε α} {f : α → Except ε β} {e : ε} :
    (x >>= f) = .error e ↔ x = .error e ∨ ∃ a, x = .ok a ∧ f a = .error e := by
  cases x <;> simp

theorem ok_bind {x : Except ε α} {f : α → Except ε β} :
    Ok (x >>= f) ↔ ∃ a, x = .ok a ∧ Ok (f a) := by
  cases x <;> simp

theorem ok_map {x : Except ε α} {f : α → β} : Ok (f <$> x) ↔ Ok x := by
  cases x <;> simp [Functor.map, Except.map]

/-- A step whose continuation always returns. -/
theorem ok_bind_of_total {x : Except ε α} {f : α → Except ε β} (h : ∀ a, Ok (f a)) :
    Ok (x >>= f) ↔ Ok x := by
  rw [ok_bind]
  exact ⟨fun ⟨a, ha, _⟩ => ⟨a, ha⟩, fun ⟨a, ha⟩ => ⟨a, ha, h a⟩⟩

/-- A step whose continuation returns or not whatever the step returned. -/
theorem ok_bind_const {x : Except ε α} {f : α → Except ε β} {p : Prop} (h : ∀ a, Ok (f a) ↔ p) :
    Ok (x >>= f) ↔ Ok x ∧ p := by
  rw [ok_bind]
  exact ⟨fun ⟨a, ha, hf⟩ => ⟨⟨a, ha⟩, (h a).1 hf⟩, fun ⟨⟨a, ha⟩, hp⟩ => ⟨a, ha, (h a).2 hp⟩⟩

theorem ok_ite {c : Prop} [Decidable c] {x y : Except ε α} :
    Ok (if c then x else y) ↔ (c → Ok x) ∧ (¬ c → Ok y) := by
  by_cases h : c <;> simp [h]

theorem mapM_eq_ok {f : α → Except ε β} {xs : List α} {ys : List β} :
    xs.mapM f = .ok ys ↔ List.Forall₂ (fun x y => f x = .ok y) xs ys := by
  induction xs generalizing ys with
  | nil =>
    simp only [List.mapM_nil, List.forall₂_nil_left_iff]
    exact ⟨fun h => by cases h; rfl, fun h => h ▸ rfl⟩
  | cons x xs ih =>
    simp only [List.mapM_cons, bind_eq_ok, ih, List.forall₂_cons_left_iff]
    constructor
    · rintro ⟨y, hy, ys', hys, h⟩
      cases h
      exact ⟨y, ys', hy, hys, rfl⟩
    · rintro ⟨y, ys', hy, hys, rfl⟩
      exact ⟨y, hy, ys', hys, rfl⟩

theorem exists_of_mem_mapM {f : α → Except ε β} {xs : List α} {ys : List β} (h : xs.mapM f = .ok ys)
    {y : β} (hy : y ∈ ys) : ∃ x ∈ xs, f x = .ok y := by
  rw [mapM_eq_ok] at h
  induction h with
  | nil => cases hy
  | cons hx _ ih =>
    rcases List.mem_cons.1 hy with rfl | hy
    · exact ⟨_, List.mem_cons_self, hx⟩
    · exact (ih hy).imp fun _ h => ⟨List.mem_cons_of_mem _ h.1, h.2⟩

/-- A map whose results are given by a total function. -/
theorem mapM_eq_ok_map {f : α → Except ε β} {g : α → β} (h : ∀ x y, f x = .ok y → y = g x)
    {xs : List α} {ys : List β} :
    xs.mapM f = .ok ys ↔ (∀ x ∈ xs, Ok (f x)) ∧ ys = xs.map g := by
  rw [mapM_eq_ok]
  induction xs generalizing ys with
  | nil => simp
  | cons x xs ih =>
    simp only [List.forall₂_cons_left_iff, ih, List.forall_mem_cons, List.map_cons]
    constructor
    · rintro ⟨y, ys', hy, ⟨hxs, rfl⟩, rfl⟩
      exact ⟨⟨⟨y, hy⟩, hxs⟩, by rw [h x y hy]⟩
    · rintro ⟨⟨⟨y, hy⟩, hxs⟩, rfl⟩
      exact ⟨y, _, hy, ⟨hxs, rfl⟩, by rw [h x y hy]⟩

theorem ok_mapM {f : α → Except ε β} {xs : List α} : Ok (xs.mapM f) ↔ ∀ x ∈ xs, Ok (f x) := by
  induction xs with
  | nil => simp
  | cons x xs ih =>
    rw [List.mapM_cons, ok_bind_const (p := Ok (xs.mapM f)), ih]
    · simp
    · exact fun a => ok_bind_of_total fun _ => ok_pure _

theorem forM_eq_ok {f : α → Except ε Unit} {xs : List α} : xs.forM f = .ok () ↔ ∀ x ∈ xs, f x = .ok () := by
  induction xs with
  | nil => exact iff_of_true rfl (List.forall_mem_nil _)
  | cons x xs ih =>
    show (f x >>= fun _ => xs.forM f) = .ok () ↔ _
    rw [bind_eq_ok, List.forall_mem_cons]
    simp only [ih]
    exact ⟨fun ⟨⟨⟩, hx, hxs⟩ => ⟨hx, hxs⟩, fun ⟨hx, hxs⟩ => ⟨(), hx, hxs⟩⟩

/-- A fold whose steps return or not whatever the state. -/
theorem ok_foldlM {f : β → α → Except ε β} {p : α → Prop} (h : ∀ s x, Ok (f s x) ↔ p x)
    {xs : List α} {s : β} : Ok (xs.foldlM f s) ↔ ∀ x ∈ xs, p x := by
  induction xs generalizing s with
  | nil => simp
  | cons x xs ih =>
    rw [List.foldlM_cons, ok_bind_const (p := ∀ y ∈ xs, p y) (fun _ => ih), h]
    simp

end

end Py
