import Steward.Py.Error

/-!
# Computations on a state that raise

A computation reads and changes a state and then returns or raises; the state
stays as it left it either way. `Triple P x Q E` is the rule of pre- and
postconditions: from a state in `P`, `x` returns `a` in `Q a` or raises `e` in
`E e`.
-/

namespace Py

def Stateful (S ε α : Type) := S → Except ε α × S

namespace Stateful

variable {S ε α β : Type}

def bind (x : Stateful S ε α) (f : α → Stateful S ε β) : Stateful S ε β := fun s =>
  match x s with
  | (.ok a, s') => f a s'
  | (.error e, s') => (.error e, s')

instance : Monad (Stateful S ε) where
  pure a := fun s => (.ok a, s)
  bind := bind

def raise (e : ε) : Stateful S ε α := fun s => (.error e, s)

def get : Stateful S ε S := fun s => (.ok s, s)

def modify (f : S → S) : Stateful S ε Unit := fun s => (.ok (), f s)

def lift (x : Except ε α) : Stateful S ε α := fun s => (x, s)

/-- A loop that collects one result an element. -/
def each (f : α → Stateful S ε β) : List α → Stateful S ε (List β)
  | [] => pure []
  | x :: xs => do
    let y ← f x
    let ys ← each f xs
    pure (y :: ys)

/-- A `try` block, for `except` clauses to look at. -/
def attempt (x : Stateful S ε α) : Stateful S ε (Except ε α) := fun s => (.ok (x s).1, (x s).2)

variable {x : Stateful S ε α} {f : α → Stateful S ε β}

theorem bind_run (x : Stateful S ε α) (f : α → Stateful S ε β) (s : S) :
    (x >>= f) s = match x s with
      | (.ok a, s') => f a s'
      | (.error e, s') => (.error e, s') := rfl

theorem bind_of_ok {s s' : S} {a : α} (h : x s = (.ok a, s')) : (x >>= f) s = f a s' := by
  rw [bind_run, h]

theorem bind_of_error {s s' : S} {e : ε} (h : x s = (.error e, s')) :
    (x >>= f) s = (.error e, s') := by
  rw [bind_run, h]

theorem map_of_ok {g : α → β} {s s' : S} {a : α} (h : x s = (.ok a, s')) : (g <$> x) s = (.ok (g a), s') :=
  bind_of_ok h

theorem map_of_error {g : α → β} {s s' : S} {e : ε} (h : x s = (.error e, s')) : (g <$> x) s = (.error e, s') :=
  bind_of_error h

theorem map_raises {g : α → β} {s : S} {e : ε} (h : (x s).1 = .error e) : ((g <$> x) s).1 = .error e := by
  rcases hx : x s with ⟨r, s'⟩
  rw [hx] at h
  obtain rfl : r = .error e := h
  rw [map_of_error hx]

theorem each_cons_of_ok {x : α} {xs : List α} {s s' : S} {y : β} (h : f x s = (.ok y, s')) :
    each f (x :: xs) s = (List.cons y <$> each f xs) s' := bind_of_ok h

theorem each_cons_of_error {x : α} {xs : List α} {s s' : S} {e : ε} (h : f x s = (.error e, s')) :
    each f (x :: xs) s = (.error e, s') := bind_of_error h

theorem each_cons_eq_ok {x : α} {xs : List α} {s s₂ : S} {zs : List β} (h : each f (x :: xs) s = (.ok zs, s₂)) :
    ∃ y s₁ ys, f x s = (.ok y, s₁) ∧ each f xs s₁ = (.ok ys, s₂) ∧ zs = y :: ys := by
  rcases hx : f x s with ⟨e | y, s₁⟩
  · rw [each_cons_of_error hx] at h
    cases congrArg Prod.fst h
  · rw [each_cons_of_ok hx] at h
    rcases hxs : each f xs s₁ with ⟨e | ys, s'⟩
    · rw [map_of_error hxs] at h
      cases congrArg Prod.fst h
    · rw [map_of_ok hxs] at h
      cases h
      exact ⟨y, s₁, ys, rfl, hxs, rfl⟩

@[simp] theorem pure_run (a : α) (s : S) : (pure a : Stateful S ε α) s = (.ok a, s) := rfl

@[simp] theorem raise_run (e : ε) (s : S) : (raise e : Stateful S ε α) s = (.error e, s) := rfl

@[simp] theorem attempt_run (s : S) : x.attempt s = (.ok (x s).1, (x s).2) := rfl

/-! ## Triples -/

def Triple (P : S → Prop) (x : Stateful S ε α) (Q : α → S → Prop) (E : ε → S → Prop) : Prop :=
  ∀ s, P s → match x s with
    | (.ok a, s') => Q a s'
    | (.error e, s') => E e s'

variable {P P' : S → Prop} {Q Q' : α → S → Prop} {R : β → S → Prop} {E E' : ε → S → Prop}

theorem Triple.ok (h : Triple P x Q E) {s s' : S} {a : α} (hs : P s) (hx : x s = (.ok a, s')) :
    Q a s' := by
  have := h s hs
  rwa [hx] at this

theorem Triple.error (h : Triple P x Q E) {s s' : S} {e : ε} (hs : P s)
    (hx : x s = (.error e, s')) : E e s' := by
  have := h s hs
  rwa [hx] at this

theorem Triple.pure {a : α} (h : ∀ s, P s → Q a s) :
    Triple P (Pure.pure a : Stateful S ε α) Q E := h

theorem Triple.raise {e : ε} (h : ∀ s, P s → E e s) :
    Triple P (Stateful.raise e : Stateful S ε α) Q E := h

theorem Triple.bind (hx : Triple P x Q E) (hf : ∀ a, Triple (Q a) (f a) R E) :
    Triple P (x >>= f) R E := by
  intro s hs
  have := hx s hs
  rw [bind_run]
  cases hxs : x s with
  | mk r s' =>
    rw [hxs] at this
    cases r with
    | ok a => exact hf a s' this
    | error e => exact this

theorem Triple.conseq (h : Triple P x Q E) (hP : ∀ s, P' s → P s) (hQ : ∀ a s, Q a s → Q' a s)
    (hE : ∀ e s, E e s → E' e s) : Triple P' x Q' E' := by
  intro s hs
  have := h s (hP s hs)
  revert this
  split
  · exact hQ _ _
  · exact hE _ _

theorem Triple.ite {c : Prop} [Decidable c] {y : Stateful S ε α} (hx : c → Triple P x Q E)
    (hy : ¬ c → Triple P y Q E) : Triple P (if c then x else y) Q E := by
  split_ifs with h
  · exact hx h
  · exact hy h

/-- A fact of the precondition that is not about the state. -/
theorem Triple.assume {φ : Prop} (h : φ → Triple P x Q E) : Triple (fun s => P s ∧ φ) x Q E :=
  fun s hs => h hs.2 s hs.1

/-- A loop keeps what each of its turns extends. -/
theorem Triple.each {f : α → Stateful S ε β} {I : List α → List β → S → Prop} {xs : List α}
    (h : ∀ x ∈ xs, ∀ as bs, Triple (I as bs) (f x) (fun b => I (as ++ [x]) (bs ++ [b])) E) (as : List α)
    (bs : List β) : Triple (I as bs) (Stateful.each f xs) (fun cs => I (as ++ xs) (bs ++ cs)) E := by
  induction xs generalizing as bs with
  | nil => exact Triple.pure fun s hs => by simpa using hs
  | cons x xs ih =>
    refine Triple.bind (h x List.mem_cons_self as bs) fun b => ?_
    have hrest := ih (fun x hx => h x (List.mem_cons_of_mem _ hx)) (as ++ [x]) (bs ++ [b])
    refine Triple.bind hrest fun cs => Triple.pure fun s hs => ?_
    simpa [List.append_assoc] using hs

/-- A `try` block ends in one of the two postconditions. -/
theorem Triple.attempt (h : Triple P x Q E) (E' : ε → S → Prop) : Triple P x.attempt
    (fun r s => match r with
      | .ok a => Q a s
      | .error e => E e s) E' := by
  intro s hs
  have := h s hs
  rw [attempt_run]
  cases hxs : x s with
  | mk r s' =>
    rw [hxs] at this
    cases r <;> exact this

theorem Triple.lift {r : Except ε α} (hok : ∀ a s, r = .ok a → P s → Q a s)
    (herr : ∀ e s, r = .error e → P s → E e s) : Triple P (Stateful.lift r) Q E := by
  intro s hs
  unfold Stateful.lift
  cases r with
  | ok a => exact hok a s rfl hs
  | error e => exact herr e s rfl hs

theorem Triple.modify {g : S → S} {Q : Unit → S → Prop} (h : ∀ s, P s → Q () (g s)) :
    Triple P (Stateful.modify g : Stateful S ε Unit) Q E := h

theorem Triple.get {Q : S → S → Prop} (h : ∀ s, P s → Q s s) :
    Triple P (Stateful.get : Stateful S ε S) Q E := h

end Stateful

end Py
