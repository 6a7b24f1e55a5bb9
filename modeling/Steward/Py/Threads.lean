import Mathlib.Logic.Relation

/-!
# Threads that share a lock

Threads arrive and act in any order. An action is told whether the lock is free,
that is, whether no other thread holds it. What every action of a thread keeps
holds of every thread in every run.
-/

namespace Py

/-- `Acts free p a p'`: the thread `p` becomes `p'` by the action `a`. -/
structure Threads (P A : Type) where
  Arrives : P → Prop
  Holds : P → Prop
  Acts : Prop → P → A → P → Prop

namespace Threads

variable {P A : Type} (T : Threads P A) {Admits : P → A → Prop} {s s' : List P}

/-- One thread arrives, or one acts. -/
inductive Step : List P → Option (P × A) → List P → Prop where
  | arrive (ps : List P) {p : P} (h : T.Arrives p) : Step ps none (ps ++ [p])
  | act (before after : List P) {p p' : P} {a : A}
      (h : T.Acts (∀ q ∈ before ++ after, ¬ T.Holds q) p a p') :
      Step (before ++ p :: after) (some (p, a)) (before ++ p' :: after)

/-- Only admitted actions are taken. -/
def Admitted (Admits : P → A → Prop) : Option (P × A) → Prop
  | none => True
  | some (p, a) => Admits p a

/-- The states of the runs whose actions are all admitted. -/
def Reaches (Admits : P → A → Prop) : List P → Prop :=
  Relation.ReflTransGen (fun s s' => ∃ l, T.Step s l s' ∧ Admitted Admits l) []

variable {T}

theorem Reaches.nil : T.Reaches Admits [] := .refl

theorem Reaches.step {l : Option (P × A)} (h : T.Reaches Admits s) (hstep : T.Step s l s')
    (hl : Admitted Admits l) : T.Reaches Admits s' := Relation.ReflTransGen.tail h ⟨l, hstep, hl⟩

/-- What holds on arrival and is kept by every admitted action holds of every thread. -/
theorem Reaches.forall {I : P → Prop} (arrives : ∀ p, T.Arrives p → I p)
    (acts : ∀ free p a p', Admits p a → T.Acts free p a p' → I p → I p') (h : T.Reaches Admits s) :
    ∀ p ∈ s, I p := by
  induction h with
  | refl => simp
  | tail _ hstep ih =>
    obtain ⟨l, hstep, hl⟩ := hstep
    cases hstep with
    | arrive _ hp => exact List.forall_mem_append.2 ⟨ih, List.forall_mem_singleton.2 (arrives _ hp)⟩
    | act before after hact =>
      obtain ⟨hbefore, hrest⟩ := List.forall_mem_append.1 ih
      obtain ⟨hp, hafter⟩ := List.forall_mem_cons.1 hrest
      exact List.forall_mem_append.2 ⟨hbefore, List.forall_mem_cons.2 ⟨acts _ _ _ _ hl hact hp, hafter⟩⟩

end Threads

end Py
