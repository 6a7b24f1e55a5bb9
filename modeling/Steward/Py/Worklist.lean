import Mathlib.Data.List.Nodup

/-!
# Exploring a forest by a worklist

Nodes are taken off a stack and their children are recorded; some of them are
put on the stack, the others have nothing below them. `Explores` is what holds
between two nodes: when the stack is empty, everything below the root is
recorded once.
-/

namespace Py.Worklist

section
variable {α : Type} (children : α → List α) (root : α)

/-- The nodes below a root. -/
inductive Reach : α → Prop
  | root : Reach root
  | child {a b : α} : Reach a → b ∈ children a → Reach b

/-- Every node has one parent at most, and the root has none. -/
structure Forest : Prop where
  nodup : ∀ a, (children a).Nodup
  parent : ∀ {a b x}, x ∈ children a → x ∈ children b → a = b
  root : ∀ a, root ∉ children a

/-- `seen` is recorded, the children of `stack` are not; the other recorded nodes are `done`. -/
structure Explores (done : α → Prop) (stack seen : List α) : Prop where
  nodup : seen.Nodup
  pending : stack.Nodup
  starts : root ∈ seen
  sound : ∀ x ∈ seen, Reach children root x
  parents : ∀ x ∈ seen, x = root ∨ ∃ a ∈ seen, x ∈ children a
  subset : ∀ d ∈ stack, d ∈ seen
  fresh : ∀ d ∈ stack, ∀ x ∈ children d, x ∉ seen
  closed : ∀ d ∈ seen, d ∉ stack → done d ∧ ∀ x ∈ children d, x ∈ seen

end

section
variable {α : Type} {children : α → List α} {root : α} {done : α → Prop} {stack seen : List α}

theorem Explores.start (hforest : Forest children root) : Explores children root done [root] [root] where
  nodup := List.nodup_singleton _
  pending := List.nodup_singleton _
  starts := List.mem_singleton_self _
  sound _ hx := List.mem_singleton.1 hx ▸ .root
  parents _ hx := .inl (List.mem_singleton.1 hx)
  subset _ h := h
  fresh d _ _ hx hin := hforest.root d (List.mem_singleton.1 hin ▸ hx)
  closed _ hd hno := absurd hd hno

/-- A node is taken off the stack; the children that stay off it have nothing below them. -/
theorem Explores.step {d : α} {pushed : List α} (h : Explores children root done (d :: stack) seen)
    (hforest : Forest children root) (hd : done d) (hpushed : pushed.Nodup)
    (hsub : ∀ x ∈ pushed, x ∈ children d)
    (hleaf : ∀ x ∈ children d, x ∉ pushed → done x ∧ children x = []) :
    Explores children root done (pushed ++ stack) (seen ++ children d) := by
  have hdseen : d ∈ seen := h.subset d List.mem_cons_self
  have hnew : ∀ x ∈ children d, x ∉ seen := h.fresh d List.mem_cons_self
  obtain ⟨hdstack, hstack⟩ := List.nodup_cons.1 h.pending
  have hold : ∀ e ∈ stack, e ∈ seen := fun e he => h.subset e (List.mem_cons_of_mem _ he)
  refine ⟨?_, ?_, List.mem_append_left _ h.starts, fun x hx => ?_, fun x hx => ?_, fun e he => ?_,
    fun e he x hx => ?_, fun e he hno => ?_⟩
  · exact List.nodup_append'.2 ⟨h.nodup, hforest.nodup d, fun x hx hx' => hnew x hx' hx⟩
  · exact List.nodup_append'.2 ⟨hpushed, hstack, fun x hx hx' => hnew x (hsub x hx) (hold x hx')⟩
  · rcases List.mem_append.1 hx with hx | hx
    · exact h.sound x hx
    · exact .child (h.sound d hdseen) hx
  · rcases List.mem_append.1 hx with hx | hx
    · rcases h.parents x hx with rfl | ⟨a, ha, hax⟩
      · exact .inl rfl
      · exact .inr ⟨a, List.mem_append_left _ ha, hax⟩
    · exact .inr ⟨d, List.mem_append_left _ hdseen, hx⟩
  · rcases List.mem_append.1 he with he | he
    · exact List.mem_append_right _ (hsub e he)
    · exact List.mem_append_left _ (hold e he)
  · -- what lies below a pending node is recorded under no other parent
    rw [List.mem_append, not_or]
    rcases List.mem_append.1 he with he | he
    · have henew := hnew e (hsub e he)
      refine ⟨fun hin => ?_, fun hin => ?_⟩
      · rcases h.parents x hin with rfl | ⟨a, ha, hax⟩
        · exact hforest.root e hx
        · exact henew (hforest.parent hax hx ▸ ha)
      · exact henew (hforest.parent hin hx ▸ hdseen)
    · refine ⟨h.fresh e (List.mem_cons_of_mem _ he) x hx, fun hin => ?_⟩
      exact hdstack (hforest.parent hin hx ▸ he)
  · have hnot : e ∉ pushed ∧ e ∉ stack := by rwa [List.mem_append, not_or] at hno
    rcases List.mem_append.1 he with he | he
    · by_cases hed : e = d
      · subst hed
        exact ⟨hd, fun x hx => List.mem_append_right _ hx⟩
      · obtain ⟨hdone, hchildren⟩ := h.closed e he (by simp [hed, hnot.2])
        exact ⟨hdone, fun x hx => List.mem_append_left _ (hchildren x hx)⟩
    · obtain ⟨hdone, hnone⟩ := hleaf e he hnot.1
      exact ⟨hdone, by simp [hnone]⟩

/-- What is recorded with the next node is below the root, each once. -/
theorem Explores.next {d : α} (h : Explores children root done (d :: stack) seen)
    (hforest : Forest children root) :
    (seen ++ children d).Nodup ∧ ∀ x ∈ seen ++ children d, Reach children root x := by
  refine ⟨List.nodup_append'.2 ⟨h.nodup, hforest.nodup d, fun x hx hx' => ?_⟩, fun x hx => ?_⟩
  · exact h.fresh d List.mem_cons_self x hx' hx
  · rcases List.mem_append.1 hx with hx | hx
    · exact h.sound x hx
    · exact .child (h.sound d (h.subset d List.mem_cons_self)) hx

/-- With an empty stack everything is recorded. -/
theorem Explores.complete (h : Explores children root done [] seen) {x : α} :
    x ∈ seen ↔ Reach children root x := by
  refine ⟨h.sound x, fun hx => ?_⟩
  induction hx with
  | root => exact h.starts
  | child _ hb ih => exact (h.closed _ ih List.not_mem_nil).2 _ hb

theorem Explores.all_done (h : Explores children root done [] seen) {x : α} (hx : Reach children root x) : done x :=
  (h.closed x (h.complete.2 hx) List.not_mem_nil).1

end

end Py.Worklist
