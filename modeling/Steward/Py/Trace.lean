import Mathlib.Data.List.Basic

/-!
# Traces that justify themselves

`Always R log` says of every event of a log that it stands in `R` to the events
before it.
-/

namespace Py

variable {α : Type} {R : List α → α → Prop} {log : List α} {e : α}

def Always (R : List α → α → Prop) (log : List α) : Prop :=
  ∀ before e after, log = before ++ e :: after → R before e

theorem Always.nil : Always R [] := by
  rintro before e after h
  simp at h

/-- One more event is justified by what is there. -/
theorem Always.concat (h : Always R log) (he : R log e) : Always R (log ++ [e]) := by
  intro before e' after heq
  rcases List.eq_nil_or_concat after with rfl | ⟨after, last, rfl⟩
  · obtain ⟨rfl, hlast⟩ := List.append_inj' heq rfl
    rw [← (List.cons.inj hlast).1]
    exact he
  · rw [List.concat_eq_append, ← List.cons_append, ← List.append_assoc] at heq
    exact h _ _ _ (List.append_inj' heq rfl).1

end Py
