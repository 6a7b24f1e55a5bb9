import Mathlib.Data.Set.Finite.Basic
import Mathlib.Order.WellFounded

/-!
# Recursion by calls

A recursive function run with a bound on the depth of its calls. `Calls q t`
says that the call `q` makes the call `t`. Where the calls range over a finite
set, every call bottoms out exactly when no call leads back to itself.
-/

namespace Py

section
variable {Q R : Type} {Calls : Q → Q → Prop}

/-- Acyclic calls with finitely many callees are well-founded. -/
theorem wellFounded_of_acyclic (hfin : {t | ∃ q, Calls q t}.Finite)
    (hac : ∀ q, ¬ Relation.TransGen Calls q q) : WellFounded fun t q => Calls q t := by
  -- the callees, with the calls among them
  let C := {t // ∃ q, Calls q t}
  have : Finite C := hfin
  let above : C → C → Prop := fun t q => Relation.TransGen Calls q.1 t.1
  have : IsTrans C above := ⟨fun _ _ _ h1 h2 => h2.trans h1⟩
  have : Std.Irrefl above := ⟨fun t h => hac t.1 h⟩
  have hwf : WellFounded above := Finite.wellFounded_of_trans_of_irrefl _
  have hacc (t : C) : Acc (fun t q => Calls q t) t.1 := by
    induction t using hwf.induction with
    | _ t ih => exact ⟨_, fun u hu => ih ⟨u, t.1, hu⟩ (.single hu)⟩
  exact ⟨fun q => ⟨_, fun t ht => hacc ⟨t, q, ht⟩⟩⟩

/-- `run n q` is the call `q` with at most `n` nested calls, `exhausted` the answer beyond that. A call is
over when one it makes is, and it settles when all it makes do. -/
theorem settles_iff_acyclic (run : ℕ → Q → R) (exhausted : R) (hfin : {t | ∃ q, Calls q t}.Finite)
    (zero : ∀ q, run 0 q = exhausted)
    (stuck : ∀ n q t, Calls q t → run n t = exhausted → run (n + 1) q = exhausted)
    (settle : ∀ q, (∀ t, Calls q t → ∃ n, run n t ≠ exhausted) → ∃ n, run n q ≠ exhausted) :
    (∀ q, ∃ n, run n q ≠ exhausted) ↔ ∀ q, ¬ Relation.TransGen Calls q q := by
  constructor
  · rintro h q hq
    obtain ⟨n, hn⟩ := h q
    -- on a cycle every depth is exceeded
    have key : ∀ n q, Relation.TransGen Calls q q → run n q = exhausted := by
      intro n
      induction n with
      | zero => exact fun q _ => zero q
      | succ n ih =>
        intro q hq
        obtain ⟨t, hqt, htq⟩ := Relation.TransGen.head'_iff.1 hq
        exact stuck n q t hqt (ih t (.tail' htq hqt))
    exact hn (key n q hq)
  · intro hac q
    exact (wellFounded_of_acyclic hfin hac).induction q settle

end

end Py
