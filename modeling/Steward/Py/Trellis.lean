import Mathlib.Data.List.MinMax
import Mathlib.Algebra.Order.Monoid.Unbundled.WithTop
import Mathlib.Algebra.Order.Group.Defs
import Mathlib.Algebra.BigOperators.Group.Finset.Basic

/-!
# Monotone alignment

A `Trellis` prices two moves from one time to the next: to stay at an index, and
to take the next index. Indices are placed at strictly increasing times; before
the first of them nothing is charged. `cell` is the dynamic program, `trace` the
way back, which takes its choices anew from two cells. `Placement.le_cell` and
`trace_spec` say that the cell is the greatest weight and that the way back has
that weight.
-/

namespace Py

structure Trellis (Score : Type) where
  stay : Nat → Score
  change : Nat → Nat → Score

/-- The first `n` indices, at times before `stop`. -/
structure Placement (times : List Nat) (n stop : Nat) : Prop where
  length_eq : times.length = n
  increasing : times.Pairwise (· < ·)
  below : ∀ t ∈ times, t < stop

/-- The times at which nothing is taken, from the first time on. -/
def waits (times : List Nat) (stop : Nat) : Finset Nat :=
  (Finset.range stop).filter fun t => t ∉ times ∧ ∃ first ∈ times, first < t

namespace Trellis

variable {Score : Type} [AddCommGroup Score] (g : Trellis Score)

def weight (times : List Nat) (stop : Nat) : Score :=
  (times.mapIdx fun index t => g.change t index).sum + ∑ t ∈ waits times stop, g.stay t

section
variable [LinearOrder Score]

def cell : Nat → Nat → WithBot Score
  | _, 0 => ((0 : Score) : WithBot Score)
  | 0, _ + 1 => ⊥
  | t + 1, n + 1 => max (cell t (n + 1) + g.stay t) (cell t n + g.change t n)

def trace : Nat → Nat → List Nat
  | _, 0 => []
  | 0, _ + 1 => []
  | t + 1, n + 1 =>
    if g.cell t (n + 1) + g.stay t < g.cell t n + g.change t n then trace t n ++ [t] else trace t (n + 1)

end

/-! ## One move -/

theorem waits_concat {times : List Nat} {t : Nat} (h : ∀ u ∈ times, u < t) :
    waits (times ++ [t]) (t + 1) = waits times t := by
  ext u
  unfold waits
  simp only [Finset.mem_filter, Finset.mem_range, List.mem_append, List.mem_singleton, not_or]
  constructor
  · rintro ⟨hlt, ⟨hnot, hne⟩, first, hfirst | rfl, hbefore⟩
    · exact ⟨by omega, hnot, first, hfirst, hbefore⟩
    · omega
  · rintro ⟨hlt, hnot, first, hfirst, hbefore⟩
    exact ⟨by omega, ⟨hnot, by omega⟩, first, .inl hfirst, hbefore⟩

theorem waits_succ {times : List Nat} {t : Nat} (hne : times ≠ []) (h : ∀ u ∈ times, u < t) :
    waits times (t + 1) = insert t (waits times t) := by
  obtain ⟨first, hfirst⟩ := List.exists_mem_of_ne_nil times hne
  have hwaits : t ∉ times ∧ ∃ first ∈ times, first < t :=
    ⟨fun hmem => Nat.lt_irrefl t (h t hmem), first, hfirst, h first hfirst⟩
  unfold waits
  rw [Finset.range_add_one, Finset.filter_insert, if_pos hwaits]

theorem notMem_waits {times : List Nat} {t : Nat} : t ∉ waits times t := fun h =>
  Finset.notMem_range_self (Finset.mem_filter.1 h).1

variable {g}

theorem weight_nil (stop : Nat) : g.weight [] stop = 0 := by
  have hnone : waits [] stop = ∅ := Finset.filter_false_of_mem fun t _ h => by simp at h
  unfold weight
  rw [hnone, Finset.sum_empty]
  simp

/-- To take an index adds its price. -/
theorem weight_concat {times : List Nat} {t : Nat} (h : ∀ u ∈ times, u < t) :
    g.weight (times ++ [t]) (t + 1) = g.weight times t + g.change t times.length := by
  unfold weight
  rw [waits_concat h, List.mapIdx_concat, List.sum_append, List.sum_singleton, add_right_comm]

/-- To stay, once something is taken, adds the price of the time. -/
theorem weight_succ {times : List Nat} {t : Nat} (hne : times ≠ []) (h : ∀ u ∈ times, u < t) :
    g.weight times (t + 1) = g.weight times t + g.stay t := by
  unfold weight
  rw [waits_succ hne h, Finset.sum_insert notMem_waits, add_assoc, add_comm (g.stay t)]

/-! ## The greatest weight -/

end Trellis

namespace Placement

theorem nil (stop : Nat) : Placement [] 0 stop := ⟨rfl, .nil, fun _ h => by cases h⟩

theorem weaken {times : List Nat} {n stop : Nat} (h : Placement times n stop) : Placement times n (stop + 1) :=
  ⟨h.length_eq, h.increasing, fun t ht => Nat.lt_succ_of_lt (h.below t ht)⟩

theorem concat {times : List Nat} {n stop : Nat} (h : Placement times n stop) :
    Placement (times ++ [stop]) (n + 1) (stop + 1) where
  length_eq := by rw [List.length_append, h.length_eq]; rfl
  increasing := List.pairwise_append.2 ⟨h.increasing, List.pairwise_singleton _ _, fun a ha b hb => by
    rw [List.mem_singleton.1 hb]
    exact h.below a ha⟩
  below t ht := by
    rcases List.mem_append.1 ht with ht | ht
    · exact Nat.lt_succ_of_lt (h.below t ht)
    · rw [List.mem_singleton.1 ht]
      omega

/-- The last time is the last index taken there, or a wait. -/
theorem cases_succ {times : List Nat} {n stop : Nat} (h : Placement times (n + 1) (stop + 1)) :
    (∃ front, times = front ++ [stop] ∧ Placement front n stop) ∨ Placement times (n + 1) stop := by
  obtain ⟨front, last, rfl⟩ : ∃ front last, times = front ++ [last] := by
    rcases List.eq_nil_or_concat times with rfl | ⟨front, last, rfl⟩
    · exact absurd h.length_eq (by simp)
    · exact ⟨front, last, List.concat_eq_append⟩
  obtain ⟨hfront, -, hlast⟩ := List.pairwise_append.1 h.increasing
  have hbelow : ∀ t ∈ front, t < last := fun t ht => hlast t ht last (List.mem_singleton_self last)
  have hlt := h.below last (List.mem_append.2 (.inr (List.mem_singleton_self last)))
  have hlength : front.length = n := by
    have := h.length_eq
    rw [List.length_append, List.length_singleton] at this
    omega
  rcases Nat.lt_succ_iff_lt_or_eq.1 hlt with hlt | rfl
  · refine .inr ⟨h.length_eq, h.increasing, fun t ht => ?_⟩
    rcases List.mem_append.1 ht with ht | ht
    · exact Nat.lt_trans (hbelow t ht) hlt
    · rw [List.mem_singleton.1 ht]
      exact hlt
  · exact .inl ⟨front, rfl, hlength, hfront, hbelow⟩

theorem ne_nil {times : List Nat} {n stop : Nat} (h : Placement times (n + 1) stop) : times ≠ [] := by
  rintro rfl
  exact absurd h.length_eq (by simp)

end Placement

namespace Trellis

variable {Score : Type} [AddCommGroup Score] [LinearOrder Score] {g : Trellis Score}

/-- The way back from a finite cell takes every index, and has the weight of the cell. -/
theorem trace_spec {n stop : Nat} (h : g.cell stop n ≠ ⊥) : Placement (g.trace stop n) n stop ∧
    ((g.weight (g.trace stop n) stop : Score) : WithBot Score) = g.cell stop n := by
  induction stop generalizing n with
  | zero =>
    cases n with
    | zero => exact ⟨.nil 0, by rw [trace, weight_nil]; rfl⟩
    | succ n => exact absurd rfl h
  | succ stop ih =>
    cases n with
    | zero => exact ⟨.nil _, by rw [trace, weight_nil]; rfl⟩
    | succ n =>
      rw [trace]
      rw [cell] at h ⊢
      split_ifs with hchange
      · rw [max_eq_right (le_of_lt hchange)] at h ⊢
        obtain ⟨hp, hw⟩ := ih (WithBot.add_ne_bot.1 h).1
        refine ⟨hp.concat, ?_⟩
        rw [weight_concat hp.below, hp.length_eq, WithBot.coe_add, hw]
      · rw [max_eq_left (not_lt.1 hchange)] at h ⊢
        obtain ⟨hp, hw⟩ := ih (WithBot.add_ne_bot.1 h).1
        refine ⟨hp.weaken, ?_⟩
        rw [weight_succ hp.ne_nil hp.below, WithBot.coe_add, hw]

variable [IsOrderedAddMonoid Score]

/-- No placement outweighs the cell. -/
theorem le_cell {times : List Nat} {n stop : Nat} (h : Placement times n stop) :
    ((g.weight times stop : Score) : WithBot Score) ≤ g.cell stop n := by
  induction stop generalizing times n with
  | zero =>
    cases n with
    | zero =>
      rw [List.length_eq_zero_iff.1 h.length_eq, weight_nil]
      exact le_refl _
    | succ n =>
      obtain ⟨t, ht⟩ := List.exists_mem_of_ne_nil times h.ne_nil
      exact absurd (h.below t ht) (Nat.not_lt_zero t)
  | succ stop ih =>
    cases n with
    | zero =>
      rw [List.length_eq_zero_iff.1 h.length_eq, weight_nil]
      exact le_refl _
    | succ n =>
      rcases h.cases_succ with ⟨front, rfl, hfront⟩ | hstay
      · rw [weight_concat hfront.below, hfront.length_eq, WithBot.coe_add]
        exact le_max_of_le_right (by gcongr; exact ih hfront)
      · rw [weight_succ hstay.ne_nil hstay.below, WithBot.coe_add]
        exact le_max_of_le_left (by gcongr; exact ih hstay)

/-- Before index `n` there is room for `n` indices. -/
theorem cell_ne_bot {n stop : Nat} (h : n ≤ stop) : g.cell stop n ≠ ⊥ := by
  have hp : Placement (List.range n) n stop :=
    ⟨List.length_range, List.pairwise_lt_range, fun t ht => Nat.lt_of_lt_of_le (List.mem_range.1 ht) h⟩
  exact fun hbot => WithBot.coe_ne_bot (le_bot_iff.1 (hbot ▸ le_cell hp))

end Trellis

end Py
