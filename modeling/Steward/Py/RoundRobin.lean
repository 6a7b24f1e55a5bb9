import Mathlib

/-!
# Rounds over buckets

In every round each bucket gives its next items, up to its quota, until all of
them are empty. The rounds together are a permutation of the buckets, and what
one bucket gives stays in its order.
-/

namespace Py

section
variable {α κ : Type} (names : List κ) (quota : κ → Nat) (bucket : κ → List α)

/-- The items of one round, bucket by bucket, from `position` on. -/
def roundItems (position : κ → Nat) : List α :=
  names.flatMap fun n => ((bucket n).drop (position n)).take (quota n)

/-- The items not given yet. -/
def itemsLeft (position : κ → Nat) : Nat := (names.map fun n => (bucket n).length - position n).sum

variable {names quota bucket}

theorem itemsLeft_round (hquota : ∀ n, 0 < quota n) {position : κ → Nat}
    (h : ∃ n ∈ names, position n < (bucket n).length) :
    itemsLeft names bucket (fun n => min (bucket n).length (position n + quota n)) <
      itemsLeft names bucket position := by
  obtain ⟨n, hn, hlt⟩ := h
  refine List.sum_lt_sum _ _ (fun m _ => ?_) ⟨n, hn, ?_⟩
  · dsimp only
    omega
  · have hpos := hquota n
    dsimp only
    omega

variable (names bucket)

/-- `while any(positions[name] < len(bucket) …)` -/
def rounds (hquota : ∀ n, 0 < quota n) (position : κ → Nat) : List (List α) :=
  if _h : ∃ n ∈ names, position n < (bucket n).length then
    roundItems names quota bucket position ::
      rounds hquota fun n => min (bucket n).length (position n + quota n)
  else []
termination_by itemsLeft names bucket position
decreasing_by exact itemsLeft_round hquota _h

end

section
variable {α κ : Type} {names : List κ} {quota : κ → Nat} {bucket : κ → List α} {hquota : ∀ n, 0 < quota n}

theorem drop_min {xs : List α} (n : Nat) : xs.drop (min xs.length n) = xs.drop n := by
  rcases Nat.le_total xs.length n with h | h
  · rw [Nat.min_eq_left h, List.drop_length, List.drop_eq_nil_of_le h]
  · rw [Nat.min_eq_right h]

/-- Buckets with nothing left. -/
theorem drop_of_exhausted {position : κ → Nat} (h : ¬ ∃ n ∈ names, position n < (bucket n).length) {n : κ}
    (hn : n ∈ names) : (bucket n).drop (position n) = [] := by
  refine List.drop_eq_nil_of_le ?_
  by_contra hlt
  exact h ⟨n, hn, by omega⟩

/-- The rounds give what the buckets hold. -/
theorem rounds_perm (position : κ → Nat) :
    (rounds names bucket hquota position).flatten.Perm (names.flatMap fun n => (bucket n).drop (position n)) := by
  fun_induction rounds names bucket hquota position with
  | case1 position h ih =>
    have hsplit (n : κ) : (bucket n).drop (position n) = ((bucket n).drop (position n)).take (quota n) ++
        (bucket n).drop (min (bucket n).length (position n + quota n)) := by
      rw [drop_min, ← List.drop_drop, List.take_append_drop]
    have hall : (names.flatMap fun n => (bucket n).drop (position n)) = names.flatMap fun n =>
        ((bucket n).drop (position n)).take (quota n) ++
          (bucket n).drop (min (bucket n).length (position n + quota n)) :=
      congrArg (names.flatMap ·) (funext hsplit)
    rw [List.flatten_cons, hall]
    exact (ih.append_left _).trans (List.flatMap_append_perm _ _ _)
  | case2 position h =>
    have hnone : (names.flatMap fun n => (bucket n).drop (position n)) = [] :=
      List.flatMap_eq_nil_iff.2 fun n hn => drop_of_exhausted h hn
    rw [hnone]
    exact .refl _

section
variable {label : α → κ} [DecidableEq κ]

/-- Buckets by label share a list out. -/
theorem flatMap_filter_perm (label : α → κ) (hnodup : names.Nodup) (xs : List α) :
    (names.flatMap fun n => xs.filter fun x => label x = n).Perm (xs.filter fun x => label x ∈ names) := by
  induction names with
  | nil => simp
  | cons n names ih =>
    obtain ⟨hn, hnodup⟩ := List.nodup_cons.1 hnodup
    have hhere : (xs.filter fun x => label x ∈ n :: names).filter (fun x => label x = n) =
        xs.filter fun x => label x = n := by
      rw [List.filter_filter]
      refine List.filter_congr fun x _ => ?_
      by_cases hx : label x = n <;> simp [hx]
    have hrest : (xs.filter fun x => label x ∈ n :: names).filter (fun x => !decide (label x = n)) =
        xs.filter fun x => label x ∈ names := by
      rw [List.filter_filter]
      refine List.filter_congr fun x _ => ?_
      by_cases hx : label x = n
      · simp [hx, hn]
      · simp [hx]
    have hsplit := List.filter_append_perm (fun x => decide (label x = n)) (xs.filter fun x => label x ∈ n :: names)
    rw [hhere, hrest] at hsplit
    rw [List.flatMap_cons]
    exact ((ih hnodup).append_left _).trans hsplit

/-- The items of one bucket among those of a round. -/
theorem filter_flatMap_label {slice : κ → List α} (hslice : ∀ n, ∀ x ∈ slice n, label x = n) (hnodup : names.Nodup)
    {n : κ} (hn : n ∈ names) : (names.flatMap slice).filter (fun x => label x = n) = slice n := by
  induction names with
  | nil => cases hn
  | cons m names ih =>
    obtain ⟨hm, hnodup⟩ := List.nodup_cons.1 hnodup
    rw [List.flatMap_cons, List.filter_append]
    rcases List.mem_cons.1 hn with rfl | hn'
    · have hself : (slice n).filter (fun x => label x = n) = slice n :=
        List.filter_eq_self.2 fun x hx => decide_eq_true (hslice n x hx)
      have hothers : (names.flatMap slice).filter (fun x => label x = n) = [] := by
        refine List.filter_eq_nil_iff.2 fun x hx => ?_
        obtain ⟨k, hk, hxk⟩ := List.mem_flatMap.1 hx
        rw [decide_eq_true_eq, hslice k x hxk]
        rintro rfl
        exact hm hk
      rw [hself, hothers, List.append_nil]
    · have hother : (slice m).filter (fun x => label x = n) = [] := by
        refine List.filter_eq_nil_iff.2 fun x hx => ?_
        rw [decide_eq_true_eq, hslice m x hx]
        rintro rfl
        exact hm hn'
      rw [hother, List.nil_append]
      exact ih hnodup hn'

variable (hlabel : ∀ n, ∀ x ∈ bucket n, label x = n) (hnodup : names.Nodup)
include hlabel hnodup

theorem filter_roundItems (position : κ → Nat) {n : κ} (hn : n ∈ names) :
    (roundItems names quota bucket position).filter (fun x => label x = n) =
      ((bucket n).drop (position n)).take (quota n) :=
  filter_flatMap_label (fun m x hx => hlabel m x (List.mem_of_mem_drop (List.mem_of_mem_take hx))) hnodup hn

/-- The rounds keep the order inside a bucket. -/
theorem filter_rounds (position : κ → Nat) {n : κ} (hn : n ∈ names) :
    (rounds names bucket hquota position).flatten.filter (fun x => label x = n) =
      (bucket n).drop (position n) := by
  fun_induction rounds names bucket hquota position with
  | case1 position h ih =>
    rw [List.flatten_cons, List.filter_append, filter_roundItems hlabel hnodup position hn, ih, drop_min,
      ← List.drop_drop, List.take_append_drop]
  | case2 position h => rw [drop_of_exhausted h hn, List.flatten_nil, List.filter_nil]

/-- What one bucket gives in one round: its next items, up to its quota. -/
theorem filter_of_getElem?_rounds (position : κ → Nat) {n : κ} (hn : n ∈ names) {i : Nat} {round : List α}
    (hi : (rounds names bucket hquota position)[i]? = some round) :
    round.filter (fun x => label x = n) = ((bucket n).drop (position n + i * quota n)).take (quota n) := by
  induction i generalizing position with
  | zero =>
    rw [rounds] at hi
    split_ifs at hi with h
    · rw [List.getElem?_cons_zero, Option.some.injEq] at hi
      rw [← hi, filter_roundItems hlabel hnodup position hn, Nat.zero_mul, Nat.add_zero]
    · cases hi
  | succ i ih =>
    rw [rounds] at hi
    split_ifs at hi with h
    · rw [List.getElem?_cons_succ] at hi
      rw [ih _ hi, ← List.drop_drop, drop_min, List.drop_drop, Nat.succ_mul, Nat.add_assoc,
        Nat.add_comm (quota n)]
    · cases hi

end

end

end Py
