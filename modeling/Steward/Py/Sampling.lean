import Mathlib.Data.List.Range
import Mathlib.Data.List.Sort

/-!
# Uniform samples

`round` of a quotient, `dict.fromkeys`, and the indices that spread a number of
samples over a list.
-/

namespace Py

/-- `round(a / b)`, to the even neighbour half way between two integers. -/
def roundedQuotient (a b : Nat) : Nat :=
  if 2 * (a % b) < b then a / b
  else if b < 2 * (a % b) then a / b + 1
  else if a / b % 2 = 0 then a / b
  else a / b + 1

theorem roundedQuotient_mul {k b : Nat} (hb : 0 < b) : roundedQuotient (k * b) b = k := by
  unfold roundedQuotient
  rw [Nat.mul_mod_left, Nat.mul_div_cancel k hb, if_pos (by omega)]

theorem roundedQuotient_mono {a a' b : Nat} (h : a ≤ a') :
    roundedQuotient a b ≤ roundedQuotient a' b := by
  have hdiv : a / b ≤ a' / b := Nat.div_le_div_right h
  have hsame : a / b = a' / b → a % b ≤ a' % b := by
    intro heq
    have ha := Nat.div_add_mod a b
    have ha' := Nat.div_add_mod a' b
    rw [heq] at ha
    omega
  unfold roundedQuotient
  generalize a / b = q at *
  generalize a' / b = q' at *
  split_ifs <;> omega

/-! ## Keys in order -/

/-- `list(dict.fromkeys(xs))` -/
def fromKeys {α : Type} [DecidableEq α] (xs : List α) : List α :=
  xs.foldl (fun keys x => if x ∈ keys then keys else keys ++ [x]) []

theorem mem_fromKeys {α : Type} [DecidableEq α] {xs : List α} {x : α} : x ∈ fromKeys xs ↔ x ∈ xs := by
  induction xs using List.reverseRecOn with
  | nil => exact Iff.rfl
  | append_singleton xs y ih =>
    have hstep : fromKeys (xs ++ [y]) = if y ∈ fromKeys xs then fromKeys xs else fromKeys xs ++ [y] :=
      List.foldl_concat _ _ _ _
    rw [hstep, List.mem_append, List.mem_singleton, ← ih]
    split_ifs with hy
    · refine ⟨.inl, fun h => h.elim id fun heq => ?_⟩
      rwa [heq]
    · rw [List.mem_append, List.mem_singleton]

/-- The keys of numbers that never fall. -/
structure KeysOf (xs keys : List Nat) : Prop where
  increasing : keys.Pairwise (· < ·)
  mem : ∀ k, k ∈ keys ↔ k ∈ xs
  length : keys.length ≤ xs.length

theorem KeysOf.step {xs keys : List Nat} (h : KeysOf xs keys) {x : Nat} (hx : ∀ y ∈ xs, y ≤ x) :
    KeysOf (xs ++ [x]) (if x ∈ keys then keys else keys ++ [x]) := by
  have hlen := h.length
  have hsum : (xs ++ [x]).length = xs.length + 1 := by simp
  split_ifs with hmem
  · refine ⟨h.increasing, fun k => ?_, by omega⟩
    rw [List.mem_append, ← h.mem, List.mem_singleton]
    exact ⟨.inl, fun hk => hk.elim id fun hk => hk ▸ hmem⟩
  · refine ⟨List.pairwise_append.2 ⟨h.increasing, List.pairwise_singleton _ _, fun y hy z hz => ?_⟩, fun k => ?_, ?_⟩
    · rw [List.mem_singleton.1 hz]
      have hle := hx y ((h.mem y).1 hy)
      have hne : y ≠ x := fun heq => hmem (heq ▸ hy)
      omega
    · rw [List.mem_append, List.mem_append, h.mem]
    · rw [hsum, List.length_append, List.length_singleton]
      omega

theorem keysOf_fromKeys {xs : List Nat} (h : xs.Pairwise (· ≤ ·)) : KeysOf xs (fromKeys xs) := by
  have hrun : ∀ (rest seen keys : List Nat), KeysOf seen keys → (seen ++ rest).Pairwise (· ≤ ·) →
      KeysOf (seen ++ rest) (rest.foldl (fun keys x => if x ∈ keys then keys else keys ++ [x]) keys) := by
    intro rest
    induction rest with
    | nil =>
      intro seen keys hk _
      rwa [List.append_nil]
    | cons x rest ih =>
      intro seen keys hk hs
      have hsplit : seen ++ x :: rest = (seen ++ [x]) ++ rest := by
        rw [List.append_assoc]
        rfl
      have hx : ∀ y ∈ seen, y ≤ x := fun y hy => (List.pairwise_append.1 hs).2.2 y hy x List.mem_cons_self
      rw [hsplit] at hs ⊢
      exact ih (seen ++ [x]) _ (hk.step hx) hs
  exact hrun xs [] [] ⟨List.Pairwise.nil, fun _ => Iff.rfl, Nat.le_refl _⟩ h

/-! ## Spreading samples -/

/-- `round(index * (n - 1) / (limit - 1)) for index in range(limit)`, without repetitions. -/
def spread (n limit : Nat) : List Nat :=
  fromKeys ((List.range limit).map fun index => roundedQuotient (index * (n - 1)) (limit - 1))

/-- At most `limit` indices, increasing, from the first to the last. -/
theorem spread_spec {n limit : Nat} (hn : 0 < n) (hlimit : 2 ≤ limit) :
    (spread n limit).Pairwise (· < ·) ∧ (∀ i ∈ spread n limit, i < n) ∧ (spread n limit).length ≤ limit ∧
      0 ∈ spread n limit ∧ n - 1 ∈ spread n limit := by
  have hb : 0 < limit - 1 := by omega
  have hmono : ((List.range limit).map fun index => roundedQuotient (index * (n - 1)) (limit - 1)).Pairwise (· ≤ ·) := by
    rw [List.pairwise_map]
    exact List.pairwise_lt_range.imp fun hij => roundedQuotient_mono (Nat.mul_le_mul_right _ (Nat.le_of_lt hij))
  have hlast : roundedQuotient ((limit - 1) * (n - 1)) (limit - 1) = n - 1 := by
    rw [Nat.mul_comm]
    exact roundedQuotient_mul hb
  obtain ⟨hincreasing, hmem, hlength⟩ := keysOf_fromKeys hmono
  refine ⟨hincreasing, fun i hi => ?_, ?_, ?_, ?_⟩
  · obtain ⟨index, hindex, rfl⟩ := List.mem_map.1 ((hmem i).1 hi)
    have hindex := List.mem_range.1 hindex
    have hle := @roundedQuotient_mono _ _ (limit - 1)
      (Nat.mul_le_mul_right (n - 1) (show index ≤ limit - 1 by omega))
    rw [hlast] at hle
    show roundedQuotient (index * (n - 1)) (limit - 1) < n
    omega
  · rw [List.length_map, List.length_range] at hlength
    exact hlength
  · refine (hmem 0).2 (List.mem_map.2 ⟨0, List.mem_range.2 (by omega), ?_⟩)
    rw [Nat.zero_mul]
    have hzero := @roundedQuotient_mul 0 (limit - 1) hb
    rwa [Nat.zero_mul] at hzero
  · exact (hmem (n - 1)).2 (List.mem_map.2 ⟨limit - 1, List.mem_range.2 (by omega), hlast⟩)

/-! ## Elements at increasing indices -/

section
variable {α : Type} {xs : List α} {indexes : List Nat}

theorem filterMap_getElem? (xs : List α) : (List.range xs.length).filterMap (fun i => xs[i]?) = xs := by
  induction xs with
  | nil => rfl
  | cons x xs ih =>
    rw [List.length_cons, List.range_succ_eq_map, List.filterMap_cons, List.filterMap_map]
    exact congrArg (x :: ·) ih

/-- Increasing indices pick the elements in their order. -/
theorem pick_sublist (hincreasing : indexes.Pairwise (· < ·)) (hbound : ∀ i ∈ indexes, i < xs.length) :
    (indexes.filterMap fun i => xs[i]?).Sublist xs := by
  have hsub : indexes.Sublist (List.range xs.length) := by
    refine List.sublist_of_subperm_of_pairwise (r := (· < ·)) ?_ hincreasing List.pairwise_lt_range
    have hnodup : indexes.Nodup := hincreasing.imp fun h => Nat.ne_of_lt h
    exact List.subperm_of_subset hnodup fun i hi => List.mem_range.2 (hbound i hi)
  have hpick := hsub.filterMap fun i => xs[i]?
  rwa [filterMap_getElem?] at hpick

theorem pick_head? (hincreasing : indexes.Pairwise (· < ·)) (hbound : ∀ i ∈ indexes, i < xs.length)
    (hfirst : 0 ∈ indexes) : (indexes.filterMap fun i => xs[i]?).head? = xs.head? := by
  cases indexes with
  | nil => cases hfirst
  | cons i rest =>
    have hi : i = 0 := by
      rcases List.mem_cons.1 hfirst with h | h
      · exact h.symm
      · have hlt := List.rel_of_pairwise_cons hincreasing h
        omega
    have hlt := hbound i List.mem_cons_self
    subst hi
    rw [List.filterMap_cons, List.getElem?_eq_getElem hlt]
    exact (List.head?_eq_getElem? ▸ List.getElem?_eq_getElem hlt).symm

theorem pick_getLast? (hincreasing : indexes.Pairwise (· < ·)) (hbound : ∀ i ∈ indexes, i < xs.length)
    (hlast : xs.length - 1 ∈ indexes) : (indexes.filterMap fun i => xs[i]?).getLast? = xs.getLast? := by
  rcases List.eq_nil_or_concat indexes with rfl | ⟨front, i, rfl⟩
  · cases hlast
  rw [List.concat_eq_append] at *
  have hlt := hbound i (by simp)
  have hi : i = xs.length - 1 := by
    rcases List.mem_append.1 hlast with h | h
    · have hbelow := (List.pairwise_append.1 hincreasing).2.2 _ h i (List.mem_singleton_self i)
      omega
    · exact (List.mem_singleton.1 h).symm
  rw [List.filterMap_append, List.filterMap_cons, List.getElem?_eq_getElem hlt, List.filterMap_nil, List.getLast?_concat,
    List.getLast?_eq_getElem?, ← hi, List.getElem?_eq_getElem hlt]

end

end Py
