import Steward.Py.Text

/-!
# Searching text

`str.find` and `str.count`.
-/

namespace Py.Text

/-- `text.find(needle)`, where it is not negative. -/
def find (needle : Text) : Text → Option Nat
  | [] => if needle.isEmpty then some 0 else none
  | c :: s => if needle.isPrefixOf (c :: s) then some 0 else (find needle s).map (· + 1)

/-- The occurrences of a needle of `width` characters that start after `skip` more ones. -/
def countFrom (needle : Text) (width : Nat) : Nat → Text → Nat
  | _, [] => 0
  | skip + 1, _ :: s => countFrom needle width skip s
  | 0, c :: s => if needle.isPrefixOf (c :: s) then countFrom needle width (width - 1) s + 1
      else countFrom needle width 0 s

/-- `text.count(needle)` of a needle that is not empty: its occurrences that do not overlap. -/
def count (needle s : Text) : Nat := countFrom needle needle.length 0 s

variable {needle s : Text}

theorem find_eq_some {i : Nat} (h : find needle s = some i) :
    ∃ pre post, s = pre ++ needle ++ post ∧ pre.length = i := by
  induction s generalizing i with
  | nil =>
    unfold find at h
    split_ifs at h with hempty
    cases h
    exact ⟨[], [], by rw [List.isEmpty_iff.1 hempty]; rfl, rfl⟩
  | cons c s ih =>
    unfold find at h
    split_ifs at h with hpre
    · cases h
      obtain ⟨post, hpost⟩ := List.isPrefixOf_iff_prefix.1 hpre
      exact ⟨[], post, hpost.symm, rfl⟩
    · obtain ⟨j, hj, rfl⟩ := Option.map_eq_some_iff.1 h
      obtain ⟨pre, post, rfl, hlen⟩ := ih hj
      exact ⟨c :: pre, post, rfl, by rw [List.length_cons, hlen]⟩

theorem find_eq_none : find needle s = none ↔ ¬ needle <:+: s := by
  induction s with
  | nil =>
    unfold find
    cases needle <;> simp
  | cons c s ih =>
    unfold find
    rw [List.infix_cons_iff]
    split_ifs with hpre
    · exact iff_of_false (by rintro ⟨⟩) fun h => h (.inl (List.isPrefixOf_iff_prefix.1 hpre))
    · rw [Option.map_eq_none_iff, ih, not_or]
      exact (and_iff_right fun h => hpre (List.isPrefixOf_iff_prefix.2 h)).symm

/-- A needle that is found is counted. -/
theorem count_pos (hne : needle ≠ []) : 0 < count needle s ↔ needle <:+: s := by
  unfold count
  induction s with
  | nil =>
    rw [List.infix_nil]
    exact iff_of_false (by simp [countFrom]) hne
  | cons c s ih =>
    unfold countFrom
    rw [List.infix_cons_iff]
    split_ifs with hpre
    · exact iff_of_true (Nat.succ_pos _) (.inl (List.isPrefixOf_iff_prefix.1 hpre))
    · rw [ih]
      exact (or_iff_right fun h => hpre (List.isPrefixOf_iff_prefix.2 h)).symm

end Py.Text
