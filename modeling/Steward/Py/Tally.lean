import Mathlib.Data.List.Induction
import Mathlib.Data.List.Nodup

/-!
# Tallies

A dictionary whose values are made on their first use and changed by every use:
`node = d.setdefault(k, fresh)`, and then `node` is updated.
-/

namespace Py

section
variable {κ β ρ : Type} [DecidableEq κ] (fresh : β) (step : β → ρ → β)

/-- One use of the key `k`. -/
def tallyInto (d : List (κ × β)) (k : κ) (x : ρ) : List (κ × β) :=
  (if d.any fun n => n.1 = k then d else d ++ [(k, fresh)]).map fun n => if n.1 = k then (n.1, step n.2 x) else n

def tally (xs : List (κ × ρ)) : List (κ × β) := xs.foldl (fun d x => tallyInto fresh step d x.1 x.2) []

variable {fresh step} {xs : List (κ × ρ)}

theorem tally_concat (xs : List (κ × ρ)) (x : κ × ρ) :
    tally fresh step (xs ++ [x]) = tallyInto fresh step (tally fresh step xs) x.1 x.2 := by
  unfold tally
  rw [List.foldl_append]
  rfl

theorem keys_tallyInto (d : List (κ × β)) (k : κ) (x : ρ) :
    (tallyInto fresh step d k x).map Prod.fst =
      if k ∈ d.map Prod.fst then d.map Prod.fst else d.map Prod.fst ++ [k] := by
  have hkeys : ∀ e : List (κ × β), (e.map fun n => if n.1 = k then (n.1, step n.2 x) else n).map Prod.fst = e.map Prod.fst := by
    intro e
    rw [List.map_map]
    refine List.map_congr_left fun n _ => ?_
    show (if n.1 = k then (n.1, step n.2 x) else n).1 = n.1
    split_ifs <;> rfl
  have hany : (d.any fun n => n.1 = k) = true ↔ k ∈ d.map Prod.fst := by simp
  unfold tallyInto
  rw [hkeys]
  by_cases hk : k ∈ d.map Prod.fst
  · rw [if_pos (hany.2 hk), if_pos hk]
  · rw [if_neg fun h => hk (hany.1 h), if_neg hk, List.map_append]
    rfl

theorem mem_keys_tally {k : κ} : k ∈ (tally fresh step xs).map Prod.fst ↔ k ∈ xs.map Prod.fst := by
  induction xs using List.reverseRecOn with
  | nil => exact Iff.rfl
  | append_singleton xs x ih =>
    rw [tally_concat, keys_tallyInto, List.map_append, List.mem_append, ← ih]
    split_ifs with h
    · refine ⟨.inl, fun hk => hk.elim id fun hk => ?_⟩
      rw [List.mem_singleton.1 hk]
      exact h
    · exact List.mem_append

/-- A key's value is what its uses make of a fresh one. -/
theorem snd_of_mem_tally {n : κ × β} (hn : n ∈ tally fresh step xs) :
    n.2 = ((xs.filter fun x => x.1 = n.1).map Prod.snd).foldl step fresh := by
  induction xs using List.reverseRecOn generalizing n with
  | nil => cases hn
  | append_singleton xs x ih =>
    rw [tally_concat] at hn
    unfold tallyInto at hn
    obtain ⟨m, hm, rfl⟩ := List.mem_map.1 hn
    have hfst : (if m.1 = x.1 then (m.1, step m.2 x.2) else m).1 = m.1 := by split_ifs <;> rfl
    have hvalue : m.2 = ((xs.filter fun y => y.1 = m.1).map Prod.snd).foldl step fresh := by
      split_ifs at hm with hany
      · exact ih hm
      · rcases List.mem_append.1 hm with hm | hm
        · exact ih hm
        · rw [List.mem_singleton.1 hm]
          have hnone : xs.filter (fun y => y.1 = x.1) = [] := by
            refine List.filter_eq_nil_iff.2 fun y hy hyx => ?_
            have hkey : y.1 ∈ (tally fresh step xs).map Prod.fst := mem_keys_tally.2 (List.mem_map_of_mem hy)
            obtain ⟨g, hg, hgy⟩ := List.mem_map.1 hkey
            exact hany (List.any_eq_true.2 ⟨g, hg, decide_eq_true (hgy.trans (of_decide_eq_true hyx))⟩)
          dsimp only
          rw [hnone]
          rfl
    rw [hfst, List.filter_append, List.map_append, List.foldl_append]
    by_cases hk : m.1 = x.1
    · rw [if_pos hk, List.filter_cons_of_pos (by simp [hk]), ← hvalue]
      rfl
    · rw [if_neg hk, List.filter_cons_of_neg (by simp [Ne.symm hk]), ← hvalue]
      rfl

theorem mem_tally {n : κ × β} : n ∈ tally fresh step xs ↔
    n.1 ∈ xs.map Prod.fst ∧ n.2 = ((xs.filter fun x => x.1 = n.1).map Prod.snd).foldl step fresh := by
  constructor
  · exact fun hn => ⟨mem_keys_tally.1 (List.mem_map_of_mem hn), snd_of_mem_tally hn⟩
  · rintro ⟨hk, hvalue⟩
    obtain ⟨m, hm, hmk⟩ := List.mem_map.1 (mem_keys_tally.2 hk)
    have heq : n = m := Prod.ext hmk.symm (by rw [hvalue, snd_of_mem_tally hm, hmk])
    exact heq ▸ hm

end

end Py
