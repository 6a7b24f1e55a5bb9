import Mathlib

/-!
# Ordered dictionaries with a total size

An ordered dictionary keeps the sum of the sizes of its entries beside them. An
entry is popped and one is appended; the oldest ones are evicted while there are
too many, or too large. `Accounted` is kept by all of these, and an entry that
fits alone is not evicted by its own insertion.
-/

namespace Py

/-! ## Ordered dictionaries -/

section
variable {K E : Type} [DecidableEq K]

/-- `d.get(k)` -/
def dictGet (d : List (K × E)) (k : K) : Option E := (d.find? fun entry => entry.1 = k).map Prod.snd

/-- `d.pop(k, None)`, what is left. -/
def dictPop (d : List (K × E)) (k : K) : List (K × E) := d.filter fun entry => entry.1 ≠ k

/-- `d.move_to_end(k)` of a key that is there. -/
def moveToEnd (d : List (K × E)) (k : K) : List (K × E) :=
  match dictGet d k with
  | some e => dictPop d k ++ [(k, e)]
  | none => d

variable {d : List (K × E)} {k : K} {e : E}

theorem mem_of_dictGet (h : dictGet d k = some e) : (k, e) ∈ d := by
  obtain ⟨⟨k', e'⟩, hfind, rfl⟩ := Option.map_eq_some_iff.1 h
  obtain rfl : k' = k := of_decide_eq_true (List.find?_some hfind :)
  exact List.mem_of_find?_eq_some hfind

theorem dictGet_eq_none : dictGet d k = none ↔ k ∉ d.map Prod.fst := by
  unfold dictGet
  rw [Option.map_eq_none_iff, List.find?_eq_none, List.mem_map]
  constructor
  · rintro h ⟨entry, hentry, hkey⟩
    exact h entry hentry (decide_eq_true hkey)
  · exact fun h entry hentry hkey => h ⟨entry, hentry, of_decide_eq_true hkey⟩

omit [DecidableEq K] in
theorem eq_of_mem_nodup (hnodup : (d.map Prod.fst).Nodup) {e' : E} (h : (k, e) ∈ d) (h' : (k, e') ∈ d) : e = e' :=
  congrArg Prod.snd (List.inj_on_of_nodup_map hnodup h h' rfl)

theorem dictGet_of_mem (hnodup : (d.map Prod.fst).Nodup) (h : (k, e) ∈ d) : dictGet d k = some e := by
  cases hget : dictGet d k with
  | none => exact absurd (List.mem_map_of_mem h) (dictGet_eq_none.1 hget)
  | some e' => rw [eq_of_mem_nodup hnodup h (mem_of_dictGet hget)]

theorem mem_dictPop {entry : K × E} : entry ∈ dictPop d k ↔ entry ∈ d ∧ entry.1 ≠ k := by
  unfold dictPop
  rw [List.mem_filter, decide_eq_true_iff]

theorem nodup_dictPop (hnodup : (d.map Prod.fst).Nodup) : ((dictPop d k).map Prod.fst).Nodup :=
  (List.Sublist.map Prod.fst List.filter_sublist).nodup hnodup

theorem perm_dictPop (hnodup : (d.map Prod.fst).Nodup) (h : (k, e) ∈ d) : d.Perm ((k, e) :: dictPop d k) := by
  induction d with
  | nil => cases h
  | cons entry d ih =>
    obtain ⟨hentry, hnodup⟩ := List.nodup_cons.1 hnodup
    rcases List.mem_cons.1 h with rfl | h
    · have hrest : dictPop ((k, e) :: d) k = d := by
        unfold dictPop
        rw [List.filter_cons, if_neg (by simp)]
        exact List.filter_eq_self.2 fun x hx => decide_eq_true fun hk => hentry (List.mem_map.2 ⟨x, hx, hk⟩)
      rw [hrest]
    · have hne : entry.1 ≠ k := fun hk => hentry (hk ▸ List.mem_map_of_mem h)
      have hrest : dictPop (entry :: d) k = entry :: dictPop d k := by
        unfold dictPop
        rw [List.filter_cons, if_pos (decide_eq_true hne)]
      rw [hrest]
      exact ((ih hnodup h).cons entry).trans (List.Perm.swap _ _ _)

theorem moveToEnd_perm (hnodup : (d.map Prod.fst).Nodup) : (moveToEnd d k).Perm d := by
  unfold moveToEnd
  split
  · rename_i e hget
    exact List.perm_append_comm.trans (perm_dictPop hnodup (mem_of_dictGet hget)).symm
  · rfl

end

/-! ## With sizes -/

structure SizedDict (K E : Type) where
  entries : List (K × E)
  totalBytes : Int

namespace SizedDict

section
variable {K E : Type} [DecidableEq K] (size : E → Int)

/-- An entry is popped if it is there. -/
def pop (d : SizedDict K E) (k : K) : SizedDict K E :=
  match dictGet d.entries k with
  | some e => ⟨dictPop d.entries k, d.totalBytes - size e⟩
  | none => d

/-- `while len(d) > max_entries or total > max_bytes: d.popitem(last=False)`; an empty dictionary has no item. -/
def evict (maxEntries : Nat) (maxBytes : Int) : List (K × E) → Int → Option (SizedDict K E)
  | [], total => if total > maxBytes then none else some ⟨[], total⟩
  | entry :: entries, total =>
    if (entry :: entries).length > maxEntries ∨ total > maxBytes then
      evict maxEntries maxBytes entries (total - size entry.2)
    else some ⟨entry :: entries, total⟩

/-- An entry takes the place of one of its key at the end, and the oldest are evicted. -/
def insert (maxEntries : Nat) (maxBytes : Int) (d : SizedDict K E) (k : K) (e : E) : Option (SizedDict K E) :=
  let d := d.pop size k
  evict size maxEntries maxBytes (d.entries ++ [(k, e)]) (d.totalBytes + size e)

/-- One entry a key, and the total is the sum of their sizes. -/
structure Accounted (d : SizedDict K E) : Prop where
  nodup : (d.entries.map Prod.fst).Nodup
  total_eq : d.totalBytes = (d.entries.map fun entry => size entry.2).sum
  sizes : ∀ entry ∈ d.entries, 0 ≤ size entry.2

variable {size} {d : SizedDict K E} {k : K}

omit [DecidableEq K] in
theorem accounted_empty : Accounted size (⟨[], 0⟩ : SizedDict K E) := ⟨.nil, rfl, nofun⟩

theorem mem_pop {entry : K × E} : entry ∈ (d.pop size k).entries ↔ entry ∈ d.entries ∧ entry.1 ≠ k := by
  unfold pop
  split
  · exact mem_dictPop
  · rename_i hget
    exact ⟨fun h => ⟨h, fun hk => dictGet_eq_none.1 hget (hk ▸ List.mem_map_of_mem h)⟩, And.left⟩

theorem Accounted.pop (h : Accounted size d) (k : K) : Accounted size (d.pop size k) := by
  refine ⟨?_, ?_, fun entry hentry => h.sizes entry (mem_pop.1 hentry).1⟩
  · unfold SizedDict.pop
    split
    · exact nodup_dictPop h.nodup
    · exact h.nodup
  · unfold SizedDict.pop
    split
    · rename_i e hget
      have hsum := ((perm_dictPop h.nodup (mem_of_dictGet hget)).map fun entry => size entry.2).sum_eq
      rw [List.map_cons, List.sum_cons] at hsum
      dsimp only at hsum ⊢
      rw [h.total_eq, hsum]
      omega
    · exact h.total_eq

theorem Accounted.total_le_pop (h : Accounted size d) (k : K) : (d.pop size k).totalBytes ≤ d.totalBytes := by
  unfold SizedDict.pop
  split
  · rename_i e hget
    have hsize := h.sizes _ (mem_of_dictGet hget)
    dsimp only at hsize ⊢
    omega
  · exact Int.le_refl _

theorem length_pop_le (d : SizedDict K E) (k : K) : (d.pop size k).entries.length ≤ d.entries.length := by
  unfold SizedDict.pop
  split
  · exact List.length_filter_le _ _
  · exact Nat.le_refl _

omit [DecidableEq K] in
/-- Entries are evicted from the front until the rest fits; the last one stays. -/
theorem evict_spec {maxEntries : Nat} {maxBytes : Int} (hentries : 1 ≤ maxEntries) {front : List (K × E)}
    {last : K × E} (hsizes : ∀ entry ∈ front, 0 ≤ size entry.2) (hlast : size last.2 ≤ maxBytes) :
    ∃ kept, kept <:+ front ∧
      evict size maxEntries maxBytes (front ++ [last]) ((front ++ [last]).map fun entry => size entry.2).sum =
        some ⟨kept ++ [last], ((kept ++ [last]).map fun entry => size entry.2).sum⟩ ∧
      (kept ++ [last]).length ≤ maxEntries ∧ ((kept ++ [last]).map fun entry => size entry.2).sum ≤ maxBytes := by
  induction front with
  | nil =>
    have hfits : ¬ ([last].length > maxEntries ∨ ([last].map fun entry => size entry.2).sum > maxBytes) := by
      rw [List.map_singleton, List.sum_singleton, List.length_singleton]
      omega
    refine ⟨[], List.suffix_rfl, ?_, ?_, ?_⟩
    · rw [List.nil_append, evict, if_neg hfits]
    · rw [List.nil_append, List.length_singleton]
      exact hentries
    · rw [List.nil_append, List.map_singleton, List.sum_singleton]
      exact hlast
  | cons entry front ih =>
    obtain ⟨kept, hsuffix, hevict, hlength, hsum⟩ := ih fun e he => hsizes e (List.mem_cons_of_mem _ he)
    rw [List.cons_append, evict]
    split_ifs with hover
    · refine ⟨kept, hsuffix.trans (List.suffix_cons _ _), ?_, hlength, hsum⟩
      rw [List.map_cons, List.sum_cons, Int.add_comm, Int.add_sub_cancel]
      exact hevict
    · rw [not_or, Nat.not_lt, Int.not_lt] at hover
      exact ⟨entry :: front, List.suffix_rfl, rfl, hover.1, hover.2⟩

/-- An entry that fits alone is inserted and stays; the rest are entries from before. -/
theorem Accounted.insert (h : Accounted size d) {maxEntries : Nat} {maxBytes : Int} (hentries : 1 ≤ maxEntries) {e : E}
    (hnonneg : 0 ≤ size e) (hfits : size e ≤ maxBytes) : ∃ d', d.insert size maxEntries maxBytes k e = some d' ∧
      Accounted size d' ∧ d'.entries.length ≤ maxEntries ∧ d'.totalBytes ≤ maxBytes ∧ (k, e) ∈ d'.entries ∧
      ∀ entry ∈ d'.entries, entry = (k, e) ∨ entry ∈ d.entries := by
  have hpop := h.pop k
  obtain ⟨kept, hsuffix, hevict, hlength, hsum⟩ :=
    @evict_spec _ _ size _ _ hentries _ (k, e) (fun entry hentry => hpop.sizes entry hentry) hfits
  have htotal : (d.pop size k).totalBytes + size e =
      (((d.pop size k).entries ++ [(k, e)]).map fun entry => size entry.2).sum := by
    rw [List.map_append, List.sum_append, hpop.total_eq]
    simp
  refine ⟨⟨kept ++ [(k, e)], _⟩, ?_, ⟨?_, rfl, fun entry hentry => ?_⟩, hlength, hsum,
    List.mem_append.2 (.inr (List.mem_singleton_self _)), fun entry hentry => ?_⟩
  · unfold SizedDict.insert
    dsimp only
    rw [htotal]
    exact hevict
  · rw [List.map_append, List.map_singleton, List.nodup_append']
    refine ⟨(hsuffix.sublist.map Prod.fst).nodup hpop.nodup, List.nodup_singleton _, fun key hkey hsame => ?_⟩
    obtain ⟨entry, hentry, rfl⟩ := List.mem_map.1 hkey
    exact (mem_pop.1 (hsuffix.mem hentry)).2 (List.mem_singleton.1 hsame)
  · rcases List.mem_append.1 hentry with hentry | hentry
    · exact hpop.sizes entry (hsuffix.mem hentry)
    · rw [List.mem_singleton.1 hentry]
      exact hnonneg
  · rcases List.mem_append.1 hentry with hentry | hentry
    · exact .inr (mem_pop.1 (hsuffix.mem hentry)).1
    · exact .inl (List.mem_singleton.1 hentry)

end

end SizedDict

end Py
