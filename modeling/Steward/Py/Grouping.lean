import Mathlib.Data.List.Induction
import Mathlib.Algebra.BigOperators.Group.List.Basic
import Steward.Py.Collections
import Steward.Py.Error

/-!
# Grouping and sorting by key

Dictionaries of lists filled in a loop, and `sorted` with a key that may raise.
What either yields depends on the order of its input only where two of its
elements share a key.
-/

namespace Py

/-! ## Sorting -/

section
variable {α κ : Type} [LinearOrder κ] {key : α → κ} {xs ys : List α}

theorem sortedBy_pairwise : (sortedBy key xs).Pairwise fun a b => key a ≤ key b := by
  have htotal : Std.Total fun a b : α => key a ≤ key b := ⟨fun a b => le_total (key a) (key b)⟩
  have htrans : IsTrans α fun a b : α => key a ≤ key b := ⟨fun _ _ _ => le_trans⟩
  exact List.pairwise_insertionSort _ xs

/-- A key that tells the elements apart leaves one sorted order. -/
theorem sortedBy_unique (hperm : xs.Perm ys) (hsorted : ys.Pairwise fun a b => key a ≤ key b)
    (hinj : ∀ x ∈ xs, ∀ y ∈ xs, key x = key y → x = y) : sortedBy key xs = ys := by
  refine List.Perm.eq_of_pairwise (fun a b ha hb hab hba => ?_) sortedBy_pairwise hsorted
    (sortedBy_perm.trans hperm)
  exact hinj a (mem_sortedBy.1 ha) b (hperm.mem_iff.2 hb) (le_antisymm hab hba)

theorem sortedBy_eq_of_perm (hperm : xs.Perm ys)
    (hinj : ∀ x ∈ xs, ∀ y ∈ xs, key x = key y → x = y) : sortedBy key xs = sortedBy key ys :=
  sortedBy_unique (hperm.trans sortedBy_perm.symm) sortedBy_pairwise hinj

/-- `sorted(set(ks))` -/
def sortedKeys (ks : List κ) : List κ := ks.dedup.insertionSort (· ≤ ·)

@[simp] theorem mem_sortedKeys {k : κ} {ks : List κ} : k ∈ sortedKeys ks ↔ k ∈ ks := by
  rw [sortedKeys, (List.perm_insertionSort _ _).mem_iff, List.mem_dedup]

theorem nodup_sortedKeys {ks : List κ} : (sortedKeys ks).Nodup :=
  (List.perm_insertionSort _ _).nodup_iff.2 ks.nodup_dedup

/-- The sorted set is a function of the set. -/
theorem sortedKeys_congr {ks ls : List κ} (h : ∀ k, k ∈ ks ↔ k ∈ ls) : sortedKeys ks = sortedKeys ls := by
  have hperm : ks.dedup.Perm ls.dedup :=
    (List.perm_ext_iff_of_nodup ks.nodup_dedup ls.nodup_dedup).2 fun k => by simp [h k]
  exact List.Perm.eq_of_pairwise (fun _ _ _ _ => le_antisymm) (List.pairwise_insertionSort _ _)
    (List.pairwise_insertionSort _ _)
    ((List.perm_insertionSort _ _).trans (hperm.trans (List.perm_insertionSort _ _).symm))

theorem sortedKeys_perm {ks ls : List κ} (h : ks.Perm ls) : sortedKeys ks = sortedKeys ls :=
  sortedKeys_congr fun _ => h.mem_iff

end

/-! ## Maps that may raise -/

/-- A fold that appends each element it accepts, one for a key. -/
theorem foldlM_append_eq_ok {ε α κ : Type} {f : List α → α → Except ε (List α)} {P : α → Prop} {key : α → κ}
    (hf : ∀ acc x out, f acc x = .ok out ↔ P x ∧ (∀ a ∈ acc, key a ≠ key x) ∧ out = acc ++ [x])
    {xs acc out : List α} : xs.foldlM f acc = .ok out ↔ out = acc ++ xs ∧ (∀ x ∈ xs, P x) ∧
      (∀ x ∈ xs, ∀ a ∈ acc, key a ≠ key x) ∧ (xs.map key).Nodup := by
  induction xs generalizing acc with
  | nil =>
    rw [List.foldlM_nil, pure_eq_ok]
    simp [eq_comm]
  | cons x xs ih =>
    rw [List.foldlM_cons, bind_eq_ok]
    simp only [hf, ih, List.forall_mem_cons, List.map_cons, List.nodup_cons, List.mem_map]
    constructor
    · rintro ⟨_, ⟨hx, hfresh, rfl⟩, hout, hxs, hacc, hnd⟩
      refine ⟨by rw [hout, List.append_assoc]; rfl, ⟨hx, hxs⟩,
        ⟨hfresh, fun y hy a ha => hacc y hy a (List.mem_append_left _ ha)⟩, ?_, hnd⟩
      rintro ⟨y, hy, hkey⟩
      exact hacc y hy x (List.mem_append_right _ (List.mem_singleton_self x)) hkey.symm
    · rintro ⟨hout, ⟨hx, hxs⟩, ⟨hfresh, hacc⟩, hnot, hnd⟩
      refine ⟨_, ⟨hx, hfresh, rfl⟩, by rw [hout, List.append_assoc]; rfl, hxs, fun y hy a ha => ?_, hnd⟩
      rcases List.mem_append.1 ha with ha | ha
      · exact hacc y hy a ha
      · rw [List.mem_singleton.1 ha]
        exact fun hkey => hnot ⟨y, hy, hkey.symm⟩

section
variable {ε α β : Type} {f : α → Except ε β} {xs ys : List α} {as : List β}

theorem mapM_perm (hperm : xs.Perm ys) (h : xs.mapM f = .ok as) :
    ∃ bs, ys.mapM f = .ok bs ∧ as.Perm bs := by
  obtain ⟨bs, hbs, hp⟩ := List.perm_comp_forall₂ hperm.symm (mapM_eq_ok.1 h)
  exact ⟨bs, mapM_eq_ok.2 hbs, hp.symm⟩

theorem length_of_mapM (h : xs.mapM f = .ok as) : as.length = xs.length :=
  (mapM_eq_ok.1 h).length_eq.symm

theorem exists_mapM_of_mem (h : xs.mapM f = .ok as) {x : α} (hx : x ∈ xs) : ∃ a ∈ as, f x = .ok a :=
  forall₂_mem_left (mapM_eq_ok.1 h) hx

end

/-- What a computation returned, if it returned anything. -/
def returned {ε β : Type} (x : Except ε (Option β)) : Option β :=
  match x with
  | .ok b => b
  | .error _ => none

theorem mapM_returned {ε α β : Type} {f : α → Except ε (Option β)} {xs : List α} {ys : List (Option β)}
    (h : xs.mapM f = .ok ys) :
    ys.filterMap id = xs.filterMap (fun x => returned (f x)) ∧ ∀ x ∈ xs, f x = .ok (returned (f x)) := by
  obtain ⟨hok, rfl⟩ := (mapM_eq_ok_map (g := fun x => returned (f x)) fun x y hy => by rw [hy]; rfl).1 h
  refine ⟨by rw [List.filterMap_map]; rfl, fun x hx => ?_⟩
  obtain ⟨y, hy⟩ := hok x hx
  rw [hy]
  rfl

/-! ## Maps that may drop elements -/

/-- Distinct elements give distinct results exactly when no two give the same one. -/
theorem nodup_filterMap_iff {α β : Type} {f : α → Option β} {xs : List α} (hxs : xs.Nodup) :
    (xs.filterMap f).Nodup ↔ ∀ x ∈ xs, ∀ y ∈ xs, ∀ b ∈ f x, b ∈ f y → x = y := by
  induction xs with
  | nil => simp
  | cons x xs ih =>
    obtain ⟨hx, hxs⟩ := List.nodup_cons.1 hxs
    have htail : (∀ y ∈ xs, ∀ z ∈ xs, ∀ b ∈ f y, b ∈ f z → y = z) ↔ (xs.filterMap f).Nodup := (ih hxs).symm
    cases hfx : f x with
    | none =>
      rw [List.filterMap_cons_none hfx, ← htail]
      simp [hfx]
    | some b =>
      rw [List.filterMap_cons_some hfx, List.nodup_cons, ← htail]
      constructor
      · rintro ⟨hfresh, hrest⟩ y hy z hz c hc hc'
        rcases List.mem_cons.1 hy with hyx | hy'
        · rcases List.mem_cons.1 hz with hzx | hz'
          · rw [hyx, hzx]
          · rw [hyx, hfx, Option.mem_some_iff] at hc
            subst hc
            exact absurd (List.mem_filterMap.2 ⟨z, hz', hc'⟩) hfresh
        · rcases List.mem_cons.1 hz with hzx | hz'
          · rw [hzx, hfx, Option.mem_some_iff] at hc'
            subst hc'
            exact absurd (List.mem_filterMap.2 ⟨y, hy', hc⟩) hfresh
          · exact hrest y hy' z hz' c hc hc'
      · intro hall
        refine ⟨fun hmem => ?_, fun y hy z hz => hall y (List.mem_cons_of_mem _ hy) z (List.mem_cons_of_mem _ hz)⟩
        obtain ⟨y, hy, hfy⟩ := List.mem_filterMap.1 hmem
        have hxy := hall x List.mem_cons_self y (List.mem_cons_of_mem _ hy) b (by rw [hfx]; rfl) hfy
        exact hx (hxy ▸ hy)

/-- Matched inputs, where each result is reached from the input's match too. -/
theorem mapM_transfer {ε α α' β : Type} {R : α → α' → Prop} {f : α → Except ε β} {g : α' → Except ε β}
    {xs : List α} {xs' : List α'} {ys : List β} (h : xs.mapM f = .ok ys) (hR : List.Forall₂ R xs xs')
    (hfg : ∀ x x' y, R x x' → y ∈ ys → f x = .ok y → g x' = .ok y) : xs'.mapM g = .ok ys := by
  rw [mapM_eq_ok] at h ⊢
  induction hR generalizing ys with
  | nil => cases h; exact .nil
  | cons hr _ ih =>
    cases h with
    | cons hx h =>
      exact .cons (hfg _ _ _ hr List.mem_cons_self hx)
        (ih h fun x x' y hr hy => hfg x x' y hr (List.mem_cons_of_mem _ hy))

/-! ## Sorting with a key that may raise -/

section
variable {ε α κ : Type} [LinearOrder κ]

/-- `sorted(xs, key=key)`: every key is computed before the first comparison. -/
def sortedByM (key : α → Except ε κ) (xs : List α) : Except ε (List α) := do
  let keyed ← xs.mapM fun x => do
    let k ← key x
    pure (k, x)
  pure ((sortedBy Prod.fst keyed).map Prod.snd)

variable {key : α → Except ε κ} {xs ys zs : List α}

omit [LinearOrder κ] in
theorem keyed_eq_ok {keyed : List (κ × α)} :
    (xs.mapM fun x => do let k ← key x; pure (k, x)) = .ok keyed ↔
      List.Forall₂ (fun x p => key x = .ok p.1 ∧ p.2 = x) xs keyed := by
  rw [mapM_eq_ok]
  refine iff_of_eq (congrArg (List.Forall₂ · xs keyed) ?_)
  funext x p
  rw [eq_iff_iff, bind_eq_ok]
  constructor
  · rintro ⟨k, hk, h⟩
    cases h
    exact ⟨hk, rfl⟩
  · rintro ⟨hk, rfl⟩
    exact ⟨p.1, hk, rfl⟩

omit [LinearOrder κ] in
theorem map_snd_keyed {keyed : List (κ × α)}
    (h : List.Forall₂ (fun x p => key x = .ok p.1 ∧ p.2 = x) xs keyed) : keyed.map Prod.snd = xs := by
  induction h with
  | nil => rfl
  | cons hx _ ih => rw [List.map_cons, ih, hx.2]

theorem ok_sortedByM : Ok (sortedByM key xs) ↔ ∀ x ∈ xs, Ok (key x) := by
  unfold sortedByM
  rw [ok_bind_of_total fun _ => ok_pure _, ok_mapM]
  exact forall₂_congr fun x _ => ok_bind_of_total fun _ => ok_pure _

theorem sortedByM_perm (h : sortedByM key xs = .ok ys) : ys.Perm xs := by
  obtain ⟨keyed, hkeyed, h⟩ := bind_eq_ok.1 h
  cases h
  have hsnd : keyed.map Prod.snd = xs := map_snd_keyed (keyed_eq_ok.1 hkeyed)
  calc (sortedBy Prod.fst keyed).map Prod.snd
    _ |>.Perm (keyed.map Prod.snd) := sortedBy_perm.map _
    _ = xs := hsnd

theorem mem_sortedByM (h : sortedByM key xs = .ok ys) {x : α} : x ∈ ys ↔ x ∈ xs :=
  (sortedByM_perm h).mem_iff

/-- Keys that tell the elements apart: the result is a function of the set sorted. -/
theorem sortedByM_of_perm (h : sortedByM key xs = .ok zs) (hperm : xs.Perm ys)
    (hinj : ∀ x ∈ xs, ∀ y ∈ xs, key x = key y → x = y) : sortedByM key ys = .ok zs := by
  obtain ⟨keyed, hkeyed, h⟩ := bind_eq_ok.1 h
  cases h
  obtain ⟨keyed', hkeyed', hp⟩ := mapM_perm hperm hkeyed
  have hsort : sortedBy Prod.fst keyed = sortedBy Prod.fst keyed' := by
    refine sortedBy_eq_of_perm hp fun p hp q hq hpq => ?_
    rw [keyed_eq_ok] at hkeyed
    obtain ⟨x, hx, hxk, hxp⟩ := forall₂_mem_right hkeyed hp
    obtain ⟨y, hy, hyk, hyq⟩ := forall₂_mem_right hkeyed hq
    have hxy : x = y := hinj x hx y hy (by rw [hxk, hyk, hpq])
    exact Prod.ext hpq (by rw [hxp, hyq, hxy])
  rw [sortedByM, hkeyed', ok_bind_ok, hsort]
  rfl

end

/-! ## Dictionaries of lists -/

section
variable {α κ : Type} [DecidableEq κ]

/-- `d.setdefault(k, []).append(x)` -/
def appendTo (groups : List (κ × List α)) (k : κ) (x : α) : List (κ × List α) :=
  if groups.any fun g => g.1 = k then groups.map fun g => if g.1 = k then (g.1, g.2 ++ [x]) else g
  else groups ++ [(k, [x])]

/-- The dictionary a loop over `xs` fills with `d.setdefault(key(x), []).append(x)`. -/
def groupBy (key : α → κ) (xs : List α) : List (κ × List α) :=
  xs.foldl (fun groups x => appendTo groups (key x) x) []

variable {key : α → κ} {xs : List α}

theorem groupBy_concat (xs : List α) (x : α) :
    groupBy key (xs ++ [x]) = appendTo (groupBy key xs) (key x) x := by
  simp [groupBy]

theorem keys_appendTo (groups : List (κ × List α)) (k : κ) (x : α) :
    (appendTo groups k x).map Prod.fst =
      if k ∈ groups.map Prod.fst then groups.map Prod.fst else groups.map Prod.fst ++ [k] := by
  have hany : (groups.any fun g => g.1 = k) = decide (k ∈ groups.map Prod.fst) := by
    rw [Bool.eq_iff_iff]
    simp
  unfold appendTo
  rw [hany]
  by_cases hk : k ∈ groups.map Prod.fst
  · rw [decide_eq_true hk, if_pos rfl, if_pos hk, List.map_map]
    refine List.map_congr_left fun g _ => ?_
    show (if g.1 = k then (g.1, g.2 ++ [x]) else g).1 = g.1
    split <;> rfl
  · rw [decide_eq_false hk, if_neg Bool.false_ne_true, if_neg hk, List.map_append]
    rfl

theorem mem_keys_groupBy {k : κ} : k ∈ (groupBy key xs).map Prod.fst ↔ k ∈ xs.map key := by
  induction xs using List.reverseRecOn with
  | nil => simp [groupBy]
  | append_singleton xs x ih =>
    rw [groupBy_concat, keys_appendTo, List.map_append, List.mem_append, ← ih]
    split_ifs with h
    · refine ⟨.inl, fun hk => hk.elim id fun hk => ?_⟩
      rw [List.mem_singleton.1 hk]
      exact h
    · rw [List.mem_append]
      rfl

theorem nodup_groupBy : ((groupBy key xs).map Prod.fst).Nodup := by
  induction xs using List.reverseRecOn with
  | nil => exact List.nodup_nil
  | append_singleton xs x ih =>
    rw [groupBy_concat, keys_appendTo]
    split_ifs with h
    · exact ih
    · exact List.nodup_append'.2 ⟨ih, List.nodup_singleton _, List.disjoint_singleton.2 h⟩

/-- A key's list holds the elements of that key, in their order. -/
theorem snd_of_mem_groupBy {g : κ × List α} (hg : g ∈ groupBy key xs) :
    g.2 = xs.filter fun x => key x = g.1 := by
  induction xs using List.reverseRecOn generalizing g with
  | nil => cases hg
  | append_singleton xs x ih =>
    rw [groupBy_concat, appendTo] at hg
    rw [List.filter_append]
    split_ifs at hg with hany
    · obtain ⟨g', hg', rfl⟩ := List.mem_map.1 hg
      split_ifs with hk
      · simp [ih hg', hk]
      · simp [ih hg', Ne.symm hk]
    · have hfresh : ∀ g' ∈ groupBy key xs, g'.1 ≠ key x := fun g' hg' hk =>
        hany (List.any_eq_true.2 ⟨g', hg', decide_eq_true hk⟩)
      rcases List.mem_append.1 hg with hg | hg
      · simp [ih hg, Ne.symm (hfresh g hg)]
      · rw [List.mem_singleton.1 hg]
        have hnone : xs.filter (fun y => key y = key x) = [] := by
          refine List.filter_eq_nil_iff.2 fun y hy hyx => ?_
          have hkey : key y ∈ (groupBy key xs).map Prod.fst := mem_keys_groupBy.2 (List.mem_map_of_mem hy)
          obtain ⟨g', hg', hgy⟩ := List.mem_map.1 hkey
          exact hfresh g' hg' (hgy.trans (of_decide_eq_true hyx))
        simp [hnone]

theorem mem_groupBy {g : κ × List α} :
    g ∈ groupBy key xs ↔ g.1 ∈ xs.map key ∧ g.2 = xs.filter fun x => key x = g.1 := by
  constructor
  · exact fun hg => ⟨mem_keys_groupBy.1 (List.mem_map_of_mem hg), snd_of_mem_groupBy hg⟩
  · rintro ⟨hk, hms⟩
    obtain ⟨g', hg', hgk⟩ := List.mem_map.1 (mem_keys_groupBy.2 hk)
    have heq : g = g' := Prod.ext hgk.symm (by rw [hms, snd_of_mem_groupBy hg', hgk])
    exact heq ▸ hg'

/-- `d[k]` -/
def groupOf (groups : List (κ × List α)) (k : κ) : List α :=
  ((groups.find? fun g => g.1 = k).map Prod.snd).getD []

theorem groupOf_groupBy {k : κ} : groupOf (groupBy key xs) k = xs.filter fun x => key x = k := by
  unfold groupOf
  cases hfind : (groupBy key xs).find? fun g => g.1 = k with
  | some g =>
    have hk : g.1 = k := by simpa using List.find?_some hfind
    rw [Option.map_some, Option.getD_some, snd_of_mem_groupBy (List.mem_of_find?_eq_some hfind), hk]
  | none =>
    refine (List.filter_eq_nil_iff.2 fun x hx hk => ?_).symm
    have hkey : key x ∈ (groupBy key xs).map Prod.fst := mem_keys_groupBy.2 (List.mem_map_of_mem hx)
    obtain ⟨g, hg, hgk⟩ := List.mem_map.1 hkey
    exact List.find?_eq_none.1 hfind g hg (by simpa [hgk] using hk)

/-- What is summed key by key is summed once. -/
theorem sum_fibers {M : Type} [AddCommMonoid M] {keys : List κ} (hnodup : keys.Nodup) (g : α → M)
    (hkeys : ∀ x ∈ xs, key x ∈ keys) :
    (keys.map fun k => ((xs.filter fun x => key x = k).map g).sum).sum = (xs.map g).sum := by
  induction xs with
  | nil => simp
  | cons x xs ih =>
    obtain ⟨hx, hxs⟩ := List.forall_mem_cons.1 hkeys
    have hstep : ∀ k ∈ keys, (((x :: xs).filter fun y => key y = k).map g).sum =
        (if k = key x then g x else 0) + ((xs.filter fun y => key y = k).map g).sum := by
      intro k _
      by_cases hk : key x = k
      · rw [List.filter_cons_of_pos (by simpa using hk), List.map_cons, List.sum_cons, if_pos hk.symm]
      · rw [List.filter_cons_of_neg (by simpa using hk), if_neg (Ne.symm hk), zero_add]
    have hone : (keys.map fun k => if k = key x then g x else 0).sum = g x := by
      rw [List.sum_map_eq_nsmul_single (key x) _ fun k hk _ => if_neg hk, List.count_eq_one_of_mem hnodup hx, one_nsmul,
        if_pos rfl]
    rw [List.map_congr_left hstep, List.sum_map_add, ih hxs, hone, List.map_cons, List.sum_cons]

end

/-! ## Groups in key order -/

section
variable {α κ : Type} [LinearOrder κ] {key : α → κ} {xs ys : List α}

/-- `sorted(d.items())` for a dictionary of lists: the keys are distinct, so no lists are compared. -/
def sortedGroups (key : α → κ) (xs : List α) : List (κ × List α) := sortedBy Prod.fst (groupBy key xs)

theorem sortedGroups_eq :
    sortedGroups key xs = (sortedKeys (xs.map key)).map fun k => (k, xs.filter fun x => key x = k) := by
  have hnodup : ((sortedKeys (xs.map key)).map fun k => (k, xs.filter fun x => key x = k)).Nodup :=
    List.Nodup.of_map Prod.fst (by simpa [Function.comp_def] using nodup_sortedKeys)
  refine sortedBy_unique ((List.perm_ext_iff_of_nodup nodup_groupBy.of_map hnodup).2 fun g => ?_) ?_ ?_
  · rw [mem_groupBy]
    refine Iff.trans ?_ List.mem_map.symm
    constructor
    · exact fun ⟨hk, hms⟩ => ⟨g.1, mem_sortedKeys.2 hk, Prod.ext rfl hms.symm⟩
    · rintro ⟨k, hk, rfl⟩
      exact ⟨mem_sortedKeys.1 hk, rfl⟩
  · exact List.pairwise_map.2 (List.pairwise_insertionSort _ _)
  · exact fun g hg h hh hgh => List.inj_on_of_nodup_map nodup_groupBy hg hh hgh

theorem sortedGroups_perm_groupBy : (sortedGroups key xs).Perm (groupBy key xs) := sortedBy_perm

theorem mem_sortedGroups {g : κ × List α} :
    g ∈ sortedGroups key xs ↔ g.1 ∈ xs.map key ∧ g.2 = xs.filter fun x => key x = g.1 := by
  rw [sortedGroups, mem_sortedBy, mem_groupBy]

theorem nodup_sortedGroups : ((sortedGroups key xs).map Prod.fst).Nodup :=
  (sortedGroups_perm_groupBy.map _).nodup_iff.2 nodup_groupBy

theorem mem_of_mem_sortedGroups {g : κ × List α} (hg : g ∈ sortedGroups key xs) {x : α} (hx : x ∈ g.2) :
    x ∈ xs ∧ key x = g.1 := by
  rw [(mem_sortedGroups.1 hg).2, List.mem_filter] at hx
  exact ⟨hx.1, of_decide_eq_true hx.2⟩

theorem exists_sortedGroups {x : α} (hx : x ∈ xs) : ∃ g ∈ sortedGroups key xs, x ∈ g.2 :=
  ⟨(key x, xs.filter fun y => key y = key x), mem_sortedGroups.2 ⟨List.mem_map_of_mem hx, rfl⟩,
    List.mem_filter.2 ⟨hx, decide_eq_true rfl⟩⟩

/-- Reordering the elements reorders them inside their groups. -/
theorem sortedGroups_perm (h : xs.Perm ys) :
    List.Forall₂ (fun g g' => g.1 = g'.1 ∧ g.2.Perm g'.2) (sortedGroups key xs) (sortedGroups key ys) := by
  rw [sortedGroups_eq, sortedGroups_eq, sortedKeys_perm (h.map key), List.forall₂_map_left_iff,
    List.forall₂_map_right_iff, List.forall₂_same]
  exact fun k _ => ⟨rfl, h.filter _⟩

end

end Py
