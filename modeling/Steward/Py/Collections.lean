import Mathlib.Data.Prod.Lex
import Mathlib.Data.List.Dedup
import Steward.Py.Assoc

/-!
# Sorted collections

`sorted(set(…))`, `sorted(…, key=…)`, and dictionaries that collect values
under a key of theirs.
-/

namespace Py

/-- `sorted(set(xs))` -/
def sortedSet (xs : List Text) : List Text := xs.dedup.insertionSort (· ≤ ·)

@[simp] theorem mem_sortedSet {x : Text} {xs : List Text} : x ∈ sortedSet xs ↔ x ∈ xs := by
  rw [sortedSet, (List.perm_insertionSort _ _).mem_iff, List.mem_dedup]

@[simp] theorem sortedSet_eq_nil {xs : List Text} : sortedSet xs = [] ↔ xs = [] := by
  simp [List.eq_nil_iff_forall_not_mem]

theorem nodup_sortedSet {xs : List Text} : (sortedSet xs).Nodup :=
  (List.perm_insertionSort _ _).nodup_iff.2 xs.nodup_dedup

/-- A sorted set is a function of the set. -/
theorem pairwise_sortedSet {xs : List Text} : (sortedSet xs).Pairwise (· < ·) :=
  (List.pairwise_insertionSort _ _).imp₂ (fun _ _ hle hne => lt_of_le_of_ne hle hne) nodup_sortedSet

theorem sortedSet_congr {xs ys : List Text} (h : ∀ t, t ∈ xs ↔ t ∈ ys) : sortedSet xs = sortedSet ys := by
  refine List.Perm.eq_of_pairwise (fun _ _ _ _ => le_antisymm) (List.pairwise_insertionSort _ _)
    (List.pairwise_insertionSort _ _) ?_
  refine (List.perm_ext_iff_of_nodup nodup_sortedSet nodup_sortedSet).2 fun t => ?_
  rw [mem_sortedSet, mem_sortedSet, h]

/-- `sorted(xs, key=key)` -/
def sortedBy {α κ : Type} [LinearOrder κ] (key : α → κ) (xs : List α) : List α :=
  xs.insertionSort fun a b => key a ≤ key b

section
variable {α κ : Type} [LinearOrder κ] {key : α → κ} {xs : List α}

theorem sortedBy_perm : (sortedBy key xs).Perm xs := List.perm_insertionSort _ _

@[simp] theorem mem_sortedBy {x : α} : x ∈ sortedBy key xs ↔ x ∈ xs := sortedBy_perm.mem_iff

@[simp] theorem sortedBy_eq_nil : sortedBy key xs = [] ↔ xs = [] :=
  ⟨fun h => List.nil_perm.1 (h ▸ sortedBy_perm), fun h => by rw [h]; rfl⟩

end

/-! ## Collecting under a key -/

section
variable {α κ : Type} [DecidableEq κ] (key : α → κ)

/-- `d[key(x)] = x` -/
def assignBy (xs : List α) (x : α) : List α :=
  if xs.any fun y => key y = key x then xs.map fun y => if key y = key x then x else y else xs ++ [x]

/-- `{key(x): x for x in xs}.values()` -/
def collectBy (xs : List α) : List α := xs.foldl (assignBy key) []

theorem collectBy_eq_nil {xs : List α} : collectBy key xs = [] ↔ xs = [] := by
  have hassign (ys : List α) (x : α) : assignBy key ys x ≠ [] := by
    unfold assignBy
    split_ifs with h
    · obtain ⟨y, hy, -⟩ := List.any_eq_true.1 h
      exact fun hn => by rw [List.map_eq_nil_iff] at hn; rw [hn] at hy; cases hy
    · simp
  have hfold (ys zs : List α) (hz : zs ≠ []) : ys.foldl (assignBy key) zs ≠ [] := by
    induction ys generalizing zs with
    | nil => exact hz
    | cons y ys ih => exact ih _ (hassign zs y)
  cases xs with
  | nil => exact iff_of_true rfl rfl
  | cons x xs => exact iff_of_false (hfold xs _ (hassign [] x)) (by simp)

/-- Distinct keys collect everything. -/
theorem collectBy_of_nodup {xs : List α} (h : (xs.map key).Nodup) : collectBy key xs = xs := by
  have hfold : ∀ ys zs : List α, ((zs ++ ys).map key).Nodup → ys.foldl (assignBy key) zs = zs ++ ys := by
    intro ys
    induction ys with
    | nil => exact fun zs _ => (List.append_nil zs).symm
    | cons y ys ih =>
      intro zs hnodup
      have hfresh : ¬ zs.any (fun z => key z = key y) := by
        rw [List.any_eq_true]
        rintro ⟨z, hz, heq⟩
        rw [List.map_append, List.nodup_append'] at hnodup
        exact hnodup.2.2 (List.mem_map_of_mem hz) (of_decide_eq_true heq ▸ List.mem_map_of_mem List.mem_cons_self)
      rw [List.foldl_cons, assignBy, if_neg hfresh, ih _ (by rwa [List.append_assoc]), List.append_assoc]
      rfl
  exact hfold xs [] h

end

section
variable {α κ : Type} [DecidableEq κ] {key : α → κ} {xs : List α}

theorem mem_assignBy {x y : α} (h : y ∈ assignBy key xs x) : y ∈ xs ∨ y = x := by
  rw [assignBy] at h
  split_ifs at h with hany
  · obtain ⟨z, hz, rfl⟩ := List.mem_map.1 h
    split_ifs
    · exact .inr rfl
    · exact .inl hz
  · exact (List.mem_append.1 h).imp_right List.mem_singleton.1

/-- A new key is put behind the others. -/
theorem keys_assignBy (xs : List α) (x : α) :
    (assignBy key xs x).map key = if key x ∈ xs.map key then xs.map key else xs.map key ++ [key x] := by
  have hany : xs.any (fun y => key y = key x) = true ↔ key x ∈ xs.map key := by
    rw [List.any_eq_true, List.mem_map]
    exact exists_congr fun y => and_congr_right fun _ => decide_eq_true_iff
  rw [assignBy]
  by_cases h : key x ∈ xs.map key
  · rw [if_pos (hany.2 h), if_pos h, List.map_map]
    refine List.map_congr_left fun y _ => ?_
    by_cases hy : key y = key x <;> simp [hy]
  · rw [if_neg (hany.not.2 h), if_neg h, List.map_append]
    rfl

theorem mem_collectBy {y : α} (h : y ∈ collectBy key xs) : y ∈ xs := by
  have hfold : ∀ ys zs : List α, y ∈ ys.foldl (assignBy key) zs → y ∈ zs ∨ y ∈ ys := by
    intro ys
    induction ys with
    | nil => exact fun zs hy => .inl hy
    | cons x ys ih =>
      intro zs hy
      rcases ih _ hy with hy | hy
      · exact (mem_assignBy hy).imp_right fun (he : y = x) => he ▸ List.mem_cons_self
      · exact .inr (List.mem_cons_of_mem _ hy)
  exact (hfold xs [] h).resolve_left List.not_mem_nil

/-- The keys are kept, each once. -/
theorem keys_collectBy (xs : List α) : ((collectBy key xs).map key).Nodup ∧
    ∀ k, k ∈ (collectBy key xs).map key ↔ k ∈ xs.map key := by
  have hfold : ∀ ys zs : List α, (zs.map key).Nodup → ((ys.foldl (assignBy key) zs).map key).Nodup ∧
      ∀ k, k ∈ (ys.foldl (assignBy key) zs).map key ↔ k ∈ zs.map key ∨ k ∈ ys.map key := by
    intro ys
    induction ys with
    | nil => exact fun zs h => ⟨h, fun k => by simp⟩
    | cons x ys ih =>
      intro zs h
      have hnodup : ((assignBy key zs x).map key).Nodup := by
        rw [keys_assignBy]
        split_ifs with hx
        · exact h
        · exact List.nodup_append'.2 ⟨h, List.nodup_singleton _, by simpa using hx⟩
      refine ⟨(ih _ hnodup).1, fun k => ((ih _ hnodup).2 k).trans ?_⟩
      rw [keys_assignBy, List.map_cons, List.mem_cons]
      split_ifs with hx
      · exact ⟨Or.imp_right .inr, fun hk => hk.elim .inl fun hk => hk.elim (fun he => .inl (he ▸ hx)) .inr⟩
      · rw [List.mem_append, List.mem_singleton, or_assoc]
  obtain ⟨hnodup, hmem⟩ := hfold xs [] List.nodup_nil
  exact ⟨hnodup, fun k => (hmem k).trans (by simp)⟩

end

/-! ## Lists matched element by element -/

section
variable {α β γ : Type} {R : α → β → Prop} {S : β → γ → Prop}

theorem forall₂_trans {xs : List α} {ys : List β} {zs : List γ} (h : List.Forall₂ R xs ys)
    (h' : List.Forall₂ S ys zs) : List.Forall₂ (fun x z => ∃ y ∈ ys, R x y ∧ S y z) xs zs := by
  induction h generalizing zs with
  | nil => cases h'; exact .nil
  | cons hr _ ih =>
    cases h' with
    | cons hs h' =>
      refine .cons ⟨_, List.mem_cons_self, hr, hs⟩ ((ih h').imp fun x z hxz => ?_)
      obtain ⟨y, hy, h⟩ := hxz
      exact ⟨y, List.mem_cons_of_mem _ hy, h⟩

theorem forall₂_flatten {f : α → List β} {P : β → γ → Prop} {xs : List α} {ys : List (List γ)}
    (h : List.Forall₂ (fun x y => List.Forall₂ P (f x) y) xs ys) :
    List.Forall₂ P (xs.flatMap f) ys.flatten := by
  induction h with
  | nil => exact .nil
  | cons hx _ ih => exact List.rel_append hx ih

theorem forall₂_mem_right {xs : List α} {ys : List β} (h : List.Forall₂ R xs ys) {y : β} (hy : y ∈ ys) :
    ∃ x ∈ xs, R x y := by
  induction h with
  | nil => cases hy
  | cons hr _ ih =>
    rcases List.mem_cons.1 hy with rfl | hy
    · exact ⟨_, List.mem_cons_self, hr⟩
    · obtain ⟨x, hx, h⟩ := ih hy
      exact ⟨x, List.mem_cons_of_mem _ hx, h⟩

theorem forall₂_mem_left {xs : List α} {ys : List β} (h : List.Forall₂ R xs ys) {x : α} (hx : x ∈ xs) :
    ∃ y ∈ ys, R x y := forall₂_mem_right h.flip hx

/-- Matched elements pass the same test. -/
theorem forall₂_filter {p : α → Bool} {q : β → Bool} {xs : List α} {ys : List β} (h : List.Forall₂ R xs ys)
    (hpq : ∀ x y, R x y → p x = q y) : List.Forall₂ R (xs.filter p) (ys.filter q) := by
  induction h with
  | nil => exact .nil
  | @cons x y _ _ hr _ ih =>
    rw [List.filter_cons, List.filter_cons, hpq _ _ hr]
    split
    · exact .cons hr ih
    · exact ih

/-- Matched elements that agree on a field have equal lists of it. -/
theorem forall₂_map_eq {f : α → γ} {g : β → γ} {xs : List α} {ys : List β} (h : List.Forall₂ R xs ys)
    (hfg : ∀ x y, R x y → f x = g y) : xs.map f = ys.map g := by
  induction h with
  | nil => rfl
  | cons hr _ ih => rw [List.map_cons, List.map_cons, hfg _ _ hr, ih]

end

section
variable {α κ : Type} {key : α → κ} {R : α → α → Prop}

theorem forall₂_collectBy [DecidableEq κ] (hkey : ∀ x y, R x y → key x = key y) {xs ys : List α} (h : List.Forall₂ R xs ys) :
    List.Forall₂ R (collectBy key xs) (collectBy key ys) := by
  have hassign {zs ws : List α} {x y : α} (hzw : List.Forall₂ R zs ws) (hxy : R x y) :
      List.Forall₂ R (assignBy key zs x) (assignBy key ws y) := by
    have hany : zs.any (fun z => key z = key x) = ws.any fun w => key w = key y := by
      induction hzw with
      | nil => rfl
      | cons hzw _ ih => rw [List.any_cons, List.any_cons, ih, hkey _ _ hzw, hkey _ _ hxy]
    rw [assignBy, assignBy, hany]
    split_ifs
    · refine List.rel_map (fun _ _ hz => ?_) hzw
      rw [hkey _ _ hz, hkey _ _ hxy]
      split_ifs
      · exact hxy
      · exact hz
    · exact List.rel_append hzw (.cons hxy .nil)
  have hfold : ∀ {zs ws : List α}, List.Forall₂ R zs ws →
      List.Forall₂ R (xs.foldl (assignBy key) zs) (ys.foldl (assignBy key) ws) := by
    induction h with
    | nil => exact fun h => h
    | cons hxy _ ih => exact fun h => ih (hassign h hxy)
  exact hfold .nil

theorem forall₂_sortedBy [LinearOrder κ] (hkey : ∀ x y, R x y → key x = key y) {xs ys : List α} (h : List.Forall₂ R xs ys) :
    List.Forall₂ R (sortedBy key xs) (sortedBy key ys) := by
  have hinsert {x y : α} {zs ws : List α} (hxy : R x y) (hzw : List.Forall₂ R zs ws) :
      List.Forall₂ R (zs.orderedInsert (fun a b => key a ≤ key b) x) (ws.orderedInsert (fun a b => key a ≤ key b) y) := by
    induction hzw with
    | nil => exact .cons hxy .nil
    | cons hz hzw ih =>
      rw [List.orderedInsert, List.orderedInsert, hkey _ _ hxy, hkey _ _ hz]
      split_ifs
      · exact .cons hxy (.cons hz hzw)
      · exact .cons hz ih
  induction h with
  | nil => exact .nil
  | cons hxy _ ih => exact hinsert hxy ih

end
section
variable {α : Type} {p : α → Bool} {l : List α}

theorem filter_eq_singleton (h : l.Pairwise fun a b => p a = true → p b = false) {x : α} (hx : x ∈ l)
    (hp : p x = true) : l.filter p = [x] := by
  induction l with
  | nil => cases hx
  | cons a l ih =>
    obtain ⟨ha, hl⟩ := List.pairwise_cons.1 h
    rcases List.mem_cons.1 hx with rfl | hx
    · rw [List.filter_cons_of_pos hp, List.filter_eq_nil_iff.2 fun b hb => by rw [ha b hb hp]; decide]
    · have hpa : p a = false := by
        by_contra hpa
        rw [Bool.not_eq_false] at hpa
        rw [ha x hx hpa] at hp
        cases hp
      rw [List.filter_cons_of_neg (by rw [hpa]; decide), ih hl hx]

end

end Py
