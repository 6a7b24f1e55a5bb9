import Mathlib.Data.List.Dedup
import Mathlib.Data.List.Count

/-!
# Bounded selection

A list in rank order, of which at most a total is selected: a pass that
guarantees each scope its first elements, and a pass that fills the rest by rank.
-/

namespace Py

section
variable {α σ : Type} [DecidableEq α] [DecidableEq σ] {scope : α → σ}

/-- The elements that rank before `x`. -/
def before (l : List α) (x : α) : List α := l.takeWhile fun y => y ≠ x

/-- How many elements of its scope rank before `x`. -/
def rankIn (scope : α → σ) (l : List α) (x : α) : Nat := (before l x).countP fun y => scope y = scope x

theorem before_append {pre post : List α} {x : α} (h : x ∉ pre) : before (pre ++ x :: post) x = pre := by
  unfold before
  rw [List.takeWhile_append_of_pos, List.takeWhile_cons_of_neg (by simp), List.append_nil]
  intro y hy
  rw [decide_eq_true_eq]
  exact fun hyx => h (hyx ▸ hy)

/-- Splitting a list at an element of it. -/
theorem exists_before {l : List α} (hl : l.Nodup) {x : α} (hx : x ∈ l) :
    ∃ post, l = before l x ++ x :: post ∧ x ∉ before l x := by
  obtain ⟨pre, post, rfl⟩ := List.append_of_mem hx
  have hpre : x ∉ pre := fun h => List.disjoint_of_nodup_append hl h List.mem_cons_self
  exact ⟨post, by rw [before_append hpre], by rwa [before_append hpre]⟩

theorem before_filter {l : List α} (hl : l.Nodup) {p : α → Bool} {x : α} (hx : x ∈ l) (hp : p x = true) :
    before (l.filter p) x = (before l x).filter p := by
  obtain ⟨post, heq, hnot⟩ := exists_before hl hx
  have hfilter : l.filter p = (before l x).filter p ++ x :: post.filter p := by
    conv_lhs => rw [heq]
    rw [List.filter_append, List.filter_cons_of_pos hp]
  rw [hfilter]
  exact before_append fun h => hnot (List.mem_filter.1 h).1

/-- A prefix has its share of a scope exactly when every element of the share ranks early enough. -/
theorem min_le_countP_take {l : List α} (hl : l.Nodup) {p : α → Bool} {share room : Nat} :
    min share (l.countP p) ≤ (l.take room).countP p ↔
      ∀ x ∈ l, p x = true → (before l x).countP p < share → (before l x).length < room := by
  constructor
  · intro hshare x hx hp hrank
    obtain ⟨post, heq, -⟩ := exists_before hl hx
    by_contra hlate
    have hprefix : (l.take room).countP p ≤ (before l x).countP p := by
      conv_lhs => rw [heq, List.take_append_of_le_length (by omega)]
      exact (List.take_sublist room _).countP_le
    have hmore : (before l x).countP p < l.countP p := by
      conv_rhs => rw [heq, List.countP_append, List.countP_cons_of_pos hp]
      omega
    omega
  · intro hearly
    by_contra hfew
    have hsplit : l.countP p = (l.take room).countP p + (l.drop room).countP p := by
      rw [← List.countP_append, List.take_append_drop]
    have hdrop : 0 < (l.drop room).countP p := by omega
    obtain ⟨x, hx⟩ := Option.isSome_iff_exists.1 (List.find?_isSome.2 (List.countP_pos_iff.1 hdrop))
    obtain ⟨hp, as, bs, heq, hnone⟩ := List.find?_eq_some_iff_append.1 hx
    have hl' : l = (l.take room ++ as) ++ x :: bs := by
      rw [List.append_assoc, ← heq, List.take_append_drop]
    have hnot : x ∉ l.take room ++ as := by
      intro h
      rw [hl'] at hl
      exact List.disjoint_of_nodup_append hl h List.mem_cons_self
    have hbefore : before l x = l.take room ++ as := by
      conv_lhs => rw [hl']
      exact before_append hnot
    have hcount : as.countP p = 0 := List.countP_eq_zero.2 fun a ha => by simpa using hnone a ha
    have hroom := hearly x (by rw [hl']; simp) hp
    rw [hbefore, List.countP_append, List.length_append, hcount] at hroom
    have hlen : room ≤ l.length := by
      by_contra hlong
      rw [List.drop_eq_nil_of_le (by omega)] at hdrop
      exact absurd hdrop (by simp)
    rw [List.length_take, Nat.min_eq_left hlen] at hroom
    omega

/-! ## Filling by rank -/

/-- The fill pass: the next elements that are not selected yet, until there are `total`. -/
def fill (total : Int) : List α → List α → List α
  | selected, [] => selected
  | selected, x :: xs =>
    let selected' := if x ∈ selected then selected else selected ++ [x]
    if total ≤ selected'.length then selected' else fill total selected' xs

theorem fill_eq {total : Nat} : ∀ {xs selected : List α}, xs.Nodup → selected.length < total →
    fill total selected xs = selected ++ (xs.filter fun x => x ∉ selected).take (total - selected.length)
  | [], selected, _, _ => by simp [fill]
  | x :: xs, selected, hnd, hroom => by
    obtain ⟨hx, hxs⟩ := List.nodup_cons.1 hnd
    rw [fill]
    by_cases hmem : x ∈ selected
    · rw [if_pos hmem, if_neg (by omega), fill_eq hxs hroom, List.filter_cons_of_neg (by simpa using hmem)]
    · have hlen : (selected ++ [x]).length = selected.length + 1 := by simp
      obtain ⟨room, hr⟩ : ∃ room, total - selected.length = room + 1 := ⟨total - selected.length - 1, by omega⟩
      rw [if_neg hmem, List.filter_cons_of_pos (by simpa using hmem), hr, List.take_succ_cons]
      split_ifs with hfull
      · have hzero : room = 0 := by omega
        rw [hzero, List.take_zero]
      · have hsame : (xs.filter fun y => y ∉ selected ++ [x]) = xs.filter fun y => y ∉ selected := by
          refine List.filter_congr fun y hy => ?_
          have hyx : y ≠ x := fun h => hx (h ▸ hy)
          simp [hyx]
        rw [fill_eq hxs (by omega), hsame, List.append_assoc, hlen, show total - (selected.length + 1) = room by omega]
        rfl

/-- What is filled in was selected already or stands in the ranking. -/
theorem fill_subset (total : Int) {x : α} : ∀ {xs selected : List α}, x ∈ fill total selected xs → x ∈ selected ∨ x ∈ xs
  | [], _, hx => .inl hx
  | y :: ys, selected, hx => by
    have hstep : x ∈ (if y ∈ selected then selected else selected ++ [y]) → x ∈ selected ∨ x ∈ y :: ys := by
      split_ifs
      · exact .inl
      · rw [List.mem_append, List.mem_singleton, List.mem_cons]
        exact Or.imp_right .inl
    rw [fill] at hx
    split_ifs at hx with _ hfull hfull
    · exact .inl hx
    · exact (fill_subset total hx).imp_right (List.mem_cons_of_mem _)
    · exact hstep (by rwa [if_neg ‹_›])
    · rcases fill_subset total hx with hx | hx
      · exact hstep (by rwa [if_neg ‹_›])
      · exact .inr (List.mem_cons_of_mem _ hx)

/-! ## One element for each scope -/

/-- The guarantee pass: the first element of each scope, until there are `total`; the flag says
that the total was reached. -/
def guarantee (scope : α → σ) (total : Int) (ordered : List α) : List α → List σ → List α × Bool
  | selected, [] => (selected, false)
  | selected, s :: scopes =>
    let selected' := match ordered.find? fun x => scope x = s ∧ x ∉ selected with
      | some x => selected ++ [x]
      | none => selected
    if total ≤ selected'.length then (selected', true) else guarantee scope total ordered selected' scopes

theorem guarantee_subset (total : Int) (ordered : List α) {x : α} : ∀ {scopes : List σ} {selected : List α},
    x ∈ (guarantee scope total ordered selected scopes).1 → x ∈ selected ∨ x ∈ ordered
  | [], _, hx => .inl hx
  | s :: scopes, selected, hx => by
    have hstep : x ∈ (match ordered.find? fun x => scope x = s ∧ x ∉ selected with
        | some x => selected ++ [x]
        | none => selected) → x ∈ selected ∨ x ∈ ordered := by
      cases hfind : ordered.find? fun x => scope x = s ∧ x ∉ selected with
      | none => exact .inl
      | some y =>
        intro hx
        rcases List.mem_append.1 hx with hx | hx
        · exact .inl hx
        · rw [List.mem_singleton.1 hx]
          exact .inr (List.mem_of_find?_eq_some hfind)
    unfold guarantee at hx
    dsimp only at hx
    split_ifs at hx with hfull
    · exact hstep hx
    · exact (guarantee_subset total ordered hx).elim hstep .inr

/-- The first element of each scope. -/
def firsts (scope : α → σ) (ordered : List α) (scopes : List σ) : List α :=
  scopes.filterMap fun s => ordered.find? fun x => scope x = s

omit [DecidableEq α] in
theorem firsts_cons {ordered : List α} {s : σ} {scopes : List σ} : firsts scope ordered (s :: scopes) =
    (ordered.find? fun x => scope x = s).toList ++ firsts scope ordered scopes := by
  unfold firsts
  rw [List.filterMap_cons]
  cases ordered.find? fun x => scope x = s <;> rfl

omit [DecidableEq α] in
theorem scope_find? {ordered : List α} {s : σ} {x : α} (h : (ordered.find? fun x => scope x = s) = some x) :
    scope x = s := by
  simpa using List.find?_some h

/-- With room for every scope the pass selects the first elements, and the flag says whether that was all. -/
theorem guarantee_eq {total : Nat} {ordered : List α} : ∀ {scopes : List σ} {selected : List α}, scopes.Nodup →
    (∀ x ∈ selected, scope x ∉ scopes) → (∀ s ∈ scopes, ∃ x ∈ ordered, scope x = s) →
    selected.length < total → selected.length + scopes.length ≤ total →
    (guarantee scope total ordered selected scopes).1 = selected ++ firsts scope ordered scopes ∧
      ((guarantee scope total ordered selected scopes).2 = true ↔ selected.length + scopes.length = total)
  | [], selected, _, _, _, hlt, _ => by
    have hne : selected.length ≠ total := by omega
    simpa [guarantee, firsts] using hne
  | s :: scopes, selected, hnd, hsel, hall, hlt, hroom => by
    obtain ⟨hs, hscopes⟩ := List.nodup_cons.1 hnd
    have hsame : (ordered.find? fun x => scope x = s ∧ x ∉ selected) = ordered.find? fun x => scope x = s := by
      congr 1
      funext x
      rw [decide_eq_decide]
      refine ⟨fun h => h.1, fun h => ⟨h, fun hx => hsel x hx ?_⟩⟩
      rw [h]
      exact List.mem_cons_self
    obtain ⟨y, hy, hys⟩ := hall s List.mem_cons_self
    obtain ⟨x, hx⟩ := Option.isSome_iff_exists.1
      (List.find?_isSome (p := fun x => decide (scope x = s)).2 ⟨y, hy, decide_eq_true hys⟩)
    have hxs : scope x = s := scope_find? hx
    have hlen : (selected ++ [x]).length = selected.length + 1 := by simp
    rw [List.length_cons] at hroom
    have hfirsts : firsts scope ordered (s :: scopes) = x :: firsts scope ordered scopes := by
      rw [firsts_cons, hx]
      rfl
    rw [guarantee, hsame, hx, hfirsts]
    dsimp only
    split_ifs with hfull
    · have hnil : scopes = [] := List.length_eq_zero_iff.1 (by omega)
      subst hnil
      refine ⟨rfl, iff_of_true rfl ?_⟩
      rw [List.length_singleton]
      omega
    · have hnew : ∀ z ∈ selected ++ [x], scope z ∉ scopes := by
        intro z hz
        rcases List.mem_append.1 hz with hz | hz
        · exact fun h => hsel z hz (List.mem_cons_of_mem _ h)
        · rw [List.mem_singleton.1 hz, hxs]
          exact hs
      have hrest := @guarantee_eq total ordered scopes (selected ++ [x]) hscopes hnew
        (fun t ht => hall t (List.mem_cons_of_mem _ ht)) (by rw [hlen]; omega) (by rw [hlen]; omega)
      rw [hrest.1, hrest.2, List.append_assoc, hlen, List.length_cons]
      exact ⟨rfl, by omega⟩

theorem mem_firsts {ordered : List α} (hnd : ordered.Nodup) {scopes : List σ} {x : α} :
    x ∈ firsts scope ordered scopes ↔ scope x ∈ scopes ∧ x ∈ ordered ∧ rankIn scope ordered x = 0 := by
  rw [firsts, List.mem_filterMap]
  constructor
  · rintro ⟨s, hs, hfind⟩
    have hxs : scope x = s := scope_find? hfind
    obtain ⟨-, pre, post, rfl, hnone⟩ := List.find?_eq_some_iff_append.1 hfind
    have hpre : x ∉ pre := fun h => by simpa [hxs] using hnone x h
    refine ⟨hxs ▸ hs, by simp, ?_⟩
    rw [rankIn, before_append hpre, List.countP_eq_zero]
    intro y hy
    rw [hxs]
    simpa using hnone y hy
  · rintro ⟨hs, hx, hrank⟩
    refine ⟨scope x, hs, ?_⟩
    obtain ⟨post, heq, -⟩ := exists_before hnd hx
    refine List.find?_eq_some_iff_append.2 ⟨decide_eq_true rfl, before ordered x, post, heq, fun y hy => ?_⟩
    have hne := List.countP_eq_zero.1 hrank y hy
    simpa using hne

omit [DecidableEq α] in
/-- Each scope has one first element. -/
theorem countP_firsts {ordered : List α} {scopes : List σ} (hscopes : scopes.Nodup) {s : σ}
    (hs : s ∈ scopes) (hall : ∃ x ∈ ordered, scope x = s) :
    (firsts scope ordered scopes).countP (fun x => scope x = s) = 1 := by
  obtain ⟨y, hy, hys⟩ := hall
  obtain ⟨x, hx⟩ := Option.isSome_iff_exists.1
    (List.find?_isSome (p := fun x => decide (scope x = s)).2 ⟨y, hy, decide_eq_true hys⟩)
  have hcount : ∀ ts : List σ, (firsts scope ordered ts).countP (fun z => scope z = s) = ts.count s := by
    intro ts
    induction ts with
    | nil => rfl
    | cons t ts ih =>
      rw [firsts_cons, List.countP_append, ih]
      cases ht : ordered.find? fun x => scope x = t with
      | none =>
        have hts : t ≠ s := by
          rintro rfl
          rw [hx] at ht
          cases ht
        rw [List.count_cons_of_ne hts]
        exact Nat.zero_add _
      | some z =>
        have hz : scope z = t := scope_find? ht
        rw [List.count_cons]
        by_cases hts : t = s
        · simp [hz, hts, Nat.add_comm]
        · simp [hz, hts]
  rw [hcount, List.count_eq_one_of_mem hscopes hs]

omit [DecidableEq α] in
theorem nodup_firsts {ordered : List α} {scopes : List σ} (hscopes : scopes.Nodup) :
    (firsts scope ordered scopes).Nodup := by
  refine List.Nodup.filterMap (fun s t x hs ht => ?_) hscopes
  rw [← scope_find? hs, ← scope_find? ht]

/-! ## Fair selections -/

/-- At most `total` elements, none twice; every scope has its first `share`, and the others are
those that rank first. -/
structure Fair (scope : α → σ) (ordered : List α) (total share : Nat) (selected : List α) : Prop where
  bounded : selected.length ≤ total
  subset : ∀ x ∈ selected, x ∈ ordered
  once : selected.Nodup
  guaranteed : ∀ s, min share (ordered.countP fun x => scope x = s) ≤ selected.countP fun x => scope x = s
  filled : ∀ x ∈ ordered, x ∉ selected → selected.length = total ∧
    ∀ y ∈ selected, share ≤ rankIn scope ordered y → y ∈ before ordered x

/-- What ranks within the first `n`. -/
theorem mem_take_iff_before {l : List α} (hl : l.Nodup) {x : α} (hx : x ∈ l) {n : Nat} :
    x ∈ l.take n ↔ (before l x).length < n := by
  obtain ⟨post, heq, hnot⟩ := exists_before hl hx
  generalize before l x = pre at heq hnot ⊢
  subst heq
  constructor
  · intro hmem
    by_contra hlate
    rw [List.take_append_of_le_length (by omega)] at hmem
    exact hnot (List.mem_of_mem_take hmem)
  · intro hlt
    obtain ⟨m, rfl⟩ : ∃ m, n = pre.length + (m + 1) := ⟨n - pre.length - 1, by omega⟩
    rw [List.take_length_add_append, List.take_succ_cons]
    exact List.mem_append_right _ List.mem_cons_self

theorem take_subset_before {l : List α} (hl : l.Nodup) {x : α} (hx : x ∈ l) {n : Nat}
    (hlate : n ≤ (before l x).length) : l.take n ⊆ before l x := by
  obtain ⟨post, heq, -⟩ := exists_before hl hx
  intro y hy
  rw [heq, List.take_append_of_le_length hlate] at hy
  exact List.mem_of_mem_take hy

section
variable {ordered selected : List α} {total share : Nat}

/-- Elements selected ahead, each among the first of its scope, and then the others by rank. -/
def ahead (ordered selected : List α) (total : Nat) : List α :=
  selected ++ (ordered.filter fun x => x ∉ selected).take (total - selected.length)

theorem countP_ahead {p : α → Bool} : (ahead ordered selected total).countP p =
    selected.countP p + ((ordered.filter fun x => x ∉ selected).take (total - selected.length)).countP p :=
  List.countP_append

/-- Filling up by rank is fair as soon as the guarantee is met. -/
theorem fair_ahead (hnd : ordered.Nodup) (honce : selected.Nodup) (hsub : ∀ x ∈ selected, x ∈ ordered)
    (hrank : ∀ x ∈ selected, rankIn scope ordered x < share) (hroom : selected.length ≤ total) :
    Fair scope ordered total share (ahead ordered selected total) ↔
      ∀ s, min share (ordered.countP fun x => scope x = s) ≤
        (ahead ordered selected total).countP fun x => scope x = s := by
  refine ⟨Fair.guaranteed, fun hguaranteed => ?_⟩
  have hrest : (ordered.filter fun x => x ∉ selected).Nodup := hnd.filter _
  refine ⟨?_, fun x hx => ?_, ?_, hguaranteed, fun x hx hnot => ?_⟩
  · rw [ahead, List.length_append, List.length_take]
    omega
  · rcases List.mem_append.1 hx with hx | hx
    · exact hsub x hx
    · exact (List.mem_filter.1 (List.mem_of_mem_take hx)).1
  · refine List.Nodup.append honce (hrest.sublist (List.take_sublist _ _)) fun x hx hx' => ?_
    exact of_decide_eq_true (List.mem_filter.1 (List.mem_of_mem_take hx')).2 hx
  · have hout : x ∉ selected := fun h => hnot (List.mem_append_left _ h)
    have hxr : x ∈ ordered.filter fun x => x ∉ selected := List.mem_filter.2 ⟨hx, by simpa using hout⟩
    have hlate : total - selected.length ≤ (before (ordered.filter fun x => x ∉ selected) x).length := by
      by_contra hearly
      exact hnot (List.mem_append_right _ ((mem_take_iff_before hrest hxr).2 (by omega)))
    have hlong : (before (ordered.filter fun x => x ∉ selected) x).length ≤
        (ordered.filter fun x => x ∉ selected).length := (List.takeWhile_sublist _).length_le
    refine ⟨?_, fun y hy hbeyond => ?_⟩
    · rw [ahead, List.length_append, List.length_take]
      omega
    · rcases List.mem_append.1 hy with hy | hy
      · exact absurd (hrank y hy) (by omega)
      · have hbefore := take_subset_before hrest hxr hlate hy
        rw [before_filter hnd hx (by simpa using hout)] at hbefore
        exact (List.mem_filter.1 hbefore).1

/-- What ranks beyond the first of its scope. -/
theorem notMem_firsts (hnd : ordered.Nodup) {scopes : List σ} {x : α} (hx : x ∈ ordered)
    (hs : scope x ∈ scopes) : x ∉ firsts scope ordered scopes ↔ 0 < rankIn scope ordered x := by
  rw [mem_firsts hnd, Nat.pos_iff_ne_zero, not_iff_not]
  exact ⟨fun h => h.2.2, fun h => ⟨hs, hx, h⟩⟩

omit [DecidableEq α] in
theorem length_firsts {scopes : List σ} (hall : ∀ s ∈ scopes, ∃ x ∈ ordered, scope x = s) :
    (firsts scope ordered scopes).length = scopes.length := by
  induction scopes with
  | nil => rfl
  | cons s scopes ih =>
    obtain ⟨y, hy, hys⟩ := hall s List.mem_cons_self
    obtain ⟨x, hx⟩ := Option.isSome_iff_exists.1
      (List.find?_isSome (p := fun x => decide (scope x = s)).2 ⟨y, hy, decide_eq_true hys⟩)
    rw [firsts_cons, hx, List.length_append, ih fun t ht => hall t (List.mem_cons_of_mem _ ht), List.length_cons]
    exact Nat.add_comm _ _

/-- Before an element that is not the first of its scope lies that first one. -/
theorem exists_first_before (hnd : ordered.Nodup) {x : α} (hx : x ∈ ordered) (hrank : 0 < rankIn scope ordered x) :
    ∃ y ∈ before ordered x, scope y = scope x ∧ rankIn scope ordered y = 0 := by
  obtain ⟨post, heq, -⟩ := exists_before hnd hx
  have hsome : ((before ordered x).find? fun y => scope y = scope x).isSome = true := by
    rw [List.find?_isSome]
    exact List.countP_pos_iff.1 hrank
  obtain ⟨y, hy⟩ := Option.isSome_iff_exists.1 hsome
  have hys : scope y = scope x := scope_find? hy
  obtain ⟨-, pre, mid, hpre, hnone⟩ := List.find?_eq_some_iff_append.1 hy
  have hnot : y ∉ pre := fun h => by simpa [hys] using hnone y h
  have hbefore : before ordered y = pre := by
    rw [heq, hpre, List.append_assoc]
    exact before_append hnot
  refine ⟨y, by rw [hpre]; simp, hys, ?_⟩
  rw [rankIn, hbefore, List.countP_eq_zero, hys]
  intro z hz
  simpa using hnone z hz

section
variable {scopes : List σ}

theorem filter_mem_firsts (hnd : ordered.Nodup) (hscopes : scopes.Nodup) :
    (ordered.filter fun x => x ∈ firsts scope ordered scopes).Perm (firsts scope ordered scopes) := by
  refine (List.perm_ext_iff_of_nodup (hnd.filter _) (nodup_firsts hscopes)).2 fun x => ?_
  rw [List.mem_filter, decide_eq_true_eq, mem_firsts hnd]
  exact and_iff_right_of_imp fun h => h.2.1

theorem countP_split_firsts (scopes : List σ) (l : List α) {p : α → Bool} : l.countP p =
    (l.filter fun x => x ∈ firsts scope ordered scopes).countP p +
      (l.filter fun x => x ∉ firsts scope ordered scopes).countP p := by
  rw [List.countP_eq_countP_filter_add l p fun x => decide (x ∈ firsts scope ordered scopes)]
  simp

/-- The rank of an element among those of its scope that are not the first. -/
theorem rankIn_rest (hnd : ordered.Nodup) (hscopes : scopes.Nodup) (hall : ∀ x ∈ ordered, scope x ∈ scopes) {x : α}
    (hx : x ∈ ordered) (hrank : 0 < rankIn scope ordered x) :
    rankIn scope ordered x =
      1 + ((before ordered x).filter fun y => y ∉ firsts scope ordered scopes).countP fun y => scope y = scope x := by
  rw [rankIn, countP_split_firsts scopes (before ordered x)]
  congr 1
  obtain ⟨y, hy, hys, hyrank⟩ := exists_first_before hnd hx hrank
  have hmem {z : α} (hz : z ∈ before ordered x) : z ∈ ordered := (List.takeWhile_sublist _).mem hz
  refine Nat.le_antisymm ?_ ?_
  · calc ((before ordered x).filter fun y => y ∈ firsts scope ordered scopes).countP (fun y => scope y = scope x)
      _ ≤ (ordered.filter fun y => y ∈ firsts scope ordered scopes).countP (fun y => scope y = scope x) :=
        ((List.takeWhile_sublist _).filter _).countP_le
      _ = (firsts scope ordered scopes).countP (fun y => scope y = scope x) :=
        (filter_mem_firsts hnd hscopes).countP_eq _
      _ = 1 := countP_firsts hscopes (hall x hx) ⟨x, hx, rfl⟩
  · refine List.countP_pos_iff.2 ⟨y, List.mem_filter.2 ⟨hy, ?_⟩, decide_eq_true hys⟩
    exact decide_eq_true ((mem_firsts hnd).2 ⟨hall y (hmem hy), hmem hy, hyrank⟩)

/-- One element of each scope ahead is fair exactly when whatever a larger share promises ranks early enough. -/
theorem fair_firsts_iff (hnd : ordered.Nodup) (hscopes : scopes.Nodup)
    (hall : ∀ s, s ∈ scopes ↔ ∃ x ∈ ordered, scope x = s) (hshare : 0 < share) (hroom : scopes.length ≤ total) :
    Fair scope ordered total share (ahead ordered (firsts scope ordered scopes) total) ↔
      ∀ x ∈ ordered, 0 < rankIn scope ordered x → rankIn scope ordered x < share →
        ((before ordered x).countP fun y => 0 < rankIn scope ordered y) < total - scopes.length := by
  have hinto : ∀ x ∈ ordered, scope x ∈ scopes := fun x hx => (hall _).2 ⟨x, hx, rfl⟩
  have hlen : (firsts scope ordered scopes).length = scopes.length := length_firsts fun s hs => (hall s).1 hs
  have hrest : (ordered.filter fun x => x ∉ firsts scope ordered scopes).Nodup := hnd.filter _
  have hbeyond {x : α} (hx : x ∈ ordered) (hrank : 0 < rankIn scope ordered x) :
      x ∉ firsts scope ordered scopes := (notMem_firsts hnd hx (hinto _ hx)).2 hrank
  have hbefore {x : α} (hx : x ∈ ordered) (hrank : 0 < rankIn scope ordered x) :
      before (ordered.filter fun x => x ∉ firsts scope ordered scopes) x =
        (before ordered x).filter fun x => x ∉ firsts scope ordered scopes :=
    before_filter hnd hx (by simpa using hbeyond hx hrank)
  have hlate {x : α} (hx : x ∈ ordered) (hrank : 0 < rankIn scope ordered x) :
      (before (ordered.filter fun x => x ∉ firsts scope ordered scopes) x).length =
        (before ordered x).countP fun y => 0 < rankIn scope ordered y := by
    rw [hbefore hx hrank, ← List.countP_eq_length_filter]
    refine List.countP_congr fun y hy => ?_
    have hyo : y ∈ ordered := (List.takeWhile_sublist _).mem hy
    simpa using notMem_firsts hnd hyo (hinto _ hyo)
  have hcount {s : σ} (hs : s ∈ scopes) : ordered.countP (fun x => scope x = s) =
      1 + (ordered.filter fun x => x ∉ firsts scope ordered scopes).countP fun x => scope x = s := by
    rw [countP_split_firsts scopes ordered, (filter_mem_firsts hnd hscopes).countP_eq,
      countP_firsts hscopes hs ((hall s).1 hs)]
  rw [fair_ahead hnd (nodup_firsts hscopes) (fun x hx => ((mem_firsts hnd).1 hx).2.1)
    (fun x hx => by rw [((mem_firsts hnd).1 hx).2.2]; exact hshare) (by omega)]
  have hscopewise {s : σ} (hs : s ∈ scopes) : (min share (ordered.countP fun x => scope x = s) ≤
      (ahead ordered (firsts scope ordered scopes) total).countP fun x => scope x = s) ↔
      ∀ x ∈ ordered.filter fun x => x ∉ firsts scope ordered scopes, decide (scope x = s) = true →
        (before (ordered.filter fun x => x ∉ firsts scope ordered scopes) x).countP (fun x => scope x = s) < share - 1 →
        (before (ordered.filter fun x => x ∉ firsts scope ordered scopes) x).length < total - scopes.length := by
    rw [← min_le_countP_take hrest, countP_ahead, hcount hs, countP_firsts hscopes hs ((hall s).1 hs), hlen]
    omega
  constructor
  · intro hguaranteed x hx hpos hshort
    have hearly := (hscopewise (hinto _ hx)).1 (hguaranteed _) x
      (List.mem_filter.2 ⟨hx, by simpa using hbeyond hx hpos⟩) (decide_eq_true rfl)
    rw [hlate hx hpos, hbefore hx hpos] at hearly
    rw [rankIn_rest hnd hscopes hinto hx hpos] at hshort
    exact hearly (by omega)
  · intro hearly s
    by_cases hs : s ∈ scopes
    · refine (hscopewise hs).2 fun x hx hxs hrank => ?_
      obtain ⟨hx, hnot⟩ := List.mem_filter.1 hx
      have hxs : scope x = s := of_decide_eq_true hxs
      have hpos : 0 < rankIn scope ordered x :=
        (notMem_firsts hnd hx (hinto _ hx)).1 (of_decide_eq_true hnot)
      rw [hlate hx hpos]
      refine hearly x hx hpos ?_
      rw [rankIn_rest hnd hscopes hinto hx hpos, ← hbefore hx hpos, hxs]
      omega
    · have hnone : ordered.countP (fun x => scope x = s) = 0 := by
        refine List.countP_eq_zero.2 fun x hx h => hs ?_
        rw [← of_decide_eq_true h]
        exact hinto x hx
      omega

end

end

end

end Py
