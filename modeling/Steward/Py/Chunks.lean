import Mathlib.Data.List.SplitBy
import Steward.Py.Grouping

/-!
# Chunks of neighbours

A loop that appends each element to the last group where it follows its last
member there, and opens a group otherwise, splits the list as `List.splitBy`
does. `filter_splitBy_iff` says when the groups of one key are the groups of the
elements of that key: no two neighbours among those, the second of which would
follow the first, are held apart.
-/

namespace Py

section
variable {α : Type} (follows : α → α → Bool)

/-- One turn of the loop. -/
def chunkStep (groups : List (List α)) (x : α) : List (List α) :=
  match groups.getLast? with
  | some group =>
    match group.getLast? with
    | some last => if follows last x then groups.dropLast ++ [group ++ [x]] else groups ++ [[x]]
    | none => groups ++ [[x]]
  | none => groups ++ [[x]]

variable {follows}

section
omit follows
variable {groups : List (List α)} (hnil : [] ∉ groups)
include hnil

theorem concat_of_flatten {front : List α} {last : α} (h : groups.flatten = front ++ [last]) :
    ∃ others group, groups = others ++ [group ++ [last]] := by
  rcases List.eq_nil_or_concat groups with rfl | ⟨others, final, rfl⟩
  · cases front <;> cases h
  · rcases List.eq_nil_or_concat final with rfl | ⟨group, x, rfl⟩
    · simp at hnil
    · rw [List.concat_eq_append, List.concat_eq_append, List.flatten_append, List.flatten_singleton,
        ← List.append_assoc] at h
      obtain rfl : x = last := by simpa using (List.append_inj' h rfl).2
      exact ⟨others, group, by simp⟩

theorem cons_of_flatten {rest : List α} {first : α} (h : groups.flatten = first :: rest) :
    ∃ group others, groups = (first :: group) :: others := by
  match groups, hnil, h with
  | (x :: group) :: others, _, h =>
    obtain ⟨rfl, -⟩ := List.cons.inj h
    exact ⟨group, others, rfl⟩
  | [] :: _, hnil, _ => exact absurd List.mem_cons_self hnil

end

theorem chunkStep_splitBy (follows : α → α → Bool) (xs : List α) (x : α) :
    chunkStep follows (xs.splitBy follows) x = (xs ++ [x]).splitBy follows := by
  rcases List.eq_nil_or_concat xs with rfl | ⟨front, last, rfl⟩
  · rfl
  · rw [List.concat_eq_append]
    obtain ⟨groups, group, hsplit⟩ := concat_of_flatten (List.nil_notMem_splitBy follows (front ++ [last]))
      (List.flatten_splitBy follows _)
    unfold chunkStep
    rw [hsplit, List.getLast?_concat]
    dsimp only
    rw [List.getLast?_concat]
    dsimp only
    split_ifs with hfollows
    · obtain ⟨hflat, hnil, hchains, hapart⟩ := List.splitBy_eq_iff.1 hsplit
      obtain ⟨hgroups, -, hlast⟩ := List.isChain_append.1 hapart
      rw [List.dropLast_concat, eq_comm, List.splitBy_eq_iff]
      refine ⟨by simp [hflat], by simp at hnil ⊢; exact hnil, fun m hm => ?_, ?_⟩
      · rcases List.mem_append.1 hm with hm | hm
        · exact hchains m (List.mem_append_left _ hm)
        · rw [List.mem_singleton.1 hm]
          refine List.isChain_append.2 ⟨hchains _ (by simp), List.isChain_singleton _, ?_⟩
          simpa using hfollows
      · refine List.isChain_append.2 ⟨hgroups, List.isChain_singleton _, fun g hg next hnext => ?_⟩
        obtain ⟨hgne, _, hfalse⟩ := hlast g hg _ rfl
        obtain rfl : next = group ++ [last] ++ [x] := by simpa using hnext.symm
        exact ⟨hgne, by simp, by rw [List.head_append_of_ne_nil (by simp)]; exact hfalse⟩
    · rw [List.splitBy_append_cons [] (by simpa using hfollows), hsplit]
      rfl

/-- The loop splits as `splitBy` does. -/
theorem foldl_chunkStep (xs : List α) : xs.foldl (chunkStep follows) [] = xs.splitBy follows := by
  induction xs using List.reverseRecOn with
  | nil => rfl
  | append_singleton xs x ih => rw [List.foldl_concat, ih, chunkStep_splitBy]

/-- The groups are the runs that cannot be continued on either side. -/
theorem mem_splitBy_iff {xs run : List α} : run ∈ xs.splitBy follows ↔
    ∃ before after, xs = before ++ run ++ after ∧ run ≠ [] ∧ (run.IsChain fun a b => follows a b = true) ∧
      (∀ a ∈ before.getLast?, ∀ b ∈ run.head?, follows a b = false) ∧
      ∀ a ∈ run.getLast?, ∀ b ∈ after.head?, follows a b = false := by
  constructor
  · intro hrun
    obtain ⟨left, right, hsplit⟩ := List.append_of_mem hrun
    have hflat := List.flatten_splitBy follows xs
    have hnil := List.nil_notMem_splitBy follows xs
    have hchain := List.isChain_getLast_head_splitBy follows xs
    rw [hsplit] at hflat hnil hchain
    obtain ⟨-, hright, hleft⟩ := List.isChain_append.1 hchain
    refine ⟨left.flatten, right.flatten, by rw [← hflat]; simp, List.ne_nil_of_mem_splitBy hrun,
      List.isChain_of_mem_splitBy hrun, fun a ha b hb => ?_, fun a ha b hb => ?_⟩
    · obtain ⟨front, hfront⟩ := List.getLast?_eq_some_iff.1 ha
      obtain ⟨others, group, rfl⟩ := concat_of_flatten (fun h => hnil (List.mem_append_left _ h)) hfront
      obtain ⟨_, _, hfalse⟩ := hleft _ List.getLast?_concat run rfl
      rw [List.getLast_append_singleton, List.head_of_mem_head? hb] at hfalse
      exact hfalse
    · obtain ⟨rest, hrest⟩ := List.head?_eq_some_iff.1 hb
      obtain ⟨group, others, rfl⟩ :=
        cons_of_flatten (fun h => hnil (List.mem_append_right _ (List.mem_cons_of_mem _ h))) hrest
      obtain ⟨_, _, hfalse⟩ := (List.isChain_cons_cons.1 hright).1
      rw [List.head_cons, List.getLast_of_mem_getLast? ha] at hfalse
      exact hfalse
  · rintro ⟨before, after, rfl, hne, hchain, hbefore, hafter⟩
    rw [List.splitBy_append (by rwa [List.getLast?_append_of_ne_nil _ hne]), List.splitBy_append hbefore,
      List.splitBy_of_isChain hne hchain]
    simp

end

/-! ## The groups of one key -/

section
variable {α κ : Type} [DecidableEq κ] {follows : α → α → Bool} {key : α → κ}

/-- Whatever stands between two neighbours among the elements of a key holds back nothing. -/
def Uninterrupted (follows : α → α → Bool) (key : α → κ) (xs : List α) : Prop :=
  ∀ before a between b after, xs = before ++ a :: between ++ b :: after → key a = key b →
    (∀ x ∈ between, key x ≠ key a) → follows a b = true → between = []

def groupsOfKey (key : α → κ) (groups : List (List α)) (k : κ) : List (List α) :=
  groups.filter fun group => group.all fun x => key x = k

theorem isChain_of_splits {R : α → α → Prop} {xs : List α}
    (h : ∀ before a b after, xs = before ++ a :: b :: after → R a b) : xs.IsChain R := by
  induction xs with
  | nil => exact .nil
  | cons x xs ih =>
    cases xs with
    | nil => exact .singleton x
    | cons y ys =>
      exact .cons_cons (h [] x y ys rfl) (ih fun before a b after heq => h (x :: before) a b after (by rw [heq]; rfl))

section
variable {groups : List (List α)} {k : κ}

variable (huniform : ∀ group ∈ groups, ∀ x ∈ group, ∀ y ∈ group, key x = key y)
include huniform

/-- A group that is not of the key has no member of the key. -/
theorem key_ne_of_not_all {group : List α} (hgroup : group ∈ groups) (h : ¬ (group.all fun x => key x = k) = true)
    {x : α} (hx : x ∈ group) : key x ≠ k := fun hk =>
  h (List.all_eq_true.2 fun y hy => decide_eq_true (by rw [← hk]; exact huniform group hgroup y hy x hx))

theorem flatten_groupsOfKey : (groupsOfKey key groups k).flatten = groups.flatten.filter fun x => key x = k := by
  unfold groupsOfKey
  induction groups with
  | nil => rfl
  | cons group groups ih =>
    have hrest := ih fun g hg => huniform g (List.mem_cons_of_mem _ hg)
    rw [List.flatten_cons, List.filter_append, ← hrest, List.filter_cons]
    by_cases hall : (group.all fun x => key x = k) = true
    · rw [if_pos hall, List.flatten_cons, List.filter_eq_self.2 (List.all_eq_true.1 hall)]
    · have hnone : group.filter (fun x => key x = k) = [] := List.filter_eq_nil_iff.2 fun x hx => by
        simpa using key_ne_of_not_all huniform List.mem_cons_self hall hx
      rw [if_neg hall, hnone, List.nil_append]

end

variable (hkey : ∀ a b, follows a b = true → key a = key b)
include hkey

omit [DecidableEq κ] in
theorem key_of_isChain {group : List α} (h : group.IsChain fun a b => follows a b = true) :
    ∀ x ∈ group, ∀ y ∈ group, key x = key y := by
  have htrans : IsTrans α fun a b => key a = key b := ⟨fun _ _ _ => Eq.trans⟩
  have hpairs : group.Pairwise fun a b => key a = key b := (h.imp hkey).pairwise
  have hsymm : Std.Symm fun a b => key a = key b := ⟨fun _ _ => Eq.symm⟩
  intro x hx y hy
  exact List.Pairwise.forall_of_forall (R := fun a b => key a = key b) (fun _ _ => rfl) hpairs hx hy

omit [DecidableEq κ] in
theorem uniform_splitBy (xs : List α) :
    ∀ group ∈ xs.splitBy follows, ∀ x ∈ group, ∀ y ∈ group, key x = key y :=
  fun _ hgroup => key_of_isChain hkey (List.isChain_of_mem_splitBy hgroup)

theorem filter_splitBy_of_uninterrupted {xs : List α} (h : Uninterrupted follows key xs) (k : κ) :
    groupsOfKey key (xs.splitBy follows) k = (xs.filter fun x => key x = k).splitBy follows := by
  have huniform := uniform_splitBy hkey xs
  have hflat := flatten_groupsOfKey huniform (k := k)
  rw [List.flatten_splitBy] at hflat
  rw [eq_comm, List.splitBy_eq_iff]
  refine ⟨hflat.symm, fun hnil => List.nil_notMem_splitBy follows xs (List.mem_of_mem_filter hnil),
    fun group hgroup => List.isChain_of_mem_splitBy (List.mem_of_mem_filter hgroup),
    isChain_of_splits fun before group next after hsplit => ?_⟩
  obtain ⟨front, rest, hgroups, -, hrest⟩ := List.filter_eq_append_iff.1 hsplit
  obtain ⟨skipped, tail, rfl, -, hgroup, htail⟩ := List.filter_eq_cons_iff.1 hrest
  obtain ⟨apart, tail, rfl, hapart, hnext, -⟩ := List.filter_eq_cons_iff.1 htail
  have hmem : ∀ g, g = group ∨ g ∈ apart ∨ g = next → g ∈ xs.splitBy follows := fun g hg => by
    rw [hgroups]
    rcases hg with rfl | hg | rfl <;> simp [*]
  obtain ⟨members, a, rfl⟩ : ∃ members a, group = members ++ [a] :=
    ⟨_, _, (List.dropLast_append_getLast (List.ne_nil_of_mem_splitBy (hmem _ (.inl rfl)))).symm⟩
  obtain ⟨b, others, rfl⟩ := List.exists_cons_of_ne_nil (List.ne_nil_of_mem_splitBy (hmem _ (.inr (.inr rfl))))
  have ha : key a = k := of_decide_eq_true (List.all_eq_true.1 hgroup a (by simp))
  have hb : key b = k := of_decide_eq_true (List.all_eq_true.1 hnext b (by simp))
  refine ⟨by simp, by simp, ?_⟩
  rw [List.getLast_append_singleton, List.head_cons]
  -- If `b` followed `a`, nothing would stand between the groups, and they would be one.
  by_contra hfollows
  have hflatten := List.flatten_splitBy follows xs
  rw [hgroups] at hflatten
  have hbetween : apart.flatten = [] := by
    refine h ((front ++ skipped).flatten ++ members) a apart.flatten b (others ++ tail.flatten) ?_ (ha.trans hb.symm)
      (fun x hx => ?_) (by simpa using hfollows)
    · rw [← hflatten]
      simp
    · obtain ⟨g, hg, hx⟩ := List.mem_flatten.1 hx
      rw [ha]
      exact key_ne_of_not_all huniform (hmem g (.inr (.inl hg))) (hapart g hg) hx
  have hadjacent : apart = [] := by
    rw [List.eq_nil_iff_forall_not_mem]
    intro g hg
    exact List.ne_nil_of_mem_splitBy (hmem g (.inr (.inl hg))) (List.flatten_eq_nil_iff.1 hbetween g hg)
  have hchain := List.isChain_getLast_head_splitBy follows xs
  rw [hgroups, hadjacent, List.nil_append, ← List.append_assoc] at hchain
  obtain ⟨_, _, hfalse⟩ := (List.isChain_cons_cons.1 (List.isChain_append.1 hchain).2.1).1
  rw [List.getLast_append_singleton, List.head_cons] at hfalse
  exact hfollows hfalse

theorem uninterrupted_of_filter_splitBy {xs : List α}
    (h : ∀ k, groupsOfKey key (xs.splitBy follows) k = (xs.filter fun x => key x = k).splitBy follows) :
    Uninterrupted follows key xs := by
  intro before a between b after hxs hab hbetween hfollows
  by_contra hne
  obtain ⟨x, between, rfl⟩ := List.exists_cons_of_ne_nil hne
  have hstop : follows a x = false := by
    by_contra hax
    exact hbetween x List.mem_cons_self (hkey a x (by simpa using hax)).symm
  -- The list is split after `a`, and so is the list of the elements of the key.
  have hleft : (before ++ [a]).filter (fun x => key x = key a) = before.filter (fun x => key x = key a) ++ [a] := by
    simp
  have hright : (x :: between ++ b :: after).filter (fun x => key x = key a) =
      b :: after.filter fun x => key x = key a := by
    rw [List.filter_append, List.filter_eq_nil_iff.2 (by simpa using hbetween), List.nil_append, List.filter_cons,
      if_pos (by simpa using hab.symm)]
  have hwhole : xs = (before ++ [a]) ++ (x :: between ++ b :: after) := by rw [hxs]; simp
  have hgroups : xs.splitBy follows =
      (before ++ [a]).splitBy follows ++ (x :: between ++ b :: after).splitBy follows := by
    rw [hwhole]
    exact List.splitBy_append (by simpa using hstop)
  have hnil (ys : List α) : [] ∉ groupsOfKey key (ys.splitBy follows) (key a) := fun hmem =>
    List.nil_notMem_splitBy follows ys (List.mem_of_mem_filter hmem)
  have hflat (ys : List α) := flatten_groupsOfKey (uniform_splitBy hkey ys) (k := key a)
  simp only [List.flatten_splitBy] at hflat
  obtain ⟨others, group, hfirst⟩ := concat_of_flatten (hnil _) ((hflat _).trans hleft)
  obtain ⟨group', others', hsecond⟩ := cons_of_flatten (hnil _) ((hflat _).trans hright)
  have hchain := List.isChain_getLast_head_splitBy follows (xs.filter fun x => key x = key a)
  rw [← h, hgroups, groupsOfKey, List.filter_append] at hchain
  unfold groupsOfKey at hfirst hsecond
  rw [hfirst, hsecond] at hchain
  obtain ⟨_, _, hfalse⟩ := (List.isChain_append.1 hchain).2.2 _ List.getLast?_concat _ rfl
  rw [List.getLast_append_singleton, List.head_cons] at hfalse
  exact absurd hfollows (by rw [hfalse]; decide)

/-- The groups of each key are the groups of its elements where these are not interrupted. -/
theorem filter_splitBy_iff (xs : List α) :
    (∀ k, groupsOfKey key (xs.splitBy follows) k = (xs.filter fun x => key x = k).splitBy follows) ↔
      Uninterrupted follows key xs :=
  ⟨uninterrupted_of_filter_splitBy hkey, filter_splitBy_of_uninterrupted hkey⟩

end

/-! ## Sorting first -/

section
variable {α κ : Type} [LinearOrder κ] {key : α → κ}

theorem filter_orderedInsert (p : α → Bool) (x : α) {xs : List α} (h : xs.Pairwise fun a b => key a ≤ key b) :
    (xs.orderedInsert (fun a b => key a ≤ key b) x).filter p =
      if p x then (xs.filter p).orderedInsert (fun a b => key a ≤ key b) x else xs.filter p := by
  induction xs with
  | nil =>
    rw [List.orderedInsert_nil, List.filter_cons]
    rfl
  | cons y ys ih =>
    obtain ⟨hy, hys⟩ := List.pairwise_cons.1 h
    by_cases hxy : key x ≤ key y
    · rw [List.orderedInsert_cons, if_pos hxy, List.filter_cons]
      split_ifs
      · cases hf : (y :: ys).filter p with
        | nil => rfl
        | cons z zs =>
          have hz : z ∈ y :: ys := List.mem_of_mem_filter (hf ▸ List.mem_cons_self)
          have hxz : key x ≤ key z := by
            rcases List.mem_cons.1 hz with rfl | hz
            · exact hxy
            · exact le_trans hxy (hy z hz)
          rw [List.orderedInsert_cons, if_pos hxz]
      · rfl
    · rw [List.orderedInsert_cons, if_neg hxy, List.filter_cons, ih hys, List.filter_cons]
      split_ifs
      · rw [List.orderedInsert_cons, if_neg hxy]
      · rfl
      · rfl
      · rfl

/-- A stable sort and a filter commute. -/
theorem filter_sortedBy (p : α → Bool) (xs : List α) : (sortedBy key xs).filter p = sortedBy key (xs.filter p) := by
  induction xs with
  | nil => rfl
  | cons x xs ih =>
    have hstep : sortedBy key (x :: xs) = (sortedBy key xs).orderedInsert (fun a b => key a ≤ key b) x := rfl
    rw [hstep, filter_orderedInsert p x sortedBy_pairwise, ih, List.filter_cons]
    split_ifs
    · rfl
    · rfl

end

end Py
