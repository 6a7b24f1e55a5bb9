import Mathlib.Algebra.BigOperators.Group.List.Basic
import Mathlib.Data.List.Infix
import Mathlib.Tactic.Abel
import Mathlib.Data.List.Nodup
import Steward.Py.Error

/-!
# Trees of paths

A dictionary from paths to branches, in which every branch names its children.
Paths are added parent first; `resolve` evaluates the branches from the leaves
up. A total over the branches below a path is the sum of its own and of its
children's.
-/

namespace Py.PathTree

structure Branch (α β : Type) where
  value : β
  children : List (List α)

abbrev Tree (α β : Type) := List (List α × Branch α β)

section
variable {α β : Type} [DecidableEq α]

def paths (t : Tree α β) : List (List α) := t.map Prod.fst

def branchAt : Tree α β → List α → Option (Branch α β)
  | [], _ => none
  | (q, b) :: t, p => if q = p then some b else branchAt t p

def modify (t : Tree α β) (p : List α) (f : Branch α β → Branch α β) : Tree α β :=
  t.map fun n => if n.1 = p then (n.1, f n.2) else n

def setValue (f : β → β) (b : Branch α β) : Branch α β := { b with value := f b.value }

def addChild (p : List α) (b : Branch α β) : Branch α β := { b with children := b.children ++ [p] }

/-- A path that is not there is added, and named by its parent. -/
def ensure {ε : Type} (missing : ε) (fresh : β) (t : Tree α β) (p : List α) : Except ε (Tree α β) :=
  if p ∈ paths t then .ok t
  else
    let t := t ++ [(p, ⟨fresh, []⟩)]
    if p = [] then .ok t
    else if p.dropLast ∈ paths t then .ok (modify t p.dropLast (addChild p))
    else .error missing

/-! ## Looking up -/

variable {t : Tree α β} {p q : List α}

theorem mem_paths : p ∈ paths t ↔ ∃ b, branchAt t p = some b := by
  unfold paths
  induction t with
  | nil => simp [branchAt]
  | cons n t ih =>
    unfold branchAt
    rw [List.map_cons, List.mem_cons, ih]
    by_cases h : n.1 = p
    · rw [if_pos h]
      exact iff_of_true (.inl h.symm) ⟨_, rfl⟩
    · rw [if_neg h]
      exact or_iff_right fun heq => h heq.symm

theorem branchAt_eq_none : branchAt t p = none ↔ p ∉ paths t := by
  rw [mem_paths]
  cases branchAt t p <;> simp

omit [DecidableEq α] in
theorem paths_append (n : List α × Branch α β) : paths (t ++ [n]) = paths t ++ [n.1] := by
  unfold paths
  rw [List.map_append]
  rfl

theorem branchAt_append (n : List α × Branch α β) :
    branchAt (t ++ [n]) p = (branchAt t p).or (if n.1 = p then some n.2 else none) := by
  induction t with
  | nil => simp [branchAt]
  | cons m t ih =>
    rw [List.cons_append]
    unfold branchAt
    by_cases hm : m.1 = p
    · rw [if_pos hm, if_pos hm]
      rfl
    · rw [if_neg hm, if_neg hm]
      exact ih

theorem paths_modify (f : Branch α β → Branch α β) : paths (modify t p f) = paths t := by
  unfold paths modify
  rw [List.map_map]
  refine List.map_congr_left fun n _ => ?_
  show (if n.1 = p then (n.1, f n.2) else n).1 = n.1
  split_ifs <;> rfl

theorem branchAt_modify (f : Branch α β → Branch α β) :
    branchAt (modify t p f) q = if q = p then (branchAt t q).map f else branchAt t q := by
  unfold modify
  induction t with
  | nil => simp [branchAt]
  | cons n t ih =>
    obtain ⟨r, b⟩ := n
    rw [List.map_cons]
    by_cases hr : r = p
    · subst hr
      rw [if_pos rfl]
      unfold branchAt
      dsimp only
      by_cases hq : r = q
      · rw [if_pos hq, if_pos hq, if_pos hq.symm]
        rfl
      · have hback : ¬ q = r := fun h => hq h.symm
        rw [if_neg hback] at ih
        rw [if_neg hq, if_neg hq, if_neg hback]
        exact ih
    · rw [if_neg hr]
      unfold branchAt
      by_cases hq : r = q
      · rw [if_pos hq, if_pos hq, if_neg fun h => hr (hq.trans h)]
      · rw [if_neg hq, if_neg hq]
        exact ih

/-- The value at a path, or the one that a path is added with. -/
def valueAt (fresh : β) (t : Tree α β) (p : List α) : β := ((branchAt t p).map Branch.value).getD fresh

theorem valueAt_eq {fresh : β} {b : Branch α β} (h : branchAt t p = some b) : valueAt fresh t p = b.value := by
  unfold valueAt
  rw [h]
  rfl

/-! ## Well-formed trees -/

/-- Each path has its parent, and each branch names the paths it is the parent of. -/
structure WellFormed (t : Tree α β) : Prop where
  nodup : (paths t).Nodup
  root : [] ∈ paths t
  parents : ∀ p ∈ paths t, p.dropLast ∈ paths t
  children_nodup : ∀ p b, branchAt t p = some b → b.children.Nodup
  mem_children : ∀ p b, branchAt t p = some b → ∀ q, q ∈ b.children ↔ q ∈ paths t ∧ q ≠ [] ∧ q.dropLast = p

theorem wellFormed_root (fresh : β) : WellFormed ([([], ⟨fresh, []⟩)] : Tree α β) := by
  refine ⟨List.nodup_singleton _, List.mem_singleton_self _, fun p hp => ?_, fun p b hb => ?_, fun p b hb q => ?_⟩
  · rw [List.mem_singleton.1 hp]
    exact List.mem_singleton_self _
  · unfold branchAt at hb
    split_ifs at hb
    · cases hb
      exact List.nodup_nil
    · cases hb
  · unfold branchAt at hb
    split_ifs at hb
    · cases hb
      refine iff_of_false List.not_mem_nil fun h => h.2.1 (List.mem_singleton.1 h.1)
    · cases hb

theorem WellFormed.modifyValue (h : WellFormed t) (f : β → β) : WellFormed (modify t p (setValue f)) := by
  have hback : ∀ q b, branchAt (modify t p (setValue f)) q = some b →
      ∃ b', branchAt t q = some b' ∧ b.children = b'.children := by
    intro q b hb
    rw [branchAt_modify] at hb
    split_ifs at hb
    · obtain ⟨b', hb', rfl⟩ := Option.map_eq_some_iff.1 hb
      exact ⟨b', hb', rfl⟩
    · exact ⟨b, hb, rfl⟩
  refine ⟨?_, ?_, ?_, fun q b hb => ?_, fun q b hb r => ?_⟩
  · rw [paths_modify]
    exact h.nodup
  · rw [paths_modify]
    exact h.root
  · rw [paths_modify]
    exact h.parents
  · obtain ⟨b', hb', heq⟩ := hback q b hb
    rw [heq]
    exact h.children_nodup q b' hb'
  · obtain ⟨b', hb', heq⟩ := hback q b hb
    rw [heq, paths_modify]
    exact h.mem_children q b' hb' r

theorem valueAt_modify {fresh : β} (f : β → β) (hp : p ∈ paths t) :
    valueAt fresh (modify t p (setValue f)) q = if q = p then f (valueAt fresh t q) else valueAt fresh t q := by
  unfold valueAt
  rw [branchAt_modify]
  split_ifs with hq
  · subst hq
    obtain ⟨b, hb⟩ := mem_paths.1 hp
    rw [hb]
    rfl
  · rfl

/-- What `ensure` leaves: the path is there, and no value changes. -/
structure Ensured (fresh : β) (t : Tree α β) (p : List α) (t' : Tree α β) : Prop where
  wellFormed : WellFormed t'
  mem_paths : ∀ q, q ∈ paths t' ↔ q ∈ paths t ∨ q = p
  valueAt : ∀ q, valueAt fresh t' q = valueAt fresh t q

theorem ensure_spec {ε : Type} (missing : ε) {fresh : β} (h : WellFormed t) (hp : p.dropLast ∈ paths t) :
    ∃ t', ensure missing fresh t p = .ok t' ∧ Ensured fresh t p t' := by
  unfold ensure
  by_cases hmem : p ∈ paths t
  · rw [if_pos hmem]
    exact ⟨t, rfl, h, fun q => ⟨.inl, fun hq => hq.elim id fun hq => hq ▸ hmem⟩, fun _ => rfl⟩
  have hne : p ≠ [] := by
    rintro rfl
    exact hmem h.root
  have hparent : p.dropLast ≠ p := by
    intro heq
    have hlen := congrArg List.length heq
    rw [List.length_dropLast] at hlen
    have hpos := List.length_pos_iff.2 hne
    omega
  dsimp only
  rw [if_neg hmem, if_neg hne, if_pos (by rw [paths_append]; exact List.mem_append_left _ hp)]
  refine ⟨_, rfl, ⟨?_, ?_, ?_, ?_, ?_⟩, ?_, ?_⟩
  · rw [paths_modify, paths_append]
    exact List.nodup_append'.2 ⟨h.nodup, List.nodup_singleton _, List.disjoint_singleton.2 hmem⟩
  · rw [paths_modify, paths_append]
    exact List.mem_append_left _ h.root
  · rw [paths_modify, paths_append]
    intro q hq
    rcases List.mem_append.1 hq with hq | hq
    · exact List.mem_append_left _ (h.parents q hq)
    · rw [List.mem_singleton.1 hq]
      exact List.mem_append_left _ hp
  · intro q b hb
    rw [branchAt_modify, branchAt_append] at hb
    split_ifs at hb with hq hpq hpq
    · subst hq
      exact absurd hpq.symm hparent
    · subst hq
      rw [Option.or_none] at hb
      obtain ⟨b', hb', rfl⟩ := Option.map_eq_some_iff.1 hb
      refine List.nodup_append'.2 ⟨h.children_nodup _ b' hb', List.nodup_singleton _, List.disjoint_singleton.2 fun hin => ?_⟩
      exact hmem ((h.mem_children _ b' hb' p).1 hin).1
    · rw [← hpq, branchAt_eq_none.2 hmem] at hb
      cases hb
      exact List.nodup_nil
    · rw [Option.or_none] at hb
      exact h.children_nodup q b hb
  · intro q b hb r
    rw [paths_modify, paths_append, List.mem_append, List.mem_singleton]
    rw [branchAt_modify, branchAt_append] at hb
    split_ifs at hb with hq hpq hpq
    · subst hq
      exact absurd hpq.symm hparent
    · subst hq
      rw [Option.or_none] at hb
      obtain ⟨b', hb', rfl⟩ := Option.map_eq_some_iff.1 hb
      show r ∈ b'.children ++ [p] ↔ _
      rw [List.mem_append, List.mem_singleton, h.mem_children _ b' hb' r]
      constructor
      · rintro (⟨hr, hrest⟩ | rfl)
        · exact ⟨.inl hr, hrest⟩
        · exact ⟨.inr rfl, hne, rfl⟩
      · rintro ⟨hr | hr, hrest⟩
        · exact .inl ⟨hr, hrest⟩
        · exact .inr hr
    · -- The new branch has no children: nothing below a path that was not there.
      rw [← hpq, branchAt_eq_none.2 hmem] at hb
      cases hb
      refine iff_of_false List.not_mem_nil ?_
      rintro ⟨hr | rfl, hrne, hrq⟩
      · have hparents := h.parents r hr
        rw [hrq, ← hpq] at hparents
        exact hmem hparents
      · exact hparent (hrq.trans hpq.symm)
    · rw [Option.or_none] at hb
      rw [h.mem_children q b hb r]
      constructor
      · rintro ⟨hr, hrest⟩
        exact ⟨.inl hr, hrest⟩
      · rintro ⟨hr | rfl, hrest⟩
        · exact ⟨hr, hrest⟩
        · exact absurd hrest.2.symm hq
  · intro q
    rw [paths_modify, paths_append, List.mem_append, List.mem_singleton]
  · intro q
    unfold PathTree.valueAt
    rw [branchAt_modify, branchAt_append]
    have hnew : (((branchAt t q).or (if p = q then some ⟨fresh, []⟩ else none)).map Branch.value).getD fresh =
        ((branchAt t q).map Branch.value).getD fresh := by
      cases branchAt t q with
      | some b => rfl
      | none =>
        rw [Option.none_or]
        by_cases hpq : p = q
        · rw [if_pos hpq]
          rfl
        · rw [if_neg hpq]
    by_cases hq : q = p.dropLast
    · rw [if_pos hq, ← hnew, Option.map_map]
      rfl
    · rw [if_neg hq]
      exact hnew

/-! ## Growing a tree -/

/-- The first `n` prefixes of a path, parent first. -/
def ensurePrefixes {ε : Type} (missing : ε) (fresh : β) (p : List α) (n : Nat) (t : Tree α β) : Except ε (Tree α β) :=
  (List.range n).foldlM (fun t k => ensure missing fresh t (p.take k)) t

theorem ensurePrefixes_succ {ε : Type} (missing : ε) (fresh : β) (n : Nat) :
    ensurePrefixes missing fresh p (n + 1) t =
      (ensurePrefixes missing fresh p n t).bind fun t => ensure missing fresh t (p.take n) := by
  unfold ensurePrefixes
  rw [List.range_succ, List.foldlM_append]
  show (_ >>= _) = _
  congr 1
  funext t'
  exact bind_pure _

omit [DecidableEq α] in
theorem dropLast_take {n : Nat} (h : n ≤ p.length) : (p.take n).dropLast = p.take (n - 1) := by
  rw [List.dropLast_eq_take, List.take_take, List.length_take]
  congr 1
  omega

theorem ensurePrefixes_spec {ε : Type} (missing : ε) {fresh : β} (h : WellFormed t) {n : Nat} (hn : n ≤ p.length + 1) :
    ∃ t', ensurePrefixes missing fresh p n t = .ok t' ∧ WellFormed t' ∧
      (∀ q, q ∈ paths t' ↔ q ∈ paths t ∨ ∃ k < n, q = p.take k) ∧ ∀ q, valueAt fresh t' q = valueAt fresh t q := by
  induction n with
  | zero => exact ⟨t, rfl, h, fun q => by simp, fun _ => rfl⟩
  | succ n ih =>
    obtain ⟨t₁, ht₁, hwf, hpaths, hvalues⟩ := ih (by omega)
    have hparent : (p.take n).dropLast ∈ paths t₁ := by
      by_cases hzero : n = 0
      · subst hzero
        exact hwf.root
      · rw [dropLast_take (by omega)]
        exact (hpaths _).2 (.inr ⟨n - 1, by omega, rfl⟩)
    obtain ⟨t₂, ht₂, hensured⟩ := ensure_spec missing hwf hparent
    refine ⟨t₂, ?_, hensured.wellFormed, fun q => ?_, fun q => (hensured.valueAt q).trans (hvalues q)⟩
    · rw [ensurePrefixes_succ, ht₁]
      exact ht₂
    · rw [hensured.mem_paths, hpaths, or_assoc]
      refine or_congr_right ?_
      constructor
      · rintro (⟨k, hk, rfl⟩ | rfl)
        · exact ⟨k, by omega, rfl⟩
        · exact ⟨n, by omega, rfl⟩
      · rintro ⟨k, hk, rfl⟩
        by_cases hkn : k = n
        · exact .inr (by rw [hkn])
        · exact .inl ⟨k, by omega, rfl⟩

/-- The tree that records have grown: a record is put at its home, and every prefix of a
home is a path. -/
structure Grown {ρ : Type} (fresh : β) (step : β → ρ → β) (rs : List (List α × ρ)) (t : Tree α β) : Prop where
  wellFormed : WellFormed t
  mem_paths : ∀ q, q ∈ paths t ↔ q = [] ∨ ∃ r ∈ rs, q <+: r.1
  valueAt : ∀ q, valueAt fresh t q = ((rs.filter fun r => r.1 = q).map Prod.snd).foldl step fresh

section
variable {ρ : Type} {fresh : β} {step : β → ρ → β} {rs : List (List α × ρ)}

theorem grown_root : Grown fresh step [] ([([], ⟨fresh, []⟩)] : Tree α β) := by
  refine ⟨wellFormed_root fresh, fun q => ?_, fun q => ?_⟩
  · show q ∈ [[]] ↔ _
    simp
  · unfold PathTree.valueAt branchAt
    by_cases hq : [] = q
    · rw [if_pos hq]
      rfl
    · rw [if_neg hq]
      rfl

/-- One more record: the prefixes of its home, and its home changed. -/
theorem Grown.put {ε : Type} (missing : ε) (h : Grown fresh step rs t) (home : List α) (x : ρ) :
    ∃ t', ensurePrefixes missing fresh home (home.length + 1) t = .ok t' ∧
      Grown fresh step (rs ++ [(home, x)]) (modify t' home (setValue fun b => step b x)) := by
  obtain ⟨t', ht', hwf, hpaths, hvalues⟩ :=
    ensurePrefixes_spec missing h.wellFormed (p := home) (n := home.length + 1) (Nat.le_refl _)
  have hprefix : ∀ q, (∃ k < home.length + 1, q = home.take k) ↔ q <+: home := by
    intro q
    constructor
    · rintro ⟨k, -, rfl⟩
      exact List.take_prefix _ _
    · intro hq
      exact ⟨q.length, by have hle := hq.length_le; omega, List.prefix_iff_eq_take.1 hq⟩
  have hmem : ∀ q, q ∈ paths t' ↔ q = [] ∨ ∃ r ∈ rs ++ [(home, x)], q <+: r.1 := by
    intro q
    rw [hpaths, h.mem_paths, hprefix]
    simp only [List.mem_append, List.mem_singleton, or_and_right, exists_or, exists_eq_left, or_assoc]
  have hhome : home ∈ paths t' :=
    (hmem home).2 (.inr ⟨(home, x), List.mem_append_right _ (List.mem_singleton_self _), List.prefix_refl _⟩)
  refine ⟨t', ht', hwf.modifyValue _, fun q => ?_, fun q => ?_⟩
  · rw [paths_modify]
    exact hmem q
  · rw [valueAt_modify _ hhome, hvalues, h.valueAt, List.filter_append]
    by_cases hq : q = home
    · subst hq
      rw [if_pos rfl, List.filter_cons_of_pos (by simp)]
      simp [List.foldl_append]
    · have hback : home ≠ q := fun heq => hq heq.symm
      rw [if_neg hq, List.filter_cons_of_neg (by simp [hback])]
      simp

end

/-! ## Resolving a tree -/

/-- The branches at and below a path, each evaluated from its children. `order` is the order
in which children are visited, `deep` what a call raises that does not bottom out. -/
def resolve {ε γ : Type} (missing deep : ε) (order : List (List α) → Except ε (List (List α)))
    (combine : List α → β → List γ → Except ε γ) (t : Tree α β) : Nat → List α → Except ε (γ × List (List α × γ))
  | 0, _ => .error deep
  | fuel + 1, p =>
    match branchAt t p with
    | none => .error missing
    | some b => do
      let children ← order b.children
      let below ← children.mapM (resolve missing deep order combine t fuel)
      let value ← combine p b.value (below.map Prod.fst)
      return (value, below.flatMap Prod.snd ++ [(p, value)])

/-- An upper bound of the depth of a tree. -/
def depth (t : Tree α β) : Nat := ((paths t).map List.length).foldr max 0

omit [DecidableEq α] in
theorem length_le_depth (h : p ∈ paths t) : p.length ≤ depth t := by
  unfold depth
  generalize paths t = qs at h
  induction qs with
  | nil => cases h
  | cons q qs ih =>
    rw [List.map_cons, List.foldr_cons]
    rcases List.mem_cons.1 h with rfl | h
    · exact Nat.le_max_left _ _
    · exact Nat.le_trans (ih h) (Nat.le_max_right _ _)

section
variable {ε γ : Type} {missing deep : ε} {order : List (List α) → Except ε (List (List α))}
  {combine : List α → β → List γ → Except ε γ}

theorem WellFormed.child {b : Branch α β} (h : WellFormed t) (hb : branchAt t p = some b) {c : List α} (hc : c ∈ b.children) :
    c ∈ paths t ∧ c.length = p.length + 1 ∧ p <+: c := by
  obtain ⟨hmem, hne, hdrop⟩ := (h.mem_children p b hb c).1 hc
  have hlen := congrArg List.length hdrop
  have hpos := List.length_pos_iff.2 hne
  rw [List.length_dropLast] at hlen
  refine ⟨hmem, by omega, ?_⟩
  rw [← hdrop]
  exact List.dropLast_prefix c

/-- A tree has the prefixes of its paths. -/
theorem WellFormed.prefix_mem (h : WellFormed t) (hq : q ∈ paths t) (hp : p <+: q) : p ∈ paths t := by
  obtain ⟨r, rfl⟩ := hp
  induction r using List.reverseRecOn with
  | nil => rwa [List.append_nil] at hq
  | append_singleton r x ih =>
    have hparents := h.parents _ hq
    rw [← List.append_assoc, List.dropLast_concat] at hparents
    exact ih hparents

/-- What lies below a path is below one of its children. -/
theorem WellFormed.below_iff {b : Branch α β} (h : WellFormed t) (hb : branchAt t p = some b) (hq : q ∈ paths t) :
    p <+: q ↔ q = p ∨ ∃ c ∈ b.children, c <+: q := by
  constructor
  · intro hpq
    by_cases heq : q = p
    · exact .inl heq
    have hle := hpq.length_le
    have hlt : p.length < q.length := by
      by_contra hge
      exact heq (hpq.eq_of_length (by omega)).symm
    have hchild : (q.take (p.length + 1)).length = p.length + 1 := by
      rw [List.length_take]
      omega
    refine .inr ⟨q.take (p.length + 1), (h.mem_children p b hb _).2 ⟨h.prefix_mem hq (List.take_prefix _ _), ?_, ?_⟩,
      List.take_prefix _ _⟩
    · intro hnil
      rw [hnil] at hchild
      cases hchild
    · rw [dropLast_take (by omega)]
      exact (List.prefix_iff_eq_take.1 hpq).symm
  · rintro (rfl | ⟨c, hc, hcq⟩)
    · exact List.prefix_refl _
    · exact (h.child hb hc).2.2.trans hcq

/-- Enough fuel and an order for each list of children make a result. -/
theorem resolve_ok (h : WellFormed t) (hcombine : ∀ p ∈ paths t, ∀ v gs, Ok (combine p v gs))
    (horder : ∀ p b, branchAt t p = some b → ∃ cs, order b.children = .ok cs ∧ cs.Perm b.children)
    {fuel : Nat} (hp : p ∈ paths t) (hfuel : depth t < p.length + fuel) :
    Ok (resolve missing deep order combine t fuel p) := by
  induction fuel generalizing p with
  | zero =>
    have hle := length_le_depth hp
    omega
  | succ fuel ih =>
    obtain ⟨b, hb⟩ := mem_paths.1 hp
    obtain ⟨cs, hcs, hperm⟩ := horder p b hb
    unfold resolve
    rw [hb]
    dsimp only
    rw [hcs, ok_bind_ok]
    refine (ok_bind_of_total fun gs => (ok_bind_of_total fun _ => ok_pure _).2 (hcombine p hp _ _)).2 (ok_mapM.2 fun c hc => ?_)
    obtain ⟨hmem, hlen, -⟩ := h.child hb (hperm.mem_iff.1 hc)
    exact ih hmem (by omega)

/-- A result is the value of a branch and the values of the branches below it, each once. -/
def Resolved (t : Tree α β) (val : List α → γ) (p : List α) (r : γ × List (List α × γ)) : Prop :=
  r.1 = val p ∧ (r.2.map Prod.fst).Nodup ∧ ∀ q g, (q, g) ∈ r.2 ↔ q ∈ paths t ∧ p <+: q ∧ g = val q

omit [DecidableEq α] in
/-- The results of children that are as deep as each other do not meet. -/
theorem resolved_children {val : List α → γ} {cs : List (List α)} {below : List (γ × List (List α × γ))}
    (h : List.Forall₂ (Resolved t val) cs below) (hnodup : cs.Nodup) (n : Nat) (hlen : ∀ c ∈ cs, c.length = n) :
    ((below.flatMap Prod.snd).map Prod.fst).Nodup ∧
      ∀ q g, (q, g) ∈ below.flatMap Prod.snd ↔ q ∈ paths t ∧ ∃ c ∈ cs, c <+: q ∧ g = val q := by
  induction h with
  | nil => exact ⟨List.nodup_nil, fun q g => by simp⟩
  | @cons c r cs below hr _ ih =>
    obtain ⟨hfresh, hnodup⟩ := List.nodup_cons.1 hnodup
    obtain ⟨hdistinct, hmem⟩ := ih hnodup fun d hd => hlen d (List.mem_cons_of_mem _ hd)
    obtain ⟨-, hown, hownmem⟩ := hr
    refine ⟨?_, fun q g => ?_⟩
    · rw [List.flatMap_cons, List.map_append]
      refine List.nodup_append'.2 ⟨hown, hdistinct, fun q hq hq' => ?_⟩
      obtain ⟨⟨q, g⟩, hin, rfl⟩ := List.mem_map.1 hq
      obtain ⟨⟨q', g'⟩, hin', heq⟩ := List.mem_map.1 hq'
      dsimp only at heq
      subst heq
      obtain ⟨-, hcq, -⟩ := (hownmem q' g).1 hin
      obtain ⟨-, d, hd, hdq, -⟩ := (hmem q' g').1 hin'
      have hlength := (hlen c List.mem_cons_self).trans (hlen d (List.mem_cons_of_mem _ hd)).symm
      exact hfresh ((List.prefix_of_prefix_length_le hcq hdq (Nat.le_of_eq hlength)).eq_of_length hlength ▸ hd)
    · rw [List.flatMap_cons, List.mem_append, hownmem, hmem]
      simp only [List.mem_cons, exists_eq_or_imp, and_or_left]

/-- The result is the value of the branch, and the values of all the branches below it, where
every branch has the value that its children's give it. -/
theorem resolve_spec (h : WellFormed t)
    (horder : ∀ p b (cs : List (List α)), branchAt t p = some b → order b.children = .ok cs → cs.Perm b.children)
    {val : List α → γ}
    (hval : ∀ p b (cs : List (List α)), branchAt t p = some b → cs.Perm b.children →
      ∀ g, combine p b.value (cs.map val) = .ok g → g = val p)
    {fuel : Nat} {r : γ × List (List α × γ)} (hr : resolve missing deep order combine t fuel p = .ok r) :
    Resolved t val p r := by
  induction fuel generalizing p r with
  | zero => cases hr
  | succ fuel ih =>
    unfold resolve at hr
    cases hb : branchAt t p with
    | none =>
      rw [hb] at hr
      cases hr
    | some b =>
      rw [hb] at hr
      dsimp only at hr
      obtain ⟨cs, hcs, hr⟩ := bind_eq_ok.1 hr
      obtain ⟨below, hbelow, hr⟩ := bind_eq_ok.1 hr
      obtain ⟨value, hcombined, hr⟩ := bind_eq_ok.1 hr
      cases hr
      have hperm := horder p b cs hb hcs
      have hnodup : cs.Nodup := hperm.nodup_iff.2 (h.children_nodup p b hb)
      have hchild : ∀ c ∈ cs, c ∈ paths t ∧ c.length = p.length + 1 ∧ p <+: c :=
        fun c hc => h.child hb (hperm.mem_iff.1 hc)
      have hresolved : List.Forall₂ (Resolved t val) cs below :=
        (mapM_eq_ok.1 hbelow).imp fun c r hr => ih hr
      have hvalue : value = val p := by
        have hvals : List.Forall₂ (· = ·) (below.map Prod.fst) (cs.map val) :=
          List.forall₂_map_left_iff.2 (List.forall₂_map_right_iff.2 (hresolved.imp fun _ _ h => h.1).flip)
        rw [List.forall₂_eq_eq_eq] at hvals
        rw [hvals] at hcombined
        exact hval p b cs hb hperm value hcombined
      obtain ⟨hdistinct, hmem⟩ := resolved_children hresolved hnodup (p.length + 1) fun c hc => (hchild c hc).2.1
      refine ⟨hvalue, ?_, fun q g => ?_⟩
      · show ((below.flatMap Prod.snd ++ [(p, _)]).map Prod.fst).Nodup
        rw [List.map_append]
        refine List.nodup_append'.2 ⟨hdistinct, List.nodup_singleton _, List.disjoint_singleton.2 fun hin => ?_⟩
        obtain ⟨⟨q, g⟩, hq, rfl⟩ := List.mem_map.1 hin
        obtain ⟨-, c, hc, hcq, -⟩ := (hmem q g).1 hq
        have hle := hcq.length_le
        have hlen := (hchild c hc).2.1
        dsimp only at hlen hle
        omega
      · show (q, g) ∈ below.flatMap Prod.snd ++ [(p, _)] ↔ _
        rw [List.mem_append, hmem, List.mem_singleton, Prod.mk.injEq, hvalue]
        constructor
        · rintro (⟨hq, c, hc, hcq, hg⟩ | ⟨rfl, rfl⟩)
          · exact ⟨hq, (hchild c hc).2.2.trans hcq, hg⟩
          · exact ⟨mem_paths.2 ⟨b, hb⟩, List.prefix_refl _, rfl⟩
        · rintro ⟨hq, hpq, rfl⟩
          rcases (h.below_iff hb hq).1 hpq with rfl | ⟨c, hc, hcq⟩
          · exact .inr ⟨rfl, rfl⟩
          · exact .inl ⟨hq, c, hperm.mem_iff.2 hc, hcq, rfl⟩

end

end

/-! ## Totals -/

section
variable {α M : Type} [DecidableEq α] [AddCommMonoid M] {ws : List (List α × M)} {p : List α}

/-- What is recorded at a path. -/
def ownTotal (ws : List (List α × M)) (p : List α) : M := ((ws.filter fun w => w.1 = p).map Prod.snd).sum

/-- What is recorded at or below a path. -/
def total (ws : List (List α × M)) (p : List α) : M := ((ws.filter fun w => p <+: w.1).map Prod.snd).sum

theorem total_cons (w : List α × M) (q : List α) : total (w :: ws) q = (if q <+: w.1 then w.2 else 0) + total ws q := by
  unfold total
  by_cases h : q <+: w.1
  · rw [List.filter_cons_of_pos (by simpa using h), if_pos h, List.map_cons, List.sum_cons]
  · rw [List.filter_cons_of_neg (by simpa using h), if_neg h, zero_add]

theorem ownTotal_cons (w : List α × M) (q : List α) :
    ownTotal (w :: ws) q = (if w.1 = q then w.2 else 0) + ownTotal ws q := by
  unfold ownTotal
  by_cases h : w.1 = q
  · rw [List.filter_cons_of_pos (by simpa using h), if_pos h, List.map_cons, List.sum_cons]
  · rw [List.filter_cons_of_neg (by simpa using h), if_neg h, zero_add]

/-- A record at or below a path is at it, or below exactly one of its children. -/
theorem weight_split {cs : List (List α)} (hnodup : cs.Nodup) (hcs : ∀ c ∈ cs, c.length = p.length + 1 ∧ p <+: c)
    {home : List α} (hall : p <+: home → home ≠ p → ∃ c ∈ cs, c <+: home) (m : M) :
    (if p <+: home then m else 0) = (if home = p then m else 0) + (cs.map fun c => if c <+: home then m else 0).sum := by
  have hzero : ∀ ds : List (List α), (∀ d ∈ ds, ¬ d <+: home) → (ds.map fun c => if c <+: home then m else 0).sum = 0 := by
    intro ds hds
    rw [List.map_congr_left fun d hd => if_neg (hds d hd)]
    simp
  by_cases heq : home = p
  · subst heq
    rw [if_pos (List.prefix_refl _), if_pos rfl, hzero, add_zero]
    intro c hc hpre
    have hle := hpre.length_le
    have hlen := (hcs c hc).1
    omega
  rw [if_neg heq, zero_add]
  by_cases hp : p <+: home
  · rw [if_pos hp]
    obtain ⟨c, hc, hch⟩ := hall hp heq
    obtain ⟨front, back, rfl⟩ := List.append_of_mem hc
    obtain ⟨-, hback, hdisjoint⟩ := List.nodup_append'.1 hnodup
    have hother : ∀ d ∈ front ++ c :: back, d <+: home → d = c := by
      intro d hd hdh
      have hlen := (hcs d hd).1.trans (hcs c hc).1.symm
      exact (List.prefix_of_prefix_length_le hdh hch (Nat.le_of_eq hlen)).eq_of_length hlen
    rw [List.map_append, List.map_cons, List.sum_append, List.sum_cons, if_pos hch, hzero front, hzero back]
    · simp
    · intro d hd hdh
      have hdc := hother d (List.mem_append_right _ (List.mem_cons_of_mem _ hd)) hdh
      exact (List.nodup_cons.1 hback).1 (hdc ▸ hd)
    · intro d hd hdh
      have hdc := hother d (List.mem_append_left _ hd) hdh
      exact hdisjoint hd (hdc ▸ List.mem_cons_self)
  · rw [if_neg hp, hzero]
    intro c hc hch
    exact hp ((hcs c hc).2.trans hch)

/-- The total at or below a path is its own and its children's. -/
theorem total_eq {cs : List (List α)} (hnodup : cs.Nodup) (hcs : ∀ c ∈ cs, c.length = p.length + 1 ∧ p <+: c)
    (hall : ∀ w ∈ ws, p <+: w.1 → w.1 ≠ p → ∃ c ∈ cs, c <+: w.1) :
    total ws p = ownTotal ws p + (cs.map (total ws)).sum := by
  induction ws with
  | nil =>
    have hnone : ∀ q : List α, total ([] : List (List α × M)) q = 0 := fun _ => rfl
    rw [List.map_congr_left fun c _ => hnone c, hnone]
    simp [ownTotal]
  | cons w ws ih =>
    have hsplit := weight_split hnodup hcs (hall w List.mem_cons_self) w.2
    have hrest := ih fun v hv => hall v (List.mem_cons_of_mem _ hv)
    rw [total_cons, ownTotal_cons, hsplit, hrest, List.map_congr_left fun c _ => total_cons w c, List.sum_map_add]
    abel

end

end Py.PathTree
