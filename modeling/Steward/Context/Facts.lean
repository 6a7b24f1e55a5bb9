import Steward.Evidence.Canonical
import Steward.Py.Grouping

/-!
# Frozen facts

The values of the frozen models as `machine_value` converts them, and their
canonical order. Facts `Agree` when their canonical bytes are the same; facts
that agree have attributes that agree, and what is built alike of facts that
agree agrees. Sorting leaves no trace of the order before
(`agree_sortedFacts`).
-/

namespace Steward.Context

open Py

inductive Fact where
  | none
  | str (s : Text)
  | int (n : Int)
  | bool (b : Bool)
  /-- A member of an enumeration, by its value. -/
  | member (value : Text)
  | tuple (items : List Fact)
  | dataclass (names : List Text) (distinct : names.Nodup) (values : List Fact)

namespace Fact

def isNone : Fact → Bool
  | none => true
  | _ => false

/-- The value of a field by the names of the fields. -/
def attrIn : List Text → List Fact → Text → Fact
  | [], _, _ => none
  | _ :: _, [], _ => none
  | n :: ns, v :: vs, k => if n = k then v else attrIn ns vs k

/-- `getattr(value, name)` -/
def attr : Fact → Text → Fact
  | dataclass names _ values, k => attrIn names values k
  | _, _ => none

def items : Fact → List Fact
  | tuple xs => xs
  | _ => []

section
variable (F : Type)

mutual
/-- `machine_value`: a field that is `None` is left out. -/
def machineValue : Fact → Value F
  | none => .none
  | str s => .str s
  | int n => .int n
  | bool b => .bool b
  | member value => .str value
  | tuple xs => .list (machineValues xs)
  | dataclass names _ values => .dict (machineFields names values)
def machineValues : List Fact → List (Value F)
  | [] => []
  | x :: xs => machineValue x :: machineValues xs
def machineFields : List Text → List Fact → List (Text × Value F)
  | [], _ => []
  | _ :: _, [] => []
  | n :: ns, v :: vs => if v.isNone then machineFields ns vs else (n, machineValue v) :: machineFields ns vs
end

end

section
variable {F : Type}

theorem machineValues_eq (xs : List Fact) : machineValues F xs = xs.map (machineValue F) := by
  induction xs with
  | nil => rw [machineValues]; rfl
  | cons x xs ih => rw [machineValues, ih]; rfl

theorem machineValue_tuple (xs : List Fact) : machineValue F (tuple xs) = .list (xs.map (machineValue F)) := by
  rw [machineValue, machineValues_eq]

theorem keys_machineFields_sublist (names : List Text) (values : List Fact) :
    (keys (machineFields F names values)).Sublist names := by
  induction names generalizing values with
  | nil => rw [machineFields]; exact List.nil_sublist _
  | cons n ns ih =>
    cases values with
    | nil => rw [machineFields]; exact List.nil_sublist _
    | cons v vs =>
      rw [machineFields]
      split_ifs
      · exact (ih vs).cons n
      · exact (ih vs).cons_cons n

theorem lookup_machineFields {names : List Text} (hnames : names.Nodup) (values : List Fact) (k : Text) :
    lookup (machineFields F names values) k =
      if (attrIn names values k).isNone then Option.none else some (machineValue F (attrIn names values k)) := by
  induction names generalizing values with
  | nil => rw [machineFields, attrIn]; rfl
  | cons n ns ih =>
    cases values with
    | nil => rw [machineFields, attrIn]; rfl
    | cons v vs =>
      obtain ⟨hn, hns⟩ := List.nodup_cons.1 hnames
      have hskip : n = k → lookup (machineFields F ns vs) k = Option.none := fun h => by
        refine lookup_eq_none_iff.2 fun hk => hn ?_
        rw [h]
        exact (keys_machineFields_sublist ns vs).subset hk
      rw [machineFields, attrIn]
      by_cases hv : v.isNone = true <;> by_cases hk : n = k
      · rw [if_pos hv, if_pos hk, if_pos hv, hskip hk]
      · rw [if_pos hv, if_neg hk, ih hns]
      · rw [if_neg hv, if_pos hk, if_neg hv, lookup_cons, if_pos hk]
      · rw [if_neg hv, if_neg hk, lookup_cons, if_neg hk, ih hns]

mutual
theorem wf_machineValue : ∀ x : Fact, (machineValue F x).wf = true
  | none | str _ | int _ | bool _ | member _ => by rw [machineValue]; rfl
  | tuple xs => by
    rw [machineValue]
    exact Value.wf_list.2 (wf_machineValues xs)
  | dataclass names distinct values => by
    rw [machineValue]
    exact Value.wf_dict.2 ⟨distinct.sublist (keys_machineFields_sublist names values), wf_machineFields names values⟩
theorem wf_machineValues : ∀ xs : List Fact, ∀ v ∈ machineValues F xs, v.wf = true
  | [] => by simp [machineValues]
  | x :: xs => by
    rw [machineValues]
    exact List.forall_mem_cons.2 ⟨wf_machineValue x, wf_machineValues xs⟩
theorem wf_machineFields : ∀ (names : List Text) (values : List Fact), ∀ f ∈ machineFields F names values, f.2.wf = true
  | n :: ns, v :: vs => by
    rw [machineFields]
    split_ifs
    · exact wf_machineFields ns vs
    · exact List.forall_mem_cons.2 ⟨wf_machineValue v, wf_machineFields ns vs⟩
  | [], _ => by simp [machineFields]
  | _ :: _, [] => by simp [machineFields]
end

end

/-! ## Agreement -/

section
variable (F : Type)

/-- The machine values are the same up to the order of keys. -/
def Agree (x y : Fact) : Prop := (machineValue F x).sortKeys = (machineValue F y).sortKeys

end

section
variable {F : Type} {x y : Fact}

theorem Agree.refl (x : Fact) : Agree F x x := rfl

theorem machineValue_eq_none : machineValue F x = .none ↔ x.isNone = true := by
  cases x <;> simp [machineValue, isNone]

theorem sortKeys_eq_none {v : Value F} : v.sortKeys = .none ↔ v = .none := by
  cases v <;> simp [Value.sortKeys]

theorem Agree.isNone (h : Agree F x y) : x.isNone = y.isNone := by
  rw [Bool.eq_iff_iff, ← machineValue_eq_none (F := F), ← machineValue_eq_none (F := F), ← sortKeys_eq_none, h,
    sortKeys_eq_none]

theorem Agree.attr (h : Agree F x y) (k : Text) : Agree F (x.attr k) (y.attr k) := by
  unfold Agree at h
  cases x with
  | dataclass names distinct values =>
    cases y with
    | dataclass names' distinct' values' =>
      rw [machineValue, machineValue] at h
      have hkeys {ns : List Text} (hns : ns.Nodup) (vs : List Fact) : (keys (machineFields F ns vs)).Nodup :=
        hns.sublist (keys_machineFields_sublist ns vs)
      have hlookup := lookup_of_sortKeys_eq (hkeys distinct values) (hkeys distinct' values') h k
      rw [lookup_machineFields distinct, lookup_machineFields distinct'] at hlookup
      change (machineValue F (attrIn names values k)).sortKeys = (machineValue F (attrIn names' values' k)).sortKeys
      split_ifs at hlookup with hv hv'
      · rw [machineValue_eq_none.2 hv, machineValue_eq_none.2 hv']
      · cases hlookup
      · cases hlookup
      · exact Option.some.inj hlookup
    | _ => simp [machineValue, Value.sortKeys] at h
  | _ =>
    cases y with
    | dataclass names' distinct' values' => simp [machineValue, Value.sortKeys] at h
    | _ => rfl

theorem Agree.items (h : Agree F x y) : List.Forall₂ (Agree F) x.items y.items := by
  unfold Agree at h
  cases x with
  | tuple xs =>
    cases y with
    | tuple ys =>
      rw [machineValue_tuple, machineValue_tuple, Value.sortKeys_list, Value.sortKeys_list, Value.list.injEq,
        List.map_map, List.map_map] at h
      have hsame : List.Forall₂ Eq (xs.map (Value.sortKeys ∘ machineValue F)) (ys.map (Value.sortKeys ∘ machineValue F)) := by
        rw [h]
        exact List.forall₂_refl _
      rw [List.forall₂_map_left_iff, List.forall₂_map_right_iff] at hsame
      exact hsame
    | _ => simp [machineValue, Value.sortKeys] at h
  | _ =>
    cases y with
    | tuple ys => simp [machineValue, Value.sortKeys] at h
    | _ => exact .nil

theorem agree_tuple {xs ys : List Fact} (h : List.Forall₂ (Agree F) xs ys) : Agree F (tuple xs) (tuple ys) := by
  rw [Agree, machineValue_tuple, machineValue_tuple, Value.sortKeys_list, Value.sortKeys_list, List.map_map,
    List.map_map, Value.list.injEq]
  induction h with
  | nil => rfl
  | cons hxy _ ih =>
    rw [List.map_cons, List.map_cons, ih]
    exact congrArg (· :: _) hxy

theorem map_machineFields {vs ws : List Fact} (h : List.Forall₂ (Agree F) vs ws) (names : List Text) :
    (machineFields F names vs).map (fun f => (f.1, f.2.sortKeys)) =
      (machineFields F names ws).map fun f => (f.1, f.2.sortKeys) := by
  induction h generalizing names with
  | nil => rfl
  | cons hvw _ ih =>
    cases names with
    | nil => rfl
    | cons n ns =>
      rw [machineFields, machineFields, hvw.isNone]
      split_ifs
      · exact ih ns
      · rw [List.map_cons, List.map_cons, ih ns, hvw]

theorem agree_dataclass {names : List Text} (distinct : names.Nodup) {vs ws : List Fact}
    (h : List.Forall₂ (Agree F) vs ws) : Agree F (dataclass names distinct vs) (dataclass names distinct ws) := by
  rw [Agree, machineValue, machineValue, Value.sortKeys_dict, Value.sortKeys_dict, map_machineFields h]

end

/-! ## The canonical order -/

section
variable (F : Type) [Sqlite.SqliteFloat F]

/-- `_canonical_key` of a fact that has one. -/
def canonicalKey (x : Fact) : List Byte := Text.utf8 (canonicalText (machineValue F x))

/-- `canonical_json` accepts the fact. -/
def canonical (x : Fact) : Bool := (machineValue F x).safe

/-- `_sorted` -/
def sortedFacts {α : Type} (fact : α → Fact) (xs : List α) : Result (List α) :=
  if xs.all fun x => canonical F (fact x) then .ok (sortedBy (fun x => canonicalKey F (fact x)) xs)
  else .error (.steward .evidenceError)

end

section
variable {F : Type} [Sqlite.SqliteFloat F] {x y : Fact}

theorem canonical_tuple {xs : List Fact} : Fact.canonical F (tuple xs) = true ↔ ∀ x ∈ xs, Fact.canonical F x = true := by
  rw [Fact.canonical, machineValue_tuple, Value.safe_list]
  exact List.forall_mem_map

/-- The fields are encoded if their names and their values are. -/
theorem safe_machineFields {names : List Text} (hnames : names.all Text.encodable = true) {values : List Fact}
    (hvalues : ∀ v ∈ values, Fact.canonical F v = true) : (Value.dict (machineFields F names values)).safe = true := by
  refine Value.safe_dict.2 ⟨fun k hk =>
    List.all_eq_true.1 hnames k ((keys_machineFields_sublist names values).subset hk), ?_⟩
  clear hnames
  induction names generalizing values with
  | nil => rw [machineFields]; exact List.forall_mem_nil _
  | cons n ns ih =>
    cases values with
    | nil => rw [machineFields]; exact List.forall_mem_nil _
    | cons v vs =>
      obtain ⟨hv, hvs⟩ := List.forall_mem_cons.1 hvalues
      rw [machineFields]
      split_ifs
      · exact ih hvs
      · exact List.forall_mem_cons.2 ⟨hv, ih hvs⟩

theorem canonical_dataclass {names : List Text} (distinct : names.Nodup) (hnames : names.all Text.encodable = true)
    {values : List Fact} (hvalues : ∀ v ∈ values, Fact.canonical F v = true) :
    Fact.canonical F (dataclass names distinct values) = true := by
  rw [Fact.canonical, machineValue]
  exact safe_machineFields hnames hvalues

theorem canonical_attr (h : Fact.canonical F x = true) (k : Text) : Fact.canonical F (x.attr k) = true := by
  cases x with
  | dataclass names distinct values =>
    rw [Fact.canonical, machineValue] at h
    have hlookup := lookup_machineFields (F := F) distinct values k
    change Fact.canonical F (attrIn names values k) = true
    split_ifs at hlookup with hnone
    · rw [Fact.canonical, machineValue_eq_none.2 hnone]
      rfl
    · exact (Value.safe_dict.1 h).2 _ (mem_of_lookup hlookup)
  | _ => rfl

theorem canonical_items (h : Fact.canonical F x = true) : ∀ y ∈ x.items, Fact.canonical F y = true := by
  cases x with
  | tuple xs => exact canonical_tuple.1 h
  | _ => exact List.forall_mem_nil _

theorem agree_of_canonicalKey (hx : canonical F x = true) (hy : canonical F y = true)
    (h : canonicalKey F x = canonicalKey F y) : Agree F x y :=
  sortKeys_eq_of_canonicalText hx (wf_machineValue x) hy (wf_machineValue y) (Text.utf8_injective h)

theorem sortedFacts_eq_ok {α : Type} {fact : α → Fact} {xs ys : List α} : sortedFacts F fact xs = .ok ys ↔
    (∀ x ∈ xs, canonical F (fact x) = true) ∧ ys = sortedBy (fun x => canonicalKey F (fact x)) xs := by
  rw [sortedFacts]
  split_ifs with h <;> rw [List.all_eq_true] at h
  · exact ⟨fun heq => ⟨h, (Except.ok.inj heq).symm⟩, fun heq => heq.2 ▸ rfl⟩
  · exact ⟨fun heq => (nomatch heq), fun heq => absurd heq.1 h⟩

theorem map_sortedBy_of_perm {α κ : Type} [LinearOrder κ] {key : α → κ} {xs ys : List α} (h : xs.Perm ys) :
    (sortedBy key xs).map key = (sortedBy key ys).map key := by
  have hsorted (zs : List α) : ((sortedBy key zs).map key).Pairwise (· ≤ ·) := List.pairwise_map.2 sortedBy_pairwise
  refine List.Perm.eq_of_pairwise (fun _ _ _ _ => le_antisymm) (hsorted xs) (hsorted ys) (List.Perm.map key ?_)
  exact sortedBy_perm.trans (h.trans sortedBy_perm.symm)

theorem forall₂_agree {α : Type} {fact : α → Fact} {xs ys : List α}
    (hxs : ∀ x ∈ xs, canonical F (fact x) = true) (hys : ∀ y ∈ ys, canonical F (fact y) = true)
    (h : xs.map (fun x => canonicalKey F (fact x)) = ys.map fun y => canonicalKey F (fact y)) :
    List.Forall₂ (fun x y => Agree F (fact x) (fact y)) xs ys := by
  induction xs generalizing ys with
  | nil =>
    rw [List.map_nil, eq_comm, List.map_eq_nil_iff] at h
    rw [h]
    exact .nil
  | cons x xs ih =>
    cases ys with
    | nil => cases h
    | cons y ys =>
      obtain ⟨hx, hxs⟩ := List.forall_mem_cons.1 hxs
      obtain ⟨hy, hys⟩ := List.forall_mem_cons.1 hys
      obtain ⟨hkey, hkeys⟩ := List.cons.inj h
      exact .cons (agree_of_canonicalKey hx hy hkey) (ih hxs hys hkeys)

/-- Facts in any order are sorted to lists that agree. -/
theorem agree_sortedFacts {α : Type} {fact : α → Fact} {xs xs' ys : List α} (h : xs.Perm xs')
    (hsorted : sortedFacts F fact xs = .ok ys) : ∃ ys', sortedFacts F fact xs' = .ok ys' ∧
      List.Forall₂ (fun y y' => Agree F (fact y) (fact y')) ys ys' := by
  obtain ⟨hcanonical, rfl⟩ := sortedFacts_eq_ok.1 hsorted
  have hcanonical' : ∀ x ∈ xs', canonical F (fact x) = true := fun x hx => hcanonical x (h.mem_iff.2 hx)
  refine ⟨_, sortedFacts_eq_ok.2 ⟨hcanonical', rfl⟩, forall₂_agree ?_ ?_ (map_sortedBy_of_perm h)⟩
  · exact fun x hx => hcanonical x (mem_sortedBy.1 hx)
  · exact fun x hx => hcanonical' x (mem_sortedBy.1 hx)

end

end Fact

end Steward.Context
