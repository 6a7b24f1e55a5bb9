import Steward.Py.Value

/-!
# Well-formed and serializable values

`everywhere p v` says `p` holds at every node of `v`. A parsed value is
well-formed (`wf`: no object repeats a key); a value is `safe` when strict
`json.dumps` followed by UTF-8 encoding accepts it. `sortKeys` is the object
order of `sort_keys=True`.
-/

namespace Py

namespace Value

variable {F : Type}

mutual
def everywhere (p : Value F → Bool) : Value F → Bool
  | .list xs => p (.list xs) && everywhereList p xs
  | .dict fs => p (.dict fs) && everywhereFields p fs
  | v => p v
def everywhereList (p : Value F → Bool) : List (Value F) → Bool
  | [] => true
  | x :: xs => everywhere p x && everywhereList p xs
def everywhereFields (p : Value F → Bool) : List (Text × Value F) → Bool
  | [] => true
  | (_, x) :: fs => everywhere p x && everywhereFields p fs
end

section everywhere
variable {p : Value F → Bool}

attribute [local simp] everywhere everywhereList everywhereFields

theorem everywhereList_iff {xs : List (Value F)} :
    everywhereList p xs = true ↔ ∀ x ∈ xs, everywhere p x = true := by
  induction xs with
  | nil => simp [everywhereList]
  | cons x xs ih => simp [everywhereList, ih]

theorem everywhereFields_iff {fs : List (Text × Value F)} :
    everywhereFields p fs = true ↔ ∀ f ∈ fs, everywhere p f.2 = true := by
  induction fs with
  | nil => simp [everywhereFields]
  | cons f fs ih => simp [everywhereFields, ih]

@[simp] theorem everywhere_list {xs : List (Value F)} :
    everywhere p (.list xs) = true ↔ p (.list xs) = true ∧ ∀ x ∈ xs, everywhere p x = true := by
  rw [everywhere, Bool.and_eq_true, everywhereList_iff]

@[simp] theorem everywhere_dict {fs : List (Text × Value F)} :
    everywhere p (.dict fs) = true ↔ p (.dict fs) = true ∧ ∀ f ∈ fs, everywhere p f.2 = true := by
  rw [everywhere, Bool.and_eq_true, everywhereFields_iff]

/-- A member of an object inherits the property. -/
theorem everywhere_lookup {fs : List (Text × Value F)} (h : everywhere p (.dict fs) = true)
    {k : Text} {v : Value F} (hk : lookup fs k = some v) : everywhere p v = true :=
  (everywhere_dict.1 h).2 _ (mem_of_lookup hk)

theorem everywhere_get {fs : List (Text × Value F)} (h : everywhere p (.dict fs) = true)
    (hn : p .none = true) (k : Text) : everywhere p (get fs k) = true := by
  cases hk : lookup fs k with
  | none => simp [get, hk, everywhere, hn]
  | some v => rw [get_of_lookup hk]; exact everywhere_lookup h hk

end everywhere

/-! ## Distinct keys -/

def distinctKeys : Value F → Bool
  | .dict fs => (keys fs).Nodup
  | _ => true

/-- No object of the value repeats a key. -/
def wf (v : Value F) : Bool := everywhere distinctKeys v

theorem wf_list {xs : List (Value F)} : wf (.list xs) = true ↔ ∀ x ∈ xs, wf x = true := by
  simp [wf, distinctKeys]

theorem wf_dict {fs : List (Text × Value F)} :
    wf (.dict fs) = true ↔ (keys fs).Nodup ∧ ∀ f ∈ fs, wf f.2 = true := by
  simp [wf, distinctKeys]

theorem wf_get {fs : List (Text × Value F)} (h : wf (.dict fs) = true) (k : Text) :
    wf (get fs k) = true := everywhere_get h rfl k

theorem wf_getIf {v : Value F} (h : wf v = true) (k : Text) : wf (v.getIf k) = true := by
  cases v <;> first | rfl | exact wf_get h k

/-! ## Equality with itself -/

theorem atomSame_self [PyFloat F] (v : Value F) (hl : v.isList = false) (hd : v.isDict = false) :
    atomSame v v = true := by
  have hint (n : Int) : (Num.int n : Num F).same (.int n) = true := by simp [Num.same]
  cases v with
  | none => rfl
  | bool b => exact hint _
  | int n => exact hint n
  | float x =>
    show (PyFloat.eq x x || (PyFloat.isNan x && PyFloat.isNan x)) = true
    cases h : PyFloat.isNan x with
    | true => simp
    | false => simp [PyFloat.eq_self x h]
  | str s => simp [atomSame]
  | list xs => cases hl
  | dict fs => cases hd

theorem sameList_self [PyFloat F] {xs : List (Value F)} (h : ∀ x ∈ xs, same x x = true) :
    sameList xs xs = true := by
  induction xs with
  | nil => rw [sameList]
  | cons x xs ih =>
    rw [sameList, h x List.mem_cons_self, ih fun y hy => h y (List.mem_cons_of_mem _ hy)]
    rfl

theorem sameDict_self [PyFloat F] {fs gs : List (Text × Value F)}
    (h : ∀ f ∈ fs, lookup gs f.1 = some f.2 ∧ same f.2 f.2 = true) : sameDict fs gs = true := by
  induction fs with
  | nil => rw [sameDict]
  | cons f fs ih =>
    obtain ⟨hl, hs⟩ := h f List.mem_cons_self
    obtain ⟨k, v⟩ := f
    rw [sameDict, hl, ih fun g hg => h g (List.mem_cons_of_mem _ hg)]
    simp [hs]

/-- A container equals itself, NaN members included. -/
theorem same_self [PyFloat F] {v : Value F} (h : wf v = true) : same v v = true := by
  induction v using induct with
  | list xs ih =>
    rw [same]
    exact sameList_self fun x hx => ih x hx (wf_list.1 h x hx)
  | dict fs ih =>
    obtain ⟨hnd, hw⟩ := wf_dict.1 h
    rw [same, decide_eq_true rfl, Bool.true_and]
    exact sameDict_self fun f hf => ⟨lookup_of_mem hnd hf, ih f hf (hw f hf)⟩
  | none => rfl
  | bool b => exact atomSame_self (F := F) (.bool b) rfl rfl
  | int n => exact atomSame_self (F := F) (.int n) rfl rfl
  | float x => exact atomSame_self (.float x) rfl rfl
  | str s => exact atomSame_self (F := F) (.str s) rfl rfl

/-! ## Sorted objects -/

def fieldLe (f g : Text × Value F) : Prop := f.1 ≤ g.1

instance : DecidableRel (fieldLe (F := F)) := fun f g => inferInstanceAs (Decidable (f.1 ≤ g.1))

def sortFields (fs : List (Text × Value F)) : List (Text × Value F) := fs.insertionSort fieldLe

mutual
def sortKeys : Value F → Value F
  | .list xs => .list (sortKeysList xs)
  | .dict fs => .dict (sortFields (sortKeysFields fs))
  | v => v
def sortKeysList : List (Value F) → List (Value F)
  | [] => []
  | x :: xs => sortKeys x :: sortKeysList xs
def sortKeysFields : List (Text × Value F) → List (Text × Value F)
  | [] => []
  | (k, x) :: fs => (k, sortKeys x) :: sortKeysFields fs
end

attribute [local simp] sortKeys sortKeysList sortKeysFields

theorem sortKeysList_eq (xs : List (Value F)) : sortKeysList xs = xs.map sortKeys := by
  induction xs with
  | nil => rfl
  | cons x xs ih => rw [sortKeysList, ih]; rfl

theorem sortKeysFields_eq (fs : List (Text × Value F)) :
    sortKeysFields fs = fs.map fun f => (f.1, sortKeys f.2) := by
  induction fs with
  | nil => rfl
  | cons f fs ih => rw [sortKeysFields, ih]; rfl

theorem sortKeys_list (xs : List (Value F)) : sortKeys (.list xs) = .list (xs.map sortKeys) := by
  rw [sortKeys, sortKeysList_eq]

theorem sortKeys_dict (fs : List (Text × Value F)) :
    sortKeys (.dict fs) = .dict (sortFields (fs.map fun f => (f.1, sortKeys f.2))) := by
  rw [sortKeys, sortKeysFields_eq]

theorem sortFields_perm (fs : List (Text × Value F)) : (sortFields fs).Perm fs :=
  List.perm_insertionSort _ _

theorem sortFields_sorted (fs : List (Text × Value F)) : (sortFields fs).Pairwise fieldLe := by
  have : Std.Total (fieldLe (F := F)) := ⟨fun f g => le_total f.1 g.1⟩
  have : IsTrans _ (fieldLe (F := F)) := ⟨fun f g h => le_trans (α := Text) (a := f.1)⟩
  exact List.pairwise_insertionSort _ _

theorem sortFields_of_sorted {fs : List (Text × Value F)} (h : fs.Pairwise fieldLe) :
    sortFields fs = fs := List.Pairwise.insertionSort_eq h

/-- With distinct keys the sorted order does not depend on the insertion order. -/
theorem sortFields_eq_of_perm {fs gs : List (Text × Value F)} (h : fs.Perm gs)
    (hnd : (keys fs).Nodup) : sortFields fs = sortFields gs := by
  have hp := (sortFields_perm fs).trans (h.trans (sortFields_perm gs).symm)
  have hk : (keys (sortFields fs)).Nodup := ((sortFields_perm fs).map _).nodup_iff.2 hnd
  refine hp.eq_of_pairwise (fun f g hf hg h1 h2 => ?_) (sortFields_sorted fs) (sortFields_sorted gs)
  exact List.inj_on_of_nodup_map hk hf (hp.mem_iff.2 hg) (le_antisymm (α := Text) h1 h2)

theorem keys_map_snd {α β : Type} (g : α → β) (fs : List (Text × α)) :
    keys (fs.map fun f => (f.1, g f.2)) = keys fs := by simp [keys]

theorem keys_sortKeys_perm (fs : List (Text × Value F)) :
    (keys (sortFields (fs.map fun f => (f.1, sortKeys f.2)))).Perm (keys fs) := by
  have h := (sortFields_perm (fs.map fun f => (f.1, sortKeys f.2))).map Prod.fst
  rwa [← keys, ← keys, keys_map_snd] at h

theorem lookup_sortKeys {fs : List (Text × Value F)} (hnd : (keys fs).Nodup) (k : Text) :
    lookup (sortFields (fs.map fun f => (f.1, sortKeys f.2))) k = (lookup fs k).map sortKeys := by
  rw [← lookup_perm (sortFields_perm _).symm (by rw [keys_map_snd]; exact hnd), lookup_map]

/-- A property of single nodes that sorting keeps, it keeps everywhere. -/
theorem everywhere_sortKeys {p : Value F → Bool} (hp : ∀ v, p (sortKeys v) = p v) (v : Value F) :
    everywhere p (sortKeys v) = everywhere p v := by
  induction v using induct with
  | list xs ih =>
    have h := hp (.list xs)
    rw [sortKeys_list] at h
    rw [Bool.eq_iff_iff, sortKeys_list, everywhere_list, everywhere_list, h]
    simp only [List.mem_map, forall_exists_index, and_imp, forall_apply_eq_imp_iff₂]
    exact and_congr_right' (forall₂_congr fun x hx => by rw [ih x hx])
  | dict fs ih =>
    have h := hp (.dict fs)
    rw [sortKeys_dict] at h
    rw [Bool.eq_iff_iff, sortKeys_dict, everywhere_dict, everywhere_dict, h]
    simp only [(sortFields_perm _).mem_iff, List.mem_map, forall_exists_index, and_imp,
      forall_apply_eq_imp_iff₂]
    exact and_congr_right' (forall₂_congr fun f hf => by rw [ih f hf])
  | _ => rfl

theorem wf_sortKeys (v : Value F) : wf (sortKeys v) = wf v := by
  refine everywhere_sortKeys (fun v => ?_) v
  cases v with
  | list xs => rw [sortKeys_list]; rfl
  | dict fs => rw [sortKeys_dict]; simp [distinctKeys, (keys_sortKeys_perm fs).nodup_iff]
  | _ => rfl

theorem sortKeys_sortKeys (v : Value F) : sortKeys (sortKeys v) = sortKeys v := by
  induction v using induct with
  | list xs ih =>
    rw [sortKeys_list, sortKeys_list, List.map_map]
    exact congrArg _ (List.map_congr_left ih)
  | dict fs ih =>
    rw [sortKeys_dict, sortKeys_dict]
    set gs := fs.map fun f => (f.1, sortKeys f.2) with hgs
    have hfix : (sortFields gs).map (fun f => (f.1, sortKeys f.2)) = sortFields gs := by
      refine (List.map_congr_left fun f hf => ?_).trans (List.map_id _)
      obtain ⟨g, hg, rfl⟩ := List.mem_map.1 ((sortFields_perm gs).mem_iff.1 hf)
      simp [ih g hg]
    rw [hfix, sortFields_of_sorted (sortFields_sorted gs)]
  | _ => rfl

variable [PyFloat F]

/-! ## Serializable values -/

def safeNode : Value F → Bool
  | .float x => PyFloat.isFinite x
  | .str s => s.encodable
  | .dict fs => (keys fs).all Text.encodable
  | _ => true

/-- Finite floats and encodable strings throughout. -/
def safe (v : Value F) : Bool := everywhere safeNode v

@[simp] theorem safe_none : safe (.none : Value F) = true := rfl

@[simp] theorem safe_bool (b : Bool) : safe (.bool b : Value F) = true := rfl

@[simp] theorem safe_int (n : Int) : safe (.int n : Value F) = true := rfl

@[simp] theorem safe_str (s : Text) : safe (.str s : Value F) = s.encodable := rfl

/-- `json.dumps(…, allow_nan=False)` accepts the value. -/
def finiteNode : Value F → Bool
  | .float x => PyFloat.isFinite x
  | _ => true

def finite (v : Value F) : Bool := everywhere finiteNode v

theorem safe_list {xs : List (Value F)} : safe (.list xs) = true ↔ ∀ x ∈ xs, safe x = true := by
  simp [safe, safeNode]

theorem safe_dict {fs : List (Text × Value F)} :
    safe (.dict fs) = true ↔
      (∀ k ∈ keys fs, k.encodable = true) ∧ ∀ f ∈ fs, safe f.2 = true := by
  simp [safe, safeNode]

theorem safe_get {fs : List (Text × Value F)} (h : safe (.dict fs) = true) (k : Text) :
    safe (get fs k) = true := everywhere_get h rfl k

theorem safe_without {fs : List (Text × Value F)} (h : safe (.dict fs) = true) (ks : List Text) :
    safe (.dict (without ks fs)) = true := by
  rw [safe_dict] at h ⊢
  have hs := without_sublist ks fs
  exact ⟨fun k hk => h.1 k ((hs.map _).subset hk), fun f hf => h.2 f (hs.subset hf)⟩

theorem safe_sortKeys (v : Value F) : safe (sortKeys v) = safe v := by
  refine everywhere_sortKeys (fun v => ?_) v
  cases v with
  | list xs => rw [sortKeys_list]; rfl
  | dict fs =>
    rw [sortKeys_dict, Bool.eq_iff_iff]
    simp [safeNode, (keys_sortKeys_perm fs).mem_iff]
  | _ => rfl

end Value

/-- What `json.loads` can return. -/
structure Document (F : Type) where
  value : Value F
  wf : value.wf = true

end Py
