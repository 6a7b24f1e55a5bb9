import Steward.Py.Text

/-!
# Association lists

Python dictionaries with string keys, in insertion order: `lookup`, the key
tests the validators make, and records with a fixed set of keys.
-/

namespace Py

/-- The entry of an association list. -/
def lookup {α : Type} : List (Text × α) → Text → Option α
  | [], _ => .none
  | (k', v) :: fs, k => if k' = k then some v else lookup fs k

def keys {α : Type} (fs : List (Text × α)) : List Text := fs.map Prod.fst

section lookup
variable {α β : Type}

@[simp] theorem lookup_nil (k : Text) : lookup ([] : List (Text × α)) k = none := rfl

theorem lookup_cons (k' k : Text) (v : α) (fs : List (Text × α)) :
    lookup ((k', v) :: fs) k = if k' = k then some v else lookup fs k := rfl

theorem mem_of_lookup {fs : List (Text × α)} {k : Text} {v : α} (h : lookup fs k = some v) :
    (k, v) ∈ fs := by
  induction fs with
  | nil => cases h
  | cons f fs ih =>
    rw [lookup_cons] at h
    split_ifs at h with hk
    · cases h; subst hk; exact List.mem_cons_self
    · exact List.mem_cons_of_mem _ (ih h)

theorem lookup_of_mem {fs : List (Text × α)} (hnd : (keys fs).Nodup) {k : Text} {v : α}
    (h : (k, v) ∈ fs) : lookup fs k = some v := by
  induction fs with
  | nil => cases h
  | cons f fs ih =>
    rw [keys, List.map_cons, List.nodup_cons] at hnd
    rw [lookup_cons]
    rcases List.mem_cons.1 h with rfl | h
    · exact if_pos rfl
    · rw [if_neg, ih hnd.2 h]
      intro hk
      exact hnd.1 (List.mem_map.2 ⟨(k, v), h, hk.symm⟩)

theorem lookup_isSome_iff {fs : List (Text × α)} {k : Text} :
    (lookup fs k).isSome = true ↔ k ∈ keys fs := by
  induction fs with
  | nil => simp [keys]
  | cons f fs ih =>
    rw [lookup_cons]
    split_ifs with h
    · simp [keys, h]
    · rw [ih]; simp [keys, Ne.symm h]

theorem lookup_eq_none_iff {fs : List (Text × α)} {k : Text} :
    lookup fs k = none ↔ k ∉ keys fs := by
  rw [← lookup_isSome_iff]; cases lookup fs k <;> simp

theorem lookup_map (g : α → β) (fs : List (Text × α)) (k : Text) :
    lookup (fs.map fun f => (f.1, g f.2)) k = (lookup fs k).map g := by
  induction fs with
  | nil => rfl
  | cons f fs ih => rw [List.map_cons, lookup_cons, lookup_cons, ih]; split_ifs <;> rfl

/-- Association lists with the same distinct keys and entries look the same. -/
theorem lookup_perm {fs gs : List (Text × α)} (h : fs.Perm gs) (hnd : (keys fs).Nodup) (k : Text) :
    lookup fs k = lookup gs k := by
  have hnd' : (keys gs).Nodup := (h.map _).nodup_iff.1 hnd
  cases hg : lookup gs k with
  | some v => exact lookup_of_mem hnd (h.mem_iff.2 (mem_of_lookup hg))
  | none =>
    rw [lookup_eq_none_iff] at hg ⊢
    exact fun hk => hg ((h.map _).mem_iff.1 hk)

/-- `d.pop(k, None)` for a tuple of keys. -/
def without (ks : List Text) (fs : List (Text × α)) : List (Text × α) := fs.filter fun f => f.1 ∉ ks

theorem without_sublist (ks : List Text) (fs : List (Text × α)) : (without ks fs).Sublist fs :=
  List.filter_sublist

theorem lookup_without {ks : List Text} {k : Text} (h : k ∉ ks) (fs : List (Text × α)) :
    lookup (without ks fs) k = lookup fs k := by
  induction fs with
  | nil => rfl
  | cons f fs ih =>
    rw [without] at ih ⊢
    rw [List.filter_cons, lookup_cons]
    split_ifs with hf hk hk
    · rw [lookup_cons, if_pos hk]
    · rw [lookup_cons, if_neg hk, ih]
    · rw [hk] at hf
      exact absurd h (by simpa using hf)
    · exact ih

theorem keys_without_nodup {ks : List Text} {fs : List (Text × α)} (h : (keys fs).Nodup) :
    (keys (without ks fs)).Nodup := h.sublist ((without_sublist ks fs).map _)

end lookup

/-! ## Objects with a fixed set of keys -/

/-- `set(d) == {…}` -/
def hasKeys {α : Type} (ks : List Text) (fs : List (Text × α)) : Bool :=
  (keys fs).all (· ∈ ks) && ks.all (· ∈ keys fs)

theorem hasKeys_iff {α : Type} {ks : List Text} {fs : List (Text × α)} :
    hasKeys ks fs = true ↔ ∀ k, k ∈ keys fs ↔ k ∈ ks := by
  simp only [hasKeys, Bool.and_eq_true, List.all_eq_true, decide_eq_true_eq]
  exact ⟨fun h k => ⟨h.1 k, h.2 k⟩, fun h => ⟨fun k => (h k).1, fun k => (h k).2⟩⟩

theorem lookup_of_hasKeys {α : Type} {ks : List Text} {fs : List (Text × α)}
    (h : hasKeys ks fs = true) {k : Text} (hk : k ∈ ks) : ∃ v, lookup fs k = some v :=
  Option.isSome_iff_exists.1 (lookup_isSome_iff.2 ((hasKeys_iff.1 h k).2 hk))

/-- The record with field `f a` under the name of each `a`. -/
def record {α β : Type} (name : α → Text) (as : List α) (f : α → β) : List (Text × β) :=
  as.map fun a => (name a, f a)

theorem lookup_record {α β : Type} {name : α → Text} {as : List α} (f : α → β)
    (hinj : ∀ a ∈ as, ∀ b ∈ as, name a = name b → a = b) {a : α} (ha : a ∈ as) :
    lookup (record name as f) (name a) = some (f a) := by
  induction as with
  | nil => cases ha
  | cons b as ih =>
    rw [record, List.map_cons, lookup_cons]
    split_ifs with hb
    · rw [hinj b List.mem_cons_self a ha hb]
    · rcases List.mem_cons.1 ha with rfl | ha
      · exact absurd rfl hb
      · exact ih (fun x hx y hy => hinj x (List.mem_cons_of_mem _ hx) y (List.mem_cons_of_mem _ hy))
          ha

@[simp] theorem keys_record {α β : Type} (name : α → Text) (as : List α) (f : α → β) :
    keys (record name as f) = as.map name := by simp [keys, record, Function.comp_def]

end Py
