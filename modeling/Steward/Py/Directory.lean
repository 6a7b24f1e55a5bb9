import Steward.Py.Assoc

/-!
# Directories

A directory maps names to objects; it is kept as its listing in name order
(`sorted(path.iterdir())`), so two equal listings are equal directories.
-/

namespace Py

structure Directory (α : Type) where
  listing : List (Text × α)
  sorted : (listing.map Prod.fst).Pairwise (· < ·)

namespace Directory

variable {α : Type}

def empty : Directory α := ⟨[], .nil⟩

def find (d : Directory α) (n : Text) : Option α := lookup d.listing n

theorem names_nodup (d : Directory α) : (keys d.listing).Nodup := d.sorted.imp fun h => ne_of_lt h

theorem find_eq_some {d : Directory α} {n : Text} {a : α} :
    d.find n = some a ↔ (n, a) ∈ d.listing := ⟨mem_of_lookup, lookup_of_mem d.names_nodup⟩

theorem find_eq_none {d : Directory α} {n : Text} : d.find n = none ↔ n ∉ keys d.listing :=
  lookup_eq_none_iff

/-- Insertion into a listing; an existing name is replaced. -/
def put (n : Text) (a : α) : List (Text × α) → List (Text × α)
  | [] => [(n, a)]
  | f :: fs => if n < f.1 then (n, a) :: f :: fs else if n = f.1 then (n, a) :: fs else f :: put n a fs

attribute [local simp] put

theorem mem_put {n : Text} {a : α} {fs : List (Text × α)} (hs : (fs.map Prod.fst).Pairwise (· < ·))
    {f : Text × α} : f ∈ put n a fs ↔ f = (n, a) ∨ f ∈ fs ∧ f.1 ≠ n := by
  induction fs with
  | nil => simp [put]
  | cons g gs ih =>
    rw [List.map_cons, List.pairwise_cons] at hs
    have hgt {f : Text × α} (hf : f ∈ gs) : g.1 < f.1 := hs.1 _ (List.mem_map.2 ⟨f, hf, rfl⟩)
    unfold put
    split_ifs with h1 h2
    · have hne : ∀ f ∈ g :: gs, f.1 ≠ n := by
        intro f hf
        rcases List.mem_cons.1 hf with rfl | hf
        · exact (ne_of_lt h1).symm
        · exact (ne_of_lt (h1.trans (hgt hf))).symm
      rw [List.mem_cons]
      exact or_congr_right ⟨fun hf => ⟨hf, hne f hf⟩, And.left⟩
    · have hne : ∀ f ∈ gs, f.1 ≠ n := fun f hf => h2 ▸ (ne_of_lt (hgt hf)).symm
      rw [List.mem_cons, List.mem_cons]
      refine or_congr_right ⟨fun hf => ⟨.inr hf, hne f hf⟩, ?_⟩
      rintro ⟨rfl | hf, hfn⟩
      · exact absurd h2.symm hfn
      · exact hf
    · rw [List.mem_cons, ih hs.2, List.mem_cons]
      constructor
      · rintro (rfl | rfl | ⟨hf, hn⟩)
        · exact .inr ⟨.inl rfl, fun h => h2 h.symm⟩
        · exact .inl rfl
        · exact .inr ⟨.inr hf, hn⟩
      · rintro (rfl | ⟨rfl | hf, hn⟩)
        · exact .inr (.inl rfl)
        · exact .inl rfl
        · exact .inr (.inr ⟨hf, hn⟩)

theorem sorted_put {n : Text} {a : α} {fs : List (Text × α)}
    (hs : (fs.map Prod.fst).Pairwise (· < ·)) : ((put n a fs).map Prod.fst).Pairwise (· < ·) := by
  induction fs with
  | nil => simp [put]
  | cons g gs ih =>
    have hs' := hs
    rw [List.map_cons, List.pairwise_cons] at hs
    unfold put
    split_ifs with h1 h2
    · rw [List.map_cons, List.pairwise_cons]
      refine ⟨fun m hm => ?_, hs'⟩
      rcases List.mem_cons.1 hm with rfl | hm
      · exact h1
      · exact h1.trans (hs.1 m hm)
    · subst h2; exact hs'
    · rw [List.map_cons, List.pairwise_cons]
      refine ⟨fun m hm => ?_, ih hs.2⟩
      obtain ⟨f, hf, rfl⟩ := List.mem_map.1 hm
      rcases (mem_put hs.2).1 hf with rfl | ⟨hf, -⟩
      · exact lt_of_le_of_ne (not_lt.1 h1) (Ne.symm h2)
      · exact hs.1 _ (List.mem_map.2 ⟨f, hf, rfl⟩)

theorem put_perm {n : Text} (a : α) {fs : List (Text × α)} (h : n ∉ keys fs) :
    (put n a fs).Perm ((n, a) :: fs) := by
  induction fs with
  | nil => exact .refl _
  | cons f fs ih =>
    simp only [keys, List.map_cons, List.mem_cons, not_or] at h
    rw [put, if_neg h.1]
    split_ifs
    · exact .refl _
    · exact ((ih h.2).cons f).trans (.swap _ _ _)

def insert (d : Directory α) (n : Text) (a : α) : Directory α := ⟨put n a d.listing, sorted_put d.sorted⟩

theorem mem_insert {d : Directory α} {n : Text} {a : α} {f : Text × α} :
    f ∈ (d.insert n a).listing ↔ f = (n, a) ∨ f ∈ d.listing ∧ f.1 ≠ n := mem_put d.sorted

@[simp] theorem find_insert_self (d : Directory α) (n : Text) (a : α) : (d.insert n a).find n = some a :=
  find_eq_some.2 (mem_insert.2 (.inl rfl))

theorem find_insert_of_ne (d : Directory α) {m n : Text} (h : m ≠ n) (a : α) :
    (d.insert n a).find m = d.find m := by
  apply Option.ext
  intro b
  rw [find_eq_some, find_eq_some, mem_insert]
  exact ⟨fun hf => hf.elim (fun he => absurd (congrArg Prod.fst he) h) And.left, fun hf => .inr ⟨hf, h⟩⟩

end Directory

end Py
