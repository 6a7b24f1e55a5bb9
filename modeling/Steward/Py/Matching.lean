import Mathlib.Data.List.Infix
import Steward.Py.Text

/-!
# Matching from a place on

A matcher gives what can be left of a text after a match that starts where the
text does, the preferred match first: classes, sequences, alternatives and
greedy repetition as a regular expression tries them. `re.search`, `re.split`
and `re.subn` take the preferred matches from left to right. No matcher here
looks at what stands around its match, so that a match stays one in a longer
text (`Extends`); `search_of_mem_split` says that no match is left between two
that were taken.
-/

namespace Py

/-- What can be left of a text after a match at its start. -/
abbrev Matcher := Text → List Text

namespace Matcher

/-- `[..]` -/
def one (p : CodePoint → Bool) : Matcher
  | [] => []
  | c :: s => if p c then [s] else []

/-- `[..]*` -/
def many (p : CodePoint → Bool) : Matcher
  | [] => [[]]
  | c :: s => if p c then many p s ++ [c :: s] else [c :: s]

def seq (m n : Matcher) : Matcher := fun t => (m t).flatMap n

def either (m n : Matcher) : Matcher := fun t => m t ++ n t

/-- `(..)?` -/
def optional (m : Matcher) : Matcher := fun t => m t ++ [t]

/-- `[..]+` -/
def some (p : CodePoint → Bool) : Matcher := seq (one p) (many p)

/-- A literal text, under the comparison of its characters. -/
def literal (same : CodePoint → CodePoint → Bool) : Text → Matcher
  | [] => fun t => [t]
  | c :: s => seq (one (same c)) (literal same s)

def repeated (m : Matcher) : Nat → Matcher
  | 0 => fun t => [t]
  | n + 1 => optional (seq m (repeated m n))

/-- `(..)*` for a matcher that takes a character at least. -/
def star (m : Matcher) : Matcher := fun t => repeated m t.length t

def search (m : Matcher) : Text → Bool
  | [] => !(m []).isEmpty
  | c :: s => !(m (c :: s)).isEmpty || search m s

/-- The stretches between the matches; `skip` characters belong to the last match still. -/
def splitFrom (m : Matcher) : Nat → Text → List Text
  | _, [] => [[]]
  | skip + 1, _ :: s => splitFrom m skip s
  | 0, c :: s =>
    match m (c :: s) with
    | rest :: _ => [] :: splitFrom m (s.length - rest.length) s
    | [] => (splitFrom m 0 s).modifyHead (c :: ·)

attribute [local simp] many literal repeated search splitFrom

/-- `re.split` -/
def split (m : Matcher) (t : Text) : List Text := splitFrom m 0 t

/-- `re.subn` with a replacement that is put in as it is. -/
def subn (m : Matcher) (replacement t : Text) : Text × Nat :=
  (replacement.intercalate (m.split t), (m.split t).length - 1)

/-! ## Matches in a longer text -/

/-- A match at the start of a text is one of every longer text. -/
def Extends (m : Matcher) : Prop := ∀ ⦃t rest : Text⦄, rest ∈ m t → ∀ more, rest ++ more ∈ m (t ++ more)

variable {p : CodePoint → Bool} {m n : Matcher}

theorem extends_one : Extends (one p) := by
  intro t rest h more
  cases t with
  | nil => exact absurd h List.not_mem_nil
  | cons c s =>
    simp only [one] at h
    split_ifs at h with hc
    · rw [List.mem_singleton.1 h, List.cons_append, one, if_pos hc]
      exact List.mem_singleton_self _
    · exact absurd h List.not_mem_nil

theorem self_mem_many : ∀ t, t ∈ many p t
  | [] => List.mem_singleton_self _
  | c :: s => by rw [many]; split_ifs <;> simp

theorem extends_many : Extends (many p) := by
  intro t rest h more
  induction t with
  | nil => rw [List.mem_singleton.1 h]; exact self_mem_many _
  | cons c s ih =>
    rw [many] at h
    split_ifs at h with hc
    · rw [List.cons_append, many, if_pos hc]
      rcases List.mem_append.1 h with h | h
      · exact List.mem_append_left _ (ih h)
      · rw [List.mem_singleton.1 h]
        exact List.mem_append_right _ (List.mem_singleton_self _)
    · rw [List.mem_singleton.1 h]
      exact self_mem_many _

theorem extends_seq (hm : Extends m) (hn : Extends n) : Extends (seq m n) := by
  intro t rest h more
  obtain ⟨middle, hmiddle, hrest⟩ := List.mem_flatMap.1 h
  exact List.mem_flatMap.2 ⟨middle ++ more, hm hmiddle more, hn hrest more⟩

theorem extends_either (hm : Extends m) (hn : Extends n) : Extends (either m n) := by
  intro t rest h more
  rcases List.mem_append.1 h with h | h
  · exact List.mem_append_left _ (hm h more)
  · exact List.mem_append_right _ (hn h more)

theorem extends_optional (hm : Extends m) : Extends (optional m) := by
  intro t rest h more
  rcases List.mem_append.1 h with h | h
  · exact List.mem_append_left _ (hm h more)
  · rw [List.mem_singleton.1 h]
    exact List.mem_append_right _ (List.mem_singleton_self _)

theorem extends_some : Extends (some p) := extends_seq extends_one extends_many

theorem extends_literal {same : CodePoint → CodePoint → Bool} : ∀ s, Extends (literal same s)
  | [] => fun _ _ h _ => by rw [List.mem_singleton.1 h]; exact List.mem_singleton_self _
  | _ :: s => extends_seq extends_one (extends_literal s)

theorem extends_repeated (hm : Extends m) : ∀ k, Extends (repeated m k)
  | 0 => fun _ _ h _ => by rw [List.mem_singleton.1 h]; exact List.mem_singleton_self _
  | k + 1 => extends_optional (extends_seq hm (extends_repeated hm k))

theorem repeated_mono {k : Nat} (l : Nat) {t rest : Text} (h : rest ∈ repeated m k t) : rest ∈ repeated m (k + l) t := by
  induction k generalizing t with
  | zero =>
    rw [List.mem_singleton.1 h]
    cases l with
    | zero => exact List.mem_singleton_self _
    | succ l => rw [Nat.zero_add]; exact List.mem_append_right _ (List.mem_singleton_self _)
  | succ k ih =>
    rw [Nat.add_right_comm]
    rcases List.mem_append.1 h with h | h
    · obtain ⟨middle, hmiddle, hrest⟩ := List.mem_flatMap.1 h
      exact List.mem_append_left _ (List.mem_flatMap.2 ⟨middle, hmiddle, ih hrest⟩)
    · exact List.mem_append_right _ h

theorem extends_star (hm : Extends m) : Extends (star m) := by
  intro t rest h more
  have := repeated_mono more.length (extends_repeated hm t.length h more)
  rwa [← List.length_append] at this

/-! ## Searching and splitting -/

theorem search_iff {t : Text} : search m t = true ↔ ∃ s, s <:+ t ∧ m s ≠ [] := by
  induction t with
  | nil => simp [search]
  | cons c t ih =>
    simp only [search, Bool.or_eq_true, ih, Bool.not_eq_true', List.isEmpty_eq_false_iff, List.suffix_cons_iff]
    constructor
    · rintro (h | ⟨s, hs, h⟩)
      · exact ⟨c :: t, .inl rfl, h⟩
      · exact ⟨s, .inr hs, h⟩
    · rintro ⟨s, rfl | hs, h⟩
      · exact .inl h
      · exact .inr ⟨s, hs, h⟩

theorem search_of_infix (hm : Extends m) {u t : Text} (hu : u <:+: t) (h : search m u = true) : search m t = true := by
  obtain ⟨s, ⟨a, rfl⟩, hs⟩ := search_iff.1 h
  obtain ⟨before, after, rfl⟩ := hu
  obtain ⟨rest, hrest⟩ := List.exists_mem_of_ne_nil _ hs
  refine search_iff.2 ⟨s ++ after, ⟨before ++ a, by simp⟩, ?_⟩
  exact List.ne_nil_of_mem (hm hrest after)

theorem splitFrom_ne_nil (skip : Nat) (t : Text) : splitFrom m skip t ≠ [] := by
  induction skip, t using splitFrom.induct m with
  | case1 => simp [splitFrom]
  | case2 skip c s ih => rwa [splitFrom]
  | case3 c s rest others hmatch => simp [splitFrom, hmatch]
  | case4 c s hnone ih =>
    obtain ⟨head, tail, h⟩ := List.exists_cons_of_ne_nil ih
    simp [splitFrom, hnone, h]

/-- The first stretch is where the text starts. -/
theorem head_splitFrom_prefix (t : Text) : ∀ u ∈ (splitFrom m 0 t).head?, u <+: t := by
  induction t with
  | nil => simp [splitFrom]
  | cons c s ih =>
    obtain ⟨head, tail, h⟩ := List.exists_cons_of_ne_nil (splitFrom_ne_nil (m := m) 0 s)
    simp only [splitFrom]
    split
    · simp
    · rw [h] at ih ⊢
      simpa using ih

/-- No match is left between two that were taken. -/
theorem search_of_mem_splitFrom (hm : Extends m) (hnil : m [] = []) {skip : Nat} {t u : Text}
    (hu : u ∈ splitFrom m skip t) : search m u = false := by
  have hempty : search m [] = false := by simp [search, hnil]
  induction skip, t using splitFrom.induct m generalizing u with
  | case1 => rw [List.mem_singleton.1 hu, hempty]
  | case2 skip c s ih => exact ih (by rwa [splitFrom] at hu)
  | case3 c s rest others hmatch ih =>
    simp only [splitFrom, hmatch] at hu
    rcases List.mem_cons.1 hu with rfl | hu
    · exact hempty
    · exact ih hu
  | case4 c s hnone ih =>
    obtain ⟨head, tail, h⟩ := List.exists_cons_of_ne_nil (splitFrom_ne_nil (m := m) 0 s)
    simp only [splitFrom, hnone, h, List.modifyHead_cons] at hu
    rcases List.mem_cons.1 hu with rfl | hu
    · obtain ⟨after, hafter⟩ := head_splitFrom_prefix (m := m) s head (by simp [h])
      have hstart : m (c :: head) = [] := by
        -- a match at the start of the stretch would be one of the text
        refine List.eq_nil_iff_forall_not_mem.2 fun rest hrest => ?_
        have hlonger := hm hrest after
        rw [List.cons_append, hafter, hnone] at hlonger
        exact List.not_mem_nil hlonger
      have hhead : search m head = false := ih (h ▸ List.mem_cons_self)
      simp [search, hstart, hhead]
    · exact ih (h ▸ List.mem_cons_of_mem _ hu)

theorem search_of_mem_split (hm : Extends m) (hnil : m [] = []) {t u : Text} (hu : u ∈ split m t) :
    search m u = false := search_of_mem_splitFrom hm hnil hu

theorem split_of_search {t : Text} (h : search m t = false) : split m t = [t] := by
  induction t with
  | nil => rfl
  | cons c s ih =>
    rw [search, Bool.or_eq_false_iff, Bool.not_eq_false', List.isEmpty_iff] at h
    have hs : splitFrom m 0 s = [s] := ih h.2
    simp [split, splitFrom, h.1, hs]

theorem subn_of_search {t : Text} (replacement : Text) (h : search m t = false) : subn m replacement t = (t, 0) := by
  simp [subn, split_of_search h]

theorem search_of_length_split {t : Text} (hnil : m [] = []) (h : (split m t).length = 1) : search m t = false := by
  induction t with
  | nil => simp [search, hnil]
  | cons c s ih =>
    have hpos := List.length_pos_of_ne_nil (splitFrom_ne_nil (m := m) (s.length - ((m (c :: s)).headD []).length) s)
    cases hmatch : m (c :: s) with
    | cons rest others =>
      rw [hmatch] at hpos
      simp only [split, splitFrom, hmatch, List.length_cons, List.headD_cons] at h hpos
      omega
    | nil =>
      simp only [split, splitFrom, hmatch, List.length_modifyHead] at h
      simp [search, hmatch, ih h]

/-- Nothing is replaced exactly where there is no match. -/
theorem subn_snd_eq_zero (hnil : m [] = []) {replacement t : Text} :
    (subn m replacement t).2 = 0 ↔ search m t = false := by
  refine ⟨fun h => search_of_length_split hnil ?_, fun h => by rw [subn_of_search _ h]⟩
  have hpos : 0 < (split m t).length := List.length_pos_of_ne_nil (splitFrom_ne_nil 0 t)
  have hcount : (split m t).length - 1 = 0 := h
  omega

end Matcher

end Py
