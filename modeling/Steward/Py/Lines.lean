import Steward.Py.JsonRoundTrip

/-!
# Lines and code spans

A text as Markdown reads it: its lines, the paragraphs between empty lines, and
the code spans of a line, each of which ends at the next backtick.
-/

namespace Py

namespace Lines

def backtick : CodePoint := ⟨0x60, by decide⟩

/-- A line feed or a carriage return. -/
def isLineEnd (c : CodePoint) : Bool := c = ch '\n' || c = ch '\r'

/-- `"\n".join(ls)` -/
def joinLines (ls : List Text) : Text := [ch '\n'].intercalate ls

def lines (t : Text) : List Text := t.splitOnP isLineEnd

def paragraphs (ls : List Text) : List (List Text) := ls.splitOn []

theorem mem_splitOnP {α : Type} {p : α → Bool} {xs l : List α} (h : l ∈ xs.splitOnP p) :
    ∀ x ∈ l, x ∈ xs ∧ p x = false := by
  induction xs generalizing l with
  | nil =>
    rw [List.splitOnP_nil, List.mem_singleton] at h
    simp [h]
  | cons y ys ih =>
    have hlift {l : List α} (hl : l ∈ ys.splitOnP p) : ∀ x ∈ l, x ∈ y :: ys ∧ p x = false :=
      fun x hx => ⟨List.mem_cons_of_mem _ (ih hl x hx).1, (ih hl x hx).2⟩
    rw [List.splitOnP_cons_eq_if_modifyHead] at h
    split_ifs at h with hy
    · rcases List.mem_cons.1 h with rfl | h
      · exact fun x hx => absurd hx List.not_mem_nil
      · exact hlift h
    · obtain ⟨head, tail, hsplit⟩ := List.exists_cons_of_ne_nil (List.splitOnP_ne_nil p ys)
      rw [hsplit, List.modifyHead_cons] at h
      rw [hsplit] at hlift
      rcases List.mem_cons.1 h with rfl | h
      · intro x hx
        rcases List.mem_cons.1 hx with rfl | hx
        · exact ⟨List.mem_cons_self, Bool.eq_false_iff.2 hy⟩
        · exact hlift List.mem_cons_self x hx
      · exact hlift (List.mem_cons_of_mem _ h)

/-- No line contains the end of one. -/
theorem not_isLineEnd_of_mem_lines {t l : Text} (h : l ∈ lines t) : ∀ c ∈ l, isLineEnd c = false :=
  fun c hc => (mem_splitOnP h c hc).2

theorem mem_of_mem_paragraphs {ls p : List Text} (h : p ∈ paragraphs ls) : ∀ l ∈ p, l ∈ ls := by
  rw [paragraphs, List.splitOn_eq_splitOnP] at h
  exact fun l hl => (mem_splitOnP h l hl).1

theorem lines_joinLines {ls : List Text} (hne : ls ≠ []) (h : ∀ l ∈ ls, ∀ c ∈ l, isLineEnd c = false) :
    lines (joinLines ls) = ls := by
  induction ls with
  | nil => exact absurd rfl hne
  | cons l ls ih =>
    obtain ⟨hl, hls⟩ := List.forall_mem_cons.1 h
    cases ls with
    | nil =>
      rw [joinLines, List.intercalate_singleton, lines]
      exact List.splitOnP_eq_singleton hl
    | cons m ls =>
      have hrest := ih (List.cons_ne_nil _ _) hls
      rw [joinLines, List.intercalate_cons_cons, List.append_assoc, List.singleton_append, lines,
        List.splitOnP_append_cons_of_forall_mem hl _ rfl]
      exact congrArg (l :: ·) hrest

theorem paragraphs_intercalate {ps : List (List Text)} (hne : ps ≠ []) (h : ∀ p ∈ ps, [] ∉ p) :
    paragraphs ([[]].intercalate ps) = ps :=
  List.splitOn_intercalate [] h hne

theorem mem_intercalate_nil {ps : List (List Text)} {l : Text} (h : l ∈ [[]].intercalate ps) :
    l = [] ∨ ∃ p ∈ ps, l ∈ p := by
  induction ps with
  | nil => cases h
  | cons p ps ih =>
    cases ps with
    | nil =>
      rw [List.intercalate_singleton] at h
      exact .inr ⟨p, List.mem_cons_self, h⟩
    | cons q ps =>
      rw [List.intercalate_cons_cons, List.append_assoc] at h
      rcases List.mem_append.1 h with h | h
      · exact .inr ⟨p, List.mem_cons_self, h⟩
      rcases List.mem_append.1 h with h | h
      · exact .inl (List.mem_singleton.1 h)
      · exact (ih h).imp_right fun ⟨q, hq, hl⟩ => ⟨q, List.mem_cons_of_mem _ hq, hl⟩

/-- Paragraphs of one-line, non-empty texts are what their joined text is read as. -/
theorem paragraphs_lines {ps : List (List Text)} (hne : [[]].intercalate ps ≠ [])
    (h : ∀ p ∈ ps, ∀ l ∈ p, l ≠ [] ∧ ∀ c ∈ l, isLineEnd c = false) :
    paragraphs (lines (joinLines ([[]].intercalate ps))) = ps := by
  rw [lines_joinLines hne]
  · refine paragraphs_intercalate (fun hnil => hne (by rw [hnil]; rfl)) fun p hp hmem => ?_
    exact (h p hp [] hmem).1 rfl
  · intro l hl
    rcases mem_intercalate_nil hl with rfl | ⟨p, hp, hmem⟩
    · exact fun c hc => absurd hc List.not_mem_nil
    · exact (h p hp l hmem).2

/-! ## Reading each line -/

theorem mapM_eq_some {α β : Type} {f : α → Option β} {xs : List α} {ys : List β} :
    xs.mapM f = some ys ↔ List.Forall₂ (fun x y => f x = some y) xs ys := by
  induction xs generalizing ys with
  | nil =>
    simp only [List.mapM_nil, List.forall₂_nil_left_iff]
    exact ⟨fun h => (Option.some.inj h).symm, fun h => h ▸ rfl⟩
  | cons x xs ih =>
    simp only [List.mapM_cons, Option.bind_eq_bind, Option.bind_eq_some_iff, ih, List.forall₂_cons_left_iff]
    constructor
    · rintro ⟨y, hy, ys', hys, h⟩
      exact ⟨y, ys', hy, hys, (Option.some.inj h).symm⟩
    · rintro ⟨y, ys', hy, hys, rfl⟩
      exact ⟨y, hy, ys', hys, rfl⟩

theorem exists_of_mem_mapM_some {α β : Type} {f : α → Option β} {xs : List α} {ys : List β}
    (h : xs.mapM f = some ys) {y : β} (hy : y ∈ ys) : ∃ x ∈ xs, f x = some y := by
  rw [mapM_eq_some] at h
  induction h with
  | nil => cases hy
  | cons hx _ ih =>
    rcases List.mem_cons.1 hy with rfl | hy
    · exact ⟨_, List.mem_cons_self, hx⟩
    · exact (ih hy).imp fun _ h => ⟨List.mem_cons_of_mem _ h.1, h.2⟩

/-- Lines that read back one by one read back together. -/
theorem mapM_map_eq_some {α β : Type} {f : β → Option α} {g : α → β} {xs : List α}
    (h : ∀ x ∈ xs, f (g x) = some x) : (xs.map g).mapM f = some xs := by
  rw [mapM_eq_some, List.forall₂_map_left_iff]
  exact List.forall₂_same.2 h

/-! ## Code spans -/

def codeSpan (t : Text) : Text := backtick :: (t ++ [backtick])

/-- The code span at the head, and what follows. -/
def readSpan : Text → Option (Text × Text)
  | [] => none
  | c :: s =>
    if c = backtick then
      match s.dropWhile (· ≠ backtick) with
      | [] => none
      | _ :: rest => some (s.takeWhile (· ≠ backtick), rest)
    else none

theorem readSpan_codeSpan {t : Text} (h : backtick ∉ t) (rest : Text) :
    readSpan (codeSpan t ++ rest) = some (t, rest) := by
  have hpass : ∀ c ∈ t, decide (c ≠ backtick) = true := fun c hc =>
    decide_eq_true fun heq => h (heq ▸ hc)
  have hshape : codeSpan t ++ rest = backtick :: (t ++ backtick :: rest) := by simp [codeSpan]
  rw [hshape, readSpan, if_pos rfl, List.dropWhile_append_of_pos hpass, List.takeWhile_append_of_pos hpass]
  simp

/-- A span contains no backtick, and nothing that its line does not. -/
theorem readSpan_spec {s t rest : Text} (h : readSpan s = some (t, rest)) :
    backtick ∉ t ∧ ∀ c, c ∈ t ∨ c ∈ rest → c ∈ s := by
  cases s with
  | nil => cases h
  | cons c s =>
    rw [readSpan] at h
    split_ifs at h with hc
    split at h
    · cases h
    · next hdrop =>
      obtain ⟨rfl, rfl⟩ := Prod.mk.inj (Option.some.inj h)
      refine ⟨fun hmem => ?_, fun c hc => List.mem_cons_of_mem _ ?_⟩
      · simpa using List.mem_takeWhile_imp hmem
      · rcases hc with hc | hc
        · exact (List.takeWhile_prefix _).subset hc
        · exact (List.dropWhile_suffix _).subset (hdrop ▸ List.mem_cons_of_mem _ hc)

theorem literal_spec {p s rest : Text} (h : Json.literal p s = some rest) : ∀ c ∈ rest, c ∈ s := by
  rw [Json.literal] at h
  split_ifs at h
  rw [← Option.some.inj h]
  exact fun c hc => List.mem_of_mem_drop hc

end Lines

end Py
