import Mathlib.Data.List.Infix
import Steward.Py.Search
import Steward.Runs.Coordinator

/-!
# Projected text

A text is projected for matching: its characters are normalized and folded one
by one, soft hyphens are dropped, words broken over lines are joined, and white
space is collapsed. Every projected character keeps the offset of the source
character it comes from.
-/

namespace Steward.Documents

open Py

/-- What the interpreter knows of characters: `normalize("NFKC", char).casefold()` and `char.isalnum()`. -/
structure CharTable where
  fold : CodePoint → Text
  isAlnum : CodePoint → Bool
  notAlnum : ∀ c ∈ [ch '-', ch '‐', ch '‑', ch ' ', ch '\t', ch '\r', ch '\n'], isAlnum c = false

/-- A projected string and its offsets, character by character. -/
abbrev Projected := List (CodePoint × Nat)

def softHyphen : CodePoint := ⟨0xAD, by decide⟩

/-- `char in {"-", "‐", "‑"}` -/
def isHyphen (c : CodePoint) : Bool := c = ch '-' || c = ch '‐' || c = ch '‑'

/-- `char in {" ", "\t"}` -/
def isBlank (c : CodePoint) : Bool := c = ch ' ' || c = ch '\t'

/-- `char in {"\r", "\n"}` -/
def isBreak (c : CodePoint) : Bool := c = ch '\r' || c = ch '\n'

/-- `_remove_soft_hyphens` -/
def removeSoftHyphens (p : Projected) : Projected := p.filter fun x => x.1 ≠ softHyphen

namespace CharTable

variable (T : CharTable)

/-- The characters of a text from offset `index` on. -/
def foldedFrom (index : Nat) : Text → Projected
  | [] => []
  | c :: s => (T.fold c).map (fun part => (part, index)) ++ foldedFrom (index + 1) s

/-- `_folded_with_offsets` -/
def folded (value : Text) : Projected := T.foldedFrom 0 value

/-- What follows a hyphen at the end of a line, from the word character that goes on. -/
def joined (rest : Projected) : Option Projected :=
  let atBreak := rest.dropWhile fun x => isBlank x.1
  let afterBreak := atBreak.dropWhile fun x => isBreak x.1
  let tail := afterBreak.dropWhile fun x => isBlank x.1
  if afterBreak.length < atBreak.length then
    match tail with
    | [] => none
    | x :: _ => if T.isAlnum x.1 then some tail else none
  else none

theorem length_joined {rest tail : Projected} (h : T.joined rest = some tail) : tail.length ≤ rest.length := by
  have hle {p : CodePoint × Nat → Bool} (l : Projected) : (l.dropWhile p).length ≤ l.length :=
    (List.dropWhile_sublist p).length_le
  have htail : tail = ((rest.dropWhile fun x => isBlank x.1).dropWhile fun x => isBreak x.1).dropWhile
      fun x => isBlank x.1 := by
    unfold joined at h
    dsimp only at h
    split_ifs at h
    split at h
    · cases h
    · split_ifs at h
      exact (Option.some.inj h).symm
  rw [htail]
  exact (hle _).trans ((hle _).trans (hle _))

/-- The loop of `_dehyphenate_linebreaks`; `word` says that the last character kept is alphanumeric. -/
def dehyphenateFrom (word : Bool) : Projected → Projected
  | [] => []
  | x :: rest =>
    if isHyphen x.1 && word then
      match _h : T.joined rest with
      | some tail => dehyphenateFrom word tail
      | none => x :: dehyphenateFrom (T.isAlnum x.1) rest
    else x :: dehyphenateFrom (T.isAlnum x.1) rest
  termination_by p => p.length
  decreasing_by
    · have := T.length_joined _h
      simp only [List.length_cons]
      omega
    · simp
    · simp

/-- `_dehyphenate_linebreaks` -/
def dehyphenateLinebreaks (p : Projected) : Projected := T.dehyphenateFrom false p

end CharTable

/-- The loop of `_collapse_whitespace`; `started` says that there are characters, `space` that the
last one read was white space. -/
def collapseFrom (started space : Bool) : Projected → Projected
  | [] => []
  | x :: rest =>
    if isSpace x.1 then
      if started && !space then (ch ' ', x.2) :: collapseFrom started true rest else collapseFrom started true rest
    else x :: collapseFrom true false rest

/-- `chars.pop()` where the last character is a space. -/
def popSpace (p : Projected) : Projected := if p.getLast?.map Prod.fst = some (ch ' ') then p.dropLast else p

/-- `_collapse_whitespace` -/
def collapseWhitespace (p : Projected) : Projected := popSpace (collapseFrom false false p)

/-- The modes that one match can have. -/
inductive MatchMode where
  | exact | softHyphen | dehyphenated | whitespace
  deriving DecidableEq, Repr

instance : Named MatchMode where
  all := [.exact, .softHyphen, .dehyphenated, .whitespace]
  name
    | .exact => txt "SUBSTRING_CASEFOLD_NFKC"
    | .softHyphen => txt "SUBSTRING_SOFT_HYPHEN_REMOVED"
    | .dehyphenated => txt "SUBSTRING_LINEBREAK_DEHYPHENATED"
    | .whitespace => txt "SUBSTRING_WHITESPACE_NORMALIZED"

/-- The repairs that the options of a mode select. -/
def CharTable.repaired (T : CharTable) (mode : MatchMode) (p : Projected) : Projected :=
  match mode with
  | .exact => p
  | .softHyphen => removeSoftHyphens p
  | .dehyphenated => T.dehyphenateLinebreaks (removeSoftHyphens p)
  | .whitespace => collapseWhitespace (T.dehyphenateLinebreaks (removeSoftHyphens p))

/-- `_variant` -/
def CharTable.variant (T : CharTable) (mode : MatchMode) (value : Text) : Projected := T.repaired mode (T.folded value)

/-! ## Joining -/

namespace CharTable

variable {T : CharTable}

/-- The characters that join skips: blanks, line breaks, blanks, up to a word character. -/
structure Joins (T : CharTable) (rest skip tail : Projected) : Prop where
  split : rest = skip ++ tail
  parts : ∃ before breaks after, skip = before ++ (breaks ++ after) ∧ breaks ≠ [] ∧
    (∀ x ∈ before, isBlank x.1 = true) ∧ (∀ x ∈ breaks, isBreak x.1 = true) ∧ ∀ x ∈ after, isBlank x.1 = true
  word : ∃ x more, tail = x :: more ∧ T.isAlnum x.1 = true

theorem isAlnum_blank {c : CodePoint} (h : isBlank c = true) : T.isAlnum c = false := by
  simp only [isBlank, Bool.or_eq_true, decide_eq_true_eq] at h
  rcases h with rfl | rfl
  · exact T.notAlnum _ (by decide)
  · exact T.notAlnum _ (by decide)

theorem isAlnum_break {c : CodePoint} (h : isBreak c = true) : T.isAlnum c = false := by
  simp only [isBreak, Bool.or_eq_true, decide_eq_true_eq] at h
  rcases h with rfl | rfl
  · exact T.notAlnum _ (by decide)
  · exact T.notAlnum _ (by decide)

theorem isAlnum_hyphen {c : CodePoint} (h : isHyphen c = true) : T.isAlnum c = false := by
  simp only [isHyphen, Bool.or_eq_true, decide_eq_true_eq] at h
  rcases h with (rfl | rfl) | rfl
  · exact T.notAlnum _ (by decide)
  · exact T.notAlnum _ (by decide)
  · exact T.notAlnum _ (by decide)

theorem isBreak_blank {c : CodePoint} (h : isBlank c = true) : isBreak c = false := by
  simp only [isBlank, Bool.or_eq_true, decide_eq_true_eq] at h
  rcases h with rfl | rfl
  · decide
  · decide

theorem isHyphen_space {c : CodePoint} (h : isBlank c = true ∨ isBreak c = true) : isHyphen c = false := by
  simp only [isBlank, isBreak, Bool.or_eq_true, decide_eq_true_eq] at h
  rcases h with (rfl | rfl) | rfl | rfl
  · decide
  · decide
  · decide
  · decide

theorem dropWhile_append_cons {p : CodePoint × Nat → Bool} {l more : Projected} {x : CodePoint × Nat}
    (hl : ∀ y ∈ l, p y = true) (hx : p x = false) : (l ++ x :: more).dropWhile p = x :: more := by
  rw [List.dropWhile_append_of_pos hl, List.dropWhile_cons_of_neg (by simp [hx])]

theorem joined_of_joins {rest skip tail : Projected} (h : T.Joins rest skip tail) : T.joined rest = some tail := by
  obtain ⟨rfl, ⟨before, breaks, after, rfl, hne, hbefore, hbreaks, hafter⟩, x, more, rfl, hword⟩ := h
  obtain ⟨b, breaks, rfl⟩ := List.exists_cons_of_ne_nil hne
  have hb := hbreaks b List.mem_cons_self
  have hxblank : isBlank x.1 = false := by
    by_contra hx
    rw [Bool.not_eq_false] at hx
    rw [isAlnum_blank hx] at hword
    cases hword
  have hxbreak : isBreak x.1 = false := by
    by_contra hx
    rw [Bool.not_eq_false] at hx
    rw [isAlnum_break hx] at hword
    cases hword
  have hbblank : isBlank b.1 = false := by
    by_contra hx
    rw [Bool.not_eq_false] at hx
    rw [isBreak_blank hx] at hb
    cases hb
  have hatBreak : ((before ++ (b :: breaks ++ after)) ++ x :: more).dropWhile (fun x => isBlank x.1) =
      b :: breaks ++ (after ++ x :: more) := by
    rw [List.append_assoc, List.append_assoc, List.cons_append, dropWhile_append_cons hbefore hbblank]
  have hafterBreak : (b :: breaks ++ (after ++ x :: more)).dropWhile (fun x => isBreak x.1) = after ++ x :: more := by
    rw [List.dropWhile_append_of_pos hbreaks]
    cases after with
    | nil => exact List.dropWhile_cons_of_neg (by simp [hxbreak])
    | cons a after => exact List.dropWhile_cons_of_neg (by simp [isBreak_blank (hafter a List.mem_cons_self)])
  have htail : (after ++ x :: more).dropWhile (fun x => isBlank x.1) = x :: more :=
    dropWhile_append_cons hafter hxblank
  unfold joined
  dsimp only
  rw [hatBreak, hafterBreak, htail]
  have hlt : (after ++ x :: more).length < (b :: breaks ++ (after ++ x :: more)).length := by
    have hlen := @List.length_append _ (b :: breaks) (after ++ x :: more)
    rw [List.length_cons] at hlen
    omega
  rw [if_pos hlt]
  exact if_pos hword

theorem joins_of_joined {rest tail : Projected} (h : T.joined rest = some tail) : ∃ skip, T.Joins rest skip tail := by
  unfold joined at h
  dsimp only at h
  generalize hatBreak : rest.dropWhile (fun x => isBlank x.1) = atBreak at h
  generalize hafterBreak : atBreak.dropWhile (fun x => isBreak x.1) = afterBreak at h
  generalize htail : afterBreak.dropWhile (fun x => isBlank x.1) = t at h
  have hrest : rest = rest.takeWhile (fun x => isBlank x.1) ++ (atBreak.takeWhile (fun x => isBreak x.1) ++
      (afterBreak.takeWhile (fun x => isBlank x.1) ++ t)) := by
    rw [← htail, List.takeWhile_append_dropWhile, ← hafterBreak, List.takeWhile_append_dropWhile, ← hatBreak,
      List.takeWhile_append_dropWhile]
  split_ifs at h with hlt
  have hbreaks : atBreak.takeWhile (fun x => isBreak x.1) ≠ [] := by
    intro hnil
    have hlen := congrArg List.length (List.takeWhile_append_dropWhile (p := fun x => isBreak x.1) (l := atBreak))
    rw [hnil, hafterBreak] at hlen
    simp only [List.nil_append] at hlen
    omega
  match t, h, hrest with
  | x :: more, h, hrest =>
    simp only at h
    split_ifs at h with hword
    cases h
    refine ⟨rest.takeWhile (fun x => isBlank x.1) ++ (atBreak.takeWhile (fun x => isBreak x.1) ++
      afterBreak.takeWhile (fun x => isBlank x.1)), ⟨?_, ⟨_, _, _, rfl, hbreaks, ?_, ?_, ?_⟩, x, more, rfl, hword⟩⟩
    · rw [List.append_assoc, List.append_assoc]
      exact hrest
    · exact fun y hy => List.mem_takeWhile_imp (p := fun x : CodePoint × Nat => isBlank x.1) hy
    · exact fun y hy => List.mem_takeWhile_imp (p := fun x : CodePoint × Nat => isBreak x.1) hy
    · exact fun y hy => List.mem_takeWhile_imp (p := fun x : CodePoint × Nat => isBlank x.1) hy

theorem Joins.of_append {rest skip tail : Projected} (h : T.Joins rest skip tail) (post : Projected) :
    T.Joins (rest ++ post) skip (tail ++ post) := by
  obtain ⟨rfl, hparts, x, more, rfl, hword⟩ := h
  exact ⟨by rw [List.append_assoc], hparts, x, more ++ post, rfl, hword⟩

/-- Whether a join that ends before a cut is seen does not depend on what follows the cut. -/
theorem Joins.cut {rest skip tail post : Projected} (h : T.Joins (skip ++ tail ++ post) skip (tail ++ post))
    (hne : tail ≠ []) (hrest : rest = skip ++ tail) : T.Joins rest skip tail := by
  obtain ⟨-, hparts, x, more, heq, hword⟩ := h
  obtain ⟨y, tail, rfl⟩ := List.exists_cons_of_ne_nil hne
  obtain ⟨rfl, -⟩ := List.cons.inj heq
  exact ⟨hrest, hparts, y, tail, rfl, hword⟩

/-- Nothing that is skipped is a hyphen or a word character. -/
theorem Joins.skipped {rest skip tail : Projected} (h : T.Joins rest skip tail) :
    ∀ x ∈ skip, isHyphen x.1 = false ∧ T.isAlnum x.1 = false := by
  obtain ⟨before, breaks, after, rfl, -, hbefore, hbreaks, hafter⟩ := h.parts
  intro x hx
  rcases List.mem_append.1 hx with hx | hx
  · exact ⟨isHyphen_space (.inl (hbefore x hx)), isAlnum_blank (hbefore x hx)⟩
  · rcases List.mem_append.1 hx with hx | hx
    · exact ⟨isHyphen_space (.inr (hbreaks x hx)), isAlnum_break (hbreaks x hx)⟩
    · exact ⟨isHyphen_space (.inl (hafter x hx)), isAlnum_blank (hafter x hx)⟩

/-! ## One step of the loop -/

theorem dehyphenateFrom_nil (word : Bool) : T.dehyphenateFrom word [] = [] := by
  rw [dehyphenateFrom]

theorem dehyphenateFrom_joins {x : CodePoint × Nat} {rest skip tail : Projected} (hx : isHyphen x.1 = true)
    (h : T.Joins rest skip tail) : T.dehyphenateFrom true (x :: rest) = T.dehyphenateFrom true tail := by
  rw [dehyphenateFrom, if_pos (by rw [hx]; rfl)]
  split
  · next t ht =>
    rw [joined_of_joins h] at ht
    rw [Option.some.inj ht]
  · next ht =>
    rw [joined_of_joins h] at ht
    cases ht

theorem dehyphenateFrom_kept {word : Bool} {x : CodePoint × Nat} {rest : Projected}
    (h : ¬ (isHyphen x.1 = true ∧ word = true ∧ ∃ skip tail, T.Joins rest skip tail)) :
    T.dehyphenateFrom word (x :: rest) = x :: T.dehyphenateFrom (T.isAlnum x.1) rest := by
  rw [dehyphenateFrom]
  split_ifs with hx
  · split
    · next t ht =>
      obtain ⟨skip, hskip⟩ := joins_of_joined ht
      rw [Bool.and_eq_true] at hx
      exact absurd ⟨hx.1, hx.2, skip, t, hskip⟩ h
    · rfl
  · rfl

/-- A word character is kept whatever comes before it. -/
theorem dehyphenateFrom_word {word : Bool} (word' : Bool) {x : CodePoint × Nat} {rest : Projected}
    (h : T.isAlnum x.1 = true) : T.dehyphenateFrom word (x :: rest) = T.dehyphenateFrom word' (x :: rest) := by
  have hx : isHyphen x.1 = false := by
    by_contra hx
    rw [Bool.not_eq_false] at hx
    rw [isAlnum_hyphen hx] at h
    cases h
  rw [dehyphenateFrom_kept (by simp [hx]), dehyphenateFrom_kept (by simp [hx])]

/-- Skipped characters that are read one by one are kept. -/
theorem dehyphenateFrom_skipped {skip tail : Projected}
    (h : ∀ x ∈ skip, isHyphen x.1 = false ∧ T.isAlnum x.1 = false) :
    T.dehyphenateFrom false (skip ++ tail) = skip ++ T.dehyphenateFrom false tail := by
  induction skip with
  | nil => rfl
  | cons x skip ih =>
    obtain ⟨hx, hword⟩ := h x List.mem_cons_self
    rw [List.cons_append, dehyphenateFrom_kept (by simp [hx]), hword, ih fun y hy => h y (List.mem_cons_of_mem _ hy)]
    rfl

/-! ## Cutting what is read -/

/-- Started without a word character before it, the loop keeps at least as much. -/
theorem dehyphenateFrom_suffix (word : Bool) (p : Projected) :
    T.dehyphenateFrom word p <:+ T.dehyphenateFrom false p := by
  cases p with
  | nil =>
    rw [dehyphenateFrom_nil, dehyphenateFrom_nil]
  | cons x rest =>
    rw [@dehyphenateFrom_kept T false x rest (by simp)]
    by_cases hjoin : isHyphen x.1 = true ∧ word = true ∧ ∃ skip tail, T.Joins rest skip tail
    · obtain ⟨hx, rfl, skip, tail, h⟩ := hjoin
      obtain ⟨y, more, rfl, hy⟩ := h.word
      rw [dehyphenateFrom_joins hx h, dehyphenateFrom_word false hy, isAlnum_hyphen hx, h.split,
        dehyphenateFrom_skipped h.skipped]
      exact ⟨x :: skip, rfl⟩
    · rw [dehyphenateFrom_kept hjoin]

theorem dehyphenateFrom_sublist (word : Bool) (p : Projected) : (T.dehyphenateFrom word p).Sublist p := by
  induction hn : p.length using Nat.strong_induction_on generalizing p word with
  | _ n ih =>
    cases p with
    | nil => rw [dehyphenateFrom_nil]
    | cons x rest =>
      simp only [List.length_cons] at hn
      by_cases hjoin : isHyphen x.1 = true ∧ word = true ∧ ∃ skip tail, T.Joins rest skip tail
      · obtain ⟨hx, rfl, skip, tail, h⟩ := hjoin
        have hlen := congrArg List.length h.split
        rw [List.length_append] at hlen
        rw [dehyphenateFrom_joins hx h]
        refine (ih tail.length (by omega) true tail rfl).trans ?_
        rw [h.split]
        exact (List.sublist_append_right skip tail).trans (List.sublist_cons_self x _)
      · rw [dehyphenateFrom_kept hjoin]
        exact (ih rest.length (by omega) _ rest rfl).cons_cons x

/-- What is kept of a text with a cut: characters before the cut, and then an end of what the loop
keeps when it starts at the cut. -/
theorem dehyphenateFrom_append_left (word : Bool) (pre post : Projected) : ∃ kept rest,
    T.dehyphenateFrom word (pre ++ post) = kept ++ rest ∧ kept ⊆ pre ∧ rest <:+ T.dehyphenateFrom false post := by
  induction hn : pre.length using Nat.strong_induction_on generalizing pre word with
  | _ n ih =>
    cases pre with
    | nil => exact ⟨[], _, rfl, List.nil_subset _, dehyphenateFrom_suffix word post⟩
    | cons x pre =>
      simp only [List.length_cons] at hn
      by_cases hjoin : isHyphen x.1 = true ∧ word = true ∧ ∃ skip tail, T.Joins (pre ++ post) skip tail
      · obtain ⟨hx, rfl, skip, tail, h⟩ := hjoin
        rw [List.cons_append, dehyphenateFrom_joins hx h]
        rcases List.append_eq_append_iff.1 h.split with ⟨past, hskip, htail⟩ | ⟨left, hpre, htail⟩
        · -- the join passes the cut
          have hover : ∀ y ∈ past, isHyphen y.1 = false ∧ T.isAlnum y.1 = false := fun y hy =>
            h.skipped y (hskip ▸ List.mem_append_right _ hy)
          obtain ⟨y, more, rfl, hy⟩ := h.word
          refine ⟨[], _, rfl, List.nil_subset _, ?_⟩
          rw [htail, dehyphenateFrom_skipped hover, dehyphenateFrom_word false hy]
          exact List.suffix_append _ _
        · have hlen := congrArg List.length hpre
          rw [List.length_append] at hlen
          obtain ⟨kept, rest, heq, hsub, hrest⟩ := ih left.length (by omega) true left rfl
          refine ⟨kept, rest, by rw [htail, heq], fun y hy => ?_, hrest⟩
          rw [hpre]
          exact List.mem_cons_of_mem _ (List.mem_append_right _ (hsub hy))
      · obtain ⟨kept, rest, heq, hsub, hrest⟩ := ih pre.length (by omega) (T.isAlnum x.1) pre rfl
        refine ⟨x :: kept, rest, ?_, List.cons_subset_cons x hsub, hrest⟩
        rw [List.cons_append, dehyphenateFrom_kept hjoin, heq]
        rfl

/-- What is kept of a text with a cut: a beginning of what is kept of the part before the cut, and
then characters after it. -/
theorem dehyphenateFrom_append_right (word : Bool) (pre post : Projected) : ∃ kept rest,
    T.dehyphenateFrom word (pre ++ post) = kept ++ rest ∧ kept <+: T.dehyphenateFrom word pre ∧ rest ⊆ post := by
  induction hn : pre.length using Nat.strong_induction_on generalizing pre word with
  | _ n ih =>
    cases pre with
    | nil => exact ⟨[], _, rfl, List.nil_prefix, (dehyphenateFrom_sublist word post).subset⟩
    | cons x pre =>
      simp only [List.length_cons] at hn
      by_cases hjoin : isHyphen x.1 = true ∧ word = true ∧ ∃ skip tail, T.Joins (pre ++ post) skip tail
      · obtain ⟨hx, rfl, skip, tail, h⟩ := hjoin
        rw [List.cons_append, dehyphenateFrom_joins hx h]
        rcases List.append_eq_append_iff.1 h.split with ⟨past, hskip, htail⟩ | ⟨left, hpre, htail⟩
        · -- the join passes the cut
          refine ⟨[], _, rfl, List.nil_prefix, fun y hy => ?_⟩
          rw [htail]
          exact List.mem_append_right _ ((dehyphenateFrom_sublist true tail).subset hy)
        · cases left with
          | nil =>
            refine ⟨[], _, rfl, List.nil_prefix, ?_⟩
            rw [htail]
            exact (dehyphenateFrom_sublist true post).subset
          | cons y left =>
            have hwhole : T.Joins (skip ++ (y :: left) ++ post) skip ((y :: left) ++ post) := by
              rw [← hpre, ← htail]
              exact h
            have hjoins : T.Joins pre skip (y :: left) := hwhole.cut (List.cons_ne_nil _ _) hpre
            have hlen := congrArg List.length hpre
            rw [List.length_append] at hlen
            obtain ⟨kept, rest, heq, hstart, hrest⟩ := ih (y :: left).length (by omega) true (y :: left) rfl
            refine ⟨kept, rest, by rw [htail, heq], ?_, hrest⟩
            rw [dehyphenateFrom_joins hx hjoins]
            exact hstart
      · have hpre : ¬ (isHyphen x.1 = true ∧ word = true ∧ ∃ skip tail, T.Joins pre skip tail) := by
          rintro ⟨hx, hword, skip, tail, h⟩
          exact hjoin ⟨hx, hword, skip, tail ++ post, h.of_append post⟩
        obtain ⟨kept, rest, heq, hstart, hrest⟩ := ih pre.length (by omega) (T.isAlnum x.1) pre rfl
        refine ⟨x :: kept, rest, ?_, ?_, hrest⟩
        · rw [List.cons_append, dehyphenateFrom_kept hjoin, heq]
          rfl
        · rw [dehyphenateFrom_kept hpre]
          exact (List.prefix_cons_inj x).2 hstart

end CharTable

/-! ## Collapsing what is read -/

section
variable {p q k : Projected} {started space : Bool}

/-- Reading on from wherever the loop stands. -/
theorem collapseFrom_append : ∃ started' space',
    collapseFrom started space (p ++ q) = collapseFrom started space p ++ collapseFrom started' space' q := by
  induction p generalizing started space with
  | nil => exact ⟨started, space, rfl⟩
  | cons x p ih =>
    rw [List.cons_append, collapseFrom, collapseFrom]
    split_ifs with hspace hone
    · obtain ⟨started', space', h⟩ := @ih started true
      exact ⟨started', space', by rw [h]; rfl⟩
    · exact ih
    · obtain ⟨started', space', h⟩ := @ih true false
      exact ⟨started', space', by rw [h]; rfl⟩

theorem isSpace_blank : isSpace (ch ' ') = true := by decide

/-- The last of a list and of the list behind its first. -/
theorem getLast?_cons_of_ne {x : CodePoint × Nat} {m : Projected} (h : m ≠ []) : (x :: m).getLast? = m.getLast? := by
  obtain ⟨y, m, rfl⟩ := List.exists_cons_of_ne_nil h
  exact List.getLast?_cons_cons

/-- What collapsing begins with, up to a character that is not white space, comes from a beginning. -/
theorem exists_prefix_collapse {last : CodePoint × Nat} (hlast : isSpace last.1 = false) : ∀ {p k rest : Projected}
    {space : Bool}, collapseFrom true space p = k ++ rest → (k = [] ∨ k.getLast? = some last) →
    ∃ m, m <+: p ∧ collapseFrom true space m = k ∧ (m = [] ↔ k = []) ∧ m.getLast? = k.getLast?
  | p, [], rest, space, _, _ => ⟨[], List.nil_prefix, rfl, Iff.rfl, rfl⟩
  | [], y :: k, rest, space, h, _ => by cases h
  | x :: p, y :: k, rest, space, h, hk => by
    have hyk : (y :: k).getLast? = some last := hk.resolve_left (List.cons_ne_nil _ _)
    have hrest : k = [] ∨ k.getLast? = some last := by
      by_cases hkn : k = []
      · exact .inl hkn
      · exact .inr ((getLast?_cons_of_ne hkn).symm.trans hyk)
    rw [collapseFrom] at h
    split_ifs at h with hspace hone
    · -- the space that stands for a run
      obtain ⟨hy, htail⟩ := List.cons.inj h
      have hkn : k ≠ [] := by
        rintro rfl
        rw [List.getLast?_singleton, Option.some.injEq] at hyk
        rw [← hyk, ← hy, isSpace_blank] at hlast
        cases hlast
      obtain ⟨m, hpre, hm, hnil, hend⟩ := exists_prefix_collapse hlast htail hrest
      have hmn : m ≠ [] := fun h => hkn (hnil.1 h)
      refine ⟨x :: m, (List.prefix_cons_inj x).2 hpre, ?_, by simp, ?_⟩
      · rw [collapseFrom, if_pos hspace, if_pos hone, hm, hy]
      · rw [getLast?_cons_of_ne hmn, hend, getLast?_cons_of_ne hkn]
    · -- more of a run
      obtain ⟨m, hpre, hm, hnil, hend⟩ := exists_prefix_collapse hlast h hk
      have hmn : m ≠ [] := fun h => List.cons_ne_nil _ _ (hnil.1 h)
      refine ⟨x :: m, (List.prefix_cons_inj x).2 hpre, ?_, by simp, ?_⟩
      · rw [collapseFrom, if_pos hspace, if_neg hone, hm]
      · rw [getLast?_cons_of_ne hmn, hend]
    · obtain ⟨hy, htail⟩ := List.cons.inj h
      obtain ⟨m, hpre, hm, hnil, hend⟩ := exists_prefix_collapse hlast htail hrest
      refine ⟨x :: m, (List.prefix_cons_inj x).2 hpre, ?_, by simp, ?_⟩
      · rw [collapseFrom, if_neg hspace, hm, hy]
      · by_cases hkn : k = []
        · rw [hnil.2 hkn, hkn, hy]
        · rw [getLast?_cons_of_ne fun h => hkn (hnil.1 h), hend, getLast?_cons_of_ne hkn]

/-- A part of the collapsed text between two characters that are not white space is the collapsed
form of a part of the text, wherever that part stands. -/
theorem exists_infix_collapse {first last : CodePoint × Nat} (hhead : k.head? = some first)
    (hend : k.getLast? = some last) (hfirst : isSpace first.1 = false) (hlast : isSpace last.1 = false)
    (h : k <:+: collapseFrom started space p) : ∃ m, m <:+: p ∧ m.head? = k.head? ∧ m.getLast? = k.getLast? ∧
      ∀ started' space', collapseFrom started' space' m = k := by
  induction p generalizing started space with
  | nil =>
    rw [collapseFrom, List.infix_nil] at h
    rw [h] at hhead
    cases hhead
  | cons x p ih =>
    have hbehind {started' space' : Bool} (h : k <:+: collapseFrom started' space' p) :
        ∃ m, m <:+: x :: p ∧ m.head? = k.head? ∧ m.getLast? = k.getLast? ∧
          ∀ started' space', collapseFrom started' space' m = k := by
      obtain ⟨m, hm, hrest⟩ := ih h
      exact ⟨m, List.infix_cons hm, hrest⟩
    rw [collapseFrom] at h
    split_ifs at h with hspace hone
    · rcases List.infix_cons_iff.1 h with hpre | hinfix
      · obtain ⟨rest, hrest⟩ := hpre
        obtain ⟨y, k, rfl⟩ := List.exists_cons_of_ne_nil (l := k) (by rintro rfl; cases hhead)
        cases hhead
        rw [(List.cons.inj hrest).1, isSpace_blank] at hfirst
        cases hfirst
      · exact hbehind hinfix
    · exact hbehind h
    · rcases List.infix_cons_iff.1 h with hpre | hinfix
      · obtain ⟨rest, hrest⟩ := hpre
        obtain ⟨y, k, rfl⟩ := List.exists_cons_of_ne_nil (l := k) (by rintro rfl; cases hhead)
        obtain ⟨hy, htail⟩ := List.cons.inj hrest
        have hkl : k = [] ∨ k.getLast? = some last := by
          by_cases hkn : k = []
          · exact .inl hkn
          · exact .inr ((getLast?_cons_of_ne hkn).symm.trans hend)
        obtain ⟨m, hpre, hm, hnil, hml⟩ := exists_prefix_collapse hlast htail.symm hkl
        refine ⟨x :: m, ((List.prefix_cons_inj x).2 hpre).isInfix, by rw [hy]; rfl, ?_, fun started' space' => ?_⟩
        · by_cases hkn : k = []
          · rw [hnil.2 hkn, hkn, hy]
          · rw [getLast?_cons_of_ne fun h => hkn (hnil.1 h), hml, getLast?_cons_of_ne hkn]
        · rw [collapseFrom, if_neg hspace, hm, hy]
      · exact hbehind hinfix

theorem popSpace_isPrefix : popSpace p <+: p := by
  unfold popSpace
  split_ifs
  · exact List.dropLast_prefix p
  · exact List.prefix_rfl

/-- Popping a space takes nothing from a part that ends otherwise. -/
theorem infix_popSpace {last : CodePoint × Nat} (hend : k.getLast? = some last) (hlast : isSpace last.1 = false)
    (h : k <:+: p) : k <:+: popSpace p := by
  unfold popSpace
  split_ifs with hpop
  · obtain ⟨a, b, rfl⟩ := h
    rcases List.eq_nil_or_concat b with rfl | ⟨b, x, rfl⟩
    · have hne : k ≠ [] := by
        rintro rfl
        cases hend
      rw [List.append_nil, List.getLast?_append_of_ne_nil _ hne, hend] at hpop
      rw [Option.some.inj hpop, isSpace_blank] at hlast
      cases hlast
    · rw [List.concat_eq_append, ← List.append_assoc, List.dropLast_concat]
      exact ⟨a, b, rfl⟩
  · exact h

/-- Wherever a part lies, its collapsed form lies in the collapsed text. -/
theorem infix_collapseWhitespace {m : Projected} {last : CodePoint × Nat} (hend : k.getLast? = some last)
    (hlast : isSpace last.1 = false) (hm : m <:+: p) (hk : ∀ started space, collapseFrom started space m = k) :
    k <:+: collapseWhitespace p := by
  obtain ⟨a, b, rfl⟩ := hm
  refine infix_popSpace hend hlast ?_
  obtain ⟨started, space, h⟩ := @collapseFrom_append (a ++ m) b false false
  obtain ⟨started', space', h'⟩ := @collapseFrom_append a m false false
  rw [h, h', hk]
  exact List.infix_append _ _ _

/-- After white space, or before any character, the first one kept is not white space. -/
theorem head?_collapseFrom (h : started = false ∨ space = true) {first : CodePoint × Nat}
    (hfirst : (collapseFrom started space p).head? = some first) : isSpace first.1 = false := by
  induction p generalizing started space with
  | nil => cases hfirst
  | cons x p ih =>
    rw [collapseFrom] at hfirst
    split_ifs at hfirst with hspace hone
    · rw [Bool.and_eq_true, Bool.not_eq_true'] at hone
      rcases h with h | h
      · rw [h] at hone
        cases hone.1
      · rw [h] at hone
        cases hone.2
    · exact ih (.inr rfl) hfirst
    · cases hfirst
      rwa [Bool.not_eq_true] at hspace

theorem getLast?_popSpace_cons {x last : CodePoint × Nat} (hx : x.1 = ch ' ' → p ≠ [] ∧ popSpace p ≠ [])
    (hrest : ∀ last, (popSpace p).getLast? = some last → isSpace last.1 = false)
    (hxs : x.1 ≠ ch ' ' → isSpace x.1 = false) (h : (popSpace (x :: p)).getLast? = some last) :
    isSpace last.1 = false := by
  by_cases hp : p = []
  · subst hp
    unfold popSpace at h
    split_ifs at h with hpop
    · cases h
    · cases h
      refine hxs fun hc => hpop ?_
      rw [List.getLast?_singleton, Option.map_some, hc]
  · have hpop : popSpace (x :: p) = x :: popSpace p := by
      unfold popSpace
      rw [getLast?_cons_of_ne hp]
      split_ifs
      · exact List.dropLast_cons_of_ne_nil hp
      · rfl
    rw [hpop] at h
    by_cases hq : popSpace p = []
    · rw [hq] at h
      cases h
      by_contra hc
      by_cases hxc : x.1 = ch ' '
      · exact (hx hxc).2 hq
      · exact hc (hxs hxc)
    · rw [getLast?_cons_of_ne hq] at h
      exact hrest last h

/-- Once a trailing space is popped the last character kept is not white space. -/
theorem getLast?_collapseWhitespace {last : CodePoint × Nat}
    (h : (popSpace (collapseFrom started space p)).getLast? = some last) : isSpace last.1 = false := by
  induction p generalizing started space last with
  | nil => cases h
  | cons x p ih =>
    rw [collapseFrom] at h
    split_ifs at h with hspace hone
    · by_cases hnone : collapseFrom started true p = []
      · rw [hnone] at h
        simp [popSpace] at h
      · refine getLast?_popSpace_cons (fun _ => ⟨hnone, fun hpop => ?_⟩) (fun last h => ih h) (fun hc => absurd rfl hc) h
        -- what is popped to nothing is one space, but white space cannot come next
        unfold popSpace at hpop
        split_ifs at hpop with hlast
        · obtain ⟨y, q, hq⟩ := List.exists_cons_of_ne_nil hnone
          rw [hq] at hpop hlast
          have hqn : q = [] := by
            by_contra hqn
            rw [List.dropLast_cons_of_ne_nil hqn] at hpop
            cases hpop
          rw [hqn, List.getLast?_singleton, Option.map_some, Option.some.injEq] at hlast
          have hy := @head?_collapseFrom p started true (.inr rfl) y (by rw [hq]; rfl)
          rw [hlast, isSpace_blank] at hy
          cases hy
        · exact hnone hpop
    · exact ih h
    · rw [Bool.not_eq_true] at hspace
      refine getLast?_popSpace_cons (fun hc => ?_) (fun last h => ih h) (fun _ => hspace) h
      rw [hc, isSpace_blank] at hspace
      cases hspace

/-- A collapsed text that is not empty begins and ends with characters that are not white space. -/
theorem trimmed_collapseWhitespace (hne : collapseWhitespace p ≠ []) : ∃ first last,
    (collapseWhitespace p).head? = some first ∧ (collapseWhitespace p).getLast? = some last ∧
      isSpace first.1 = false ∧ isSpace last.1 = false := by
  obtain ⟨first, rest, hq⟩ := List.exists_cons_of_ne_nil hne
  have hhead : (collapseWhitespace p).head? = some first := by
    rw [hq]
    rfl
  have hlast : (collapseWhitespace p).getLast? = some ((collapseWhitespace p).getLast hne) :=
    List.getLast?_eq_some_getLast hne
  refine ⟨first, _, hhead, hlast, ?_, getLast?_collapseWhitespace hlast⟩
  obtain ⟨more, hmore⟩ := popSpace_isPrefix (p := collapseFrom false false p)
  refine @head?_collapseFrom p false false (.inl rfl) first ?_
  rw [← hmore]
  show (collapseWhitespace p ++ more).head? = some first
  rw [hq]
  rfl

end

end Steward.Documents
