import Mathlib.Data.List.Infix
import Steward.Sqlite.Table

/-!
# LIKE and pages of an ordered selection

`LIKE … ESCAPE '\'` without the ICU extension: ASCII letters match in either
case, both arguments end at a NUL. `like_below` says what the pattern of an
escaped path and `/%` matches. `mem_take_iff` places a row of an ordered
selection in its first `n` by the rows that come before it.
-/

namespace Sqlite

open Py

/-! ## Patterns -/

/-- ASCII lower case. -/
def fold (c : CodePoint) : CodePoint :=
  if h : 65 ≤ c.val ∧ c.val ≤ 90 then ⟨c.val + 32, lower_lt h⟩ else c

/-- What an item of a pattern stands for. -/
inductive Wild where
  | many
  | one
  | char (c : CodePoint)
  deriving DecidableEq

/-- The items of a pattern; a last lone escape matches nothing. -/
def wilds : Text → Option (List Wild)
  | [] => some []
  | c :: p =>
    if c = ch '\\' then
      match p with
      | [] => none
      | d :: p => (wilds p).map (.char d :: ·)
    else if c = ch '%' then (wilds p).map (.many :: ·)
    else if c = ch '_' then (wilds p).map (.one :: ·)
    else (wilds p).map (.char c :: ·)

def Wild.fits : List Wild → Text → Bool
  | [], s => s.isEmpty
  | .many :: ws, s => s.tails.any (fits ws)
  | .one :: ws, s => match s with
    | [] => false
    | _ :: s => fits ws s
  | .char c :: ws, s => match s with
    | [] => false
    | d :: s => fold c = fold d && fits ws s

/-- A text as C reads it. -/
def cString (s : Text) : Text := s.takeWhile fun c => c.val ≠ 0

/-- `s LIKE p ESCAPE '\'` -/
def like (p s : Text) : Bool :=
  match wilds (cString p) with
  | some ws => Wild.fits ws (cString s)
  | none => false

/-- `escaped`: the three special characters each behind a backslash. -/
def escapeLike (s : Text) : Text :=
  s.flatMap fun c => if c = ch '\\' ∨ c = ch '%' ∨ c = ch '_' then [ch '\\', c] else [c]

theorem cString_of_noNul {s : Text} (h : ∀ c ∈ s, c.val ≠ 0) : cString s = s := by
  rw [cString, List.takeWhile_eq_self_iff]
  intro c hc
  exact decide_eq_true (h c hc)

theorem noNul_escapeLike {s : Text} (h : ∀ c ∈ s, c.val ≠ 0) : ∀ c ∈ escapeLike s, c.val ≠ 0 := by
  intro c hc
  obtain ⟨d, hd, hc⟩ := List.mem_flatMap.1 hc
  split_ifs at hc
  · rcases List.mem_cons.1 hc with rfl | hc
    · decide
    · rw [List.mem_singleton.1 hc]; exact h d hd
  · rw [List.mem_singleton.1 hc]; exact h d hd

/-- The escape gives back the characters themselves. -/
theorem wilds_escapeLike (s p : Text) :
    wilds (escapeLike s ++ p) = (wilds p).map (s.map Wild.char ++ ·) := by
  induction s with
  | nil => simp [escapeLike]
  | cons c s ih =>
    have htail : escapeLike (c :: s) ++ p =
        (if c = ch '\\' ∨ c = ch '%' ∨ c = ch '_' then [ch '\\', c] else [c]) ++ (escapeLike s ++ p) := by
      simp [escapeLike, List.append_assoc]
    rw [htail]
    split_ifs with h
    · show wilds (ch '\\' :: c :: (escapeLike s ++ p)) = _
      rw [wilds, if_pos rfl, ih, Option.map_map]
      rfl
    · rw [not_or, not_or] at h
      rw [List.singleton_append, wilds.eq_def]
      simp only [if_neg h.1, if_neg h.2.1, if_neg h.2.2]
      rw [ih, Option.map_map]
      rfl

/-- Characters match a case variant of themselves. -/
theorem fits_chars (p : Text) (ws : List Wild) (s : Text) :
    Wild.fits (p.map Wild.char ++ ws) s = true ↔
      ∃ q r, s = q ++ r ∧ q.map fold = p.map fold ∧ Wild.fits ws r = true := by
  induction p generalizing s with
  | nil => simp
  | cons c p ih =>
    cases s with
    | nil => simp [Wild.fits]
    | cons d s =>
      rw [List.map_cons, List.cons_append, Wild.fits, Bool.and_eq_true, decide_eq_true_eq, ih]
      constructor
      · rintro ⟨hc, q, r, rfl, hq, hr⟩
        exact ⟨d :: q, r, rfl, by rw [List.map_cons, List.map_cons, hc, hq], hr⟩
      · rintro ⟨q, r, hs, hq, hr⟩
        cases q with
        | nil => cases hq
        | cons e q =>
          rw [List.cons_append, List.cons.injEq] at hs
          rw [List.map_cons, List.map_cons, List.cons.injEq] at hq
          obtain ⟨rfl, rfl⟩ := hs
          exact ⟨hq.1.symm, q, r, rfl, hq.2, hr⟩

theorem fits_many (s : Text) : Wild.fits [.many] s = true := by
  rw [Wild.fits, List.any_eq_true]
  exact ⟨[], (List.mem_tails _ _).2 List.nil_suffix, rfl⟩

/-- `s` lies below a case variant of `p`. -/
def below (p s : Text) : Bool :=
  (s.take p.length).map fold = p.map fold && (s.drop p.length).head? = some (ch '/')

theorem below_iff {p s : Text} :
    below p s = true ↔ ∃ q r, s = q ++ ch '/' :: r ∧ q.map fold = p.map fold := by
  rw [below, Bool.and_eq_true, decide_eq_true_eq, decide_eq_true_eq]
  constructor
  · rintro ⟨hq, hr⟩
    obtain ⟨r, hr⟩ := List.head?_eq_some_iff.1 hr
    exact ⟨_, r, by rw [← hr, List.take_append_drop], hq⟩
  · rintro ⟨q, r, rfl, hq⟩
    have hlength : q.length = p.length := by simpa using congrArg List.length hq
    rw [← hlength, List.take_left, List.drop_left]
    exact ⟨hq, rfl⟩

/-- Only `/` folds to `/`. -/
theorem fold_eq_slash {c : CodePoint} (h : fold c = ch '/') : c = ch '/' := by
  have hval := congrArg Fin.val h
  have hslash : (ch '/').val = 47 := rfl
  rw [fold] at hval
  split_ifs at hval with hc
  · simp only [hslash] at hval
    omega
  · exact Fin.ext hval

theorem fold_eq_nul {c : CodePoint} (h : (fold c).val = 0) : c.val = 0 := by
  rw [fold] at h
  split_ifs at h
  exact h

/-- Below a path without NUL, what follows a NUL does not matter. -/
theorem below_cString {p s : Text} (hp : ∀ c ∈ p, c.val ≠ 0) : below p (cString s) = below p s := by
  rw [Bool.eq_iff_iff, below_iff, below_iff]
  constructor
  · rintro ⟨q, r, hs, hq⟩
    refine ⟨q, r ++ s.dropWhile fun c => c.val ≠ 0, ?_, hq⟩
    rw [← List.cons_append, ← List.append_assoc, ← hs, cString, List.takeWhile_append_dropWhile]
  · rintro ⟨q, r, rfl, hq⟩
    have hnul : ∀ c ∈ q, decide (c.val ≠ 0) = true := by
      intro c hc
      obtain ⟨d, hd, hcd⟩ := List.mem_map.1 (hq ▸ List.mem_map_of_mem (f := fold) hc)
      refine decide_eq_true fun h0 => hp d hd (fold_eq_nul ?_)
      have hfold : fold c = c := by
        rw [fold, dif_neg]
        omega
      rw [hcd, hfold, h0]
    exact ⟨q, cString r, by rw [cString, List.takeWhile_append_of_pos hnul]; rfl, hq⟩

theorem like_below {p : Text} (hp : ∀ c ∈ p, c.val ≠ 0) (s : Text) :
    like (escapeLike p ++ txt "/%") s = below p s := by
  have hpattern : ∀ c ∈ escapeLike p ++ txt "/%", c.val ≠ 0 := by
    intro c hc
    rcases List.mem_append.1 hc with hc | hc
    · exact noNul_escapeLike hp c hc
    · have hall : (txt "/%").all (fun c => c.val ≠ 0) = true := by decide
      exact of_decide_eq_true (List.all_eq_true.1 hall c hc)
  have hsuffix : wilds (txt "/%") = some [.char (ch '/'), .many] := by decide
  rw [← below_cString hp, Bool.eq_iff_iff, below_iff, like, cString_of_noNul hpattern, wilds_escapeLike,
    hsuffix, Option.map_some]
  show Wild.fits (p.map Wild.char ++ [.char (ch '/'), .many]) (cString s) = true ↔ _
  rw [fits_chars]
  constructor
  · rintro ⟨q, r, hs, hq, hr⟩
    cases r with
    | nil => simp [Wild.fits] at hr
    | cons d r =>
      rw [Wild.fits, Bool.and_eq_true, decide_eq_true_eq] at hr
      exact ⟨q, r, by rw [hs, fold_eq_slash (c := d) hr.1.symm], hq⟩
  · rintro ⟨q, r, hs, hq⟩
    refine ⟨q, ch '/' :: r, hs, hq, ?_⟩
    rw [Wild.fits, fits_many]
    simp

/-! ## The first rows -/

section
variable {α κ : Type} [Preorder κ] [DecidableLT κ]

/-- A row of an ordered selection is among the first `n` when fewer come before it. -/
theorem mem_take_iff {key : α → κ} {l : List α} (h : l.Pairwise fun a b => key a < key b) {x : α}
    (hx : x ∈ l) (n : Nat) : x ∈ l.take n ↔ l.countP (fun y => key y < key x) < n := by
  induction l generalizing n with
  | nil => cases hx
  | cons a l ih =>
    obtain ⟨ha, hl⟩ := List.pairwise_cons.1 h
    cases n with
    | zero => simp
    | succ n =>
      rcases List.mem_cons.1 hx with rfl | hx
      · -- nothing comes before the first row
        have hnone : (x :: l).countP (fun y => key y < key x) = 0 := by
          rw [List.countP_eq_zero]
          intro y hy
          rcases List.mem_cons.1 hy with rfl | hy
          · simp
          · simpa using (ha y hy).not_gt
        rw [hnone]
        exact iff_of_true List.mem_cons_self n.succ_pos
      · have hne : x ≠ a := fun hxa => absurd (ha x hx) (by rw [hxa]; exact lt_irrefl _)
        rw [List.take_succ_cons, List.mem_cons, or_iff_right hne, ih hl hx,
          List.countP_cons_of_pos (by simpa using ha x hx)]
        omega

end

end Sqlite
