import Steward.Documents.TextMatch

/-!
# Excerpts

`_streaming_query_excerpt` and the excerpt of `_content_match`: the text around
the first match, cut after a number of characters. An excerpt that reaches to the
end of the match still matches (`excerpts_keep_match`). One that is cut before it
may not, as runs of white space make a match as long as one likes.
-/

namespace Steward.Documents

open Py

/-- `MAX_STREAMING_QUERY_EXCERPT_CHARS` -/
def maxStreamingQueryExcerptChars : Nat := 2048

/-- `MAX_DOCUMENT_CONTENT_EXCERPT_CHARS` -/
def maxDocumentContentExcerptChars : Nat := 512

/-- The text from `radius` characters before a match to `radius` characters behind it. -/
def aroundMatch (radius : Nat) (text : Text) (found : DocumentTextMatch) : Text :=
  sourceSpan text (found.sourceStart - radius) (min text.length (max found.sourceEnd found.sourceStart + radius))

/-- `_streaming_query_excerpt` -/
def streamingQueryExcerpt (T : CharTable) (text query : Text) : Option Text :=
  (T.matchDocumentText (some text) query).map fun found =>
    (aroundMatch (maxStreamingQueryExcerptChars / 2) text found).take maxStreamingQueryExcerptChars

/-- `_content_match` -/
def contentMatch (T : CharTable) (value query : Text) : Option (Nat × Text × MatchMode) :=
  (T.matchDocumentText (some value) query).map fun found =>
    let excerpt := aroundMatch 160 value found
    (found.count,
      if maxDocumentContentExcerptChars < excerpt.length then excerpt.take maxDocumentContentExcerptChars else excerpt,
      found.mode)

theorem take_of_long (limit : Nat) (text : Text) :
    (if limit < text.length then text.take limit else text) = text.take limit := by
  split_ifs with h
  · rfl
  · exact (List.take_of_length_le (by omega)).symm

section
variable {T : CharTable} {text query : Text} {found : DocumentTextMatch} {radius limit : Nat}

theorem sourceSpan_isInfix (text : Text) (start stop : Nat) : sourceSpan text start stop <:+: text :=
  (List.take_prefix _ _).isInfix.trans (List.drop_suffix _ _).isInfix

theorem take_sourceSpan (limit : Nat) (text : Text) (start stop : Nat) :
    (sourceSpan text start stop).take limit = sourceSpan text start (min stop (start + limit)) := by
  unfold sourceSpan
  rw [List.take_take]
  congr 1
  omega

/-- The match ends within the excerpt. -/
def Reaches (radius limit : Nat) (found : DocumentTextMatch) : Prop :=
  found.sourceEnd ≤ found.sourceStart - radius + limit

/-- A part of the text around a match that reaches to its end has a match. -/
theorem excerpt_matches (hfound : T.matchDocumentText (some text) query = some found)
    (hfits : Reaches radius limit found) :
    T.matchDocumentText (some ((aroundMatch radius text found).take limit)) query ≠ none := by
  obtain ⟨k, first, last, hquery, hk, hkq, hfirst, hlast, heq⟩ := exists_of_match hfound
  obtain ⟨hlt, hle⟩ := span_of_match hk hfirst hlast
  have hstart : found.sourceStart = first.2 := congrArg DocumentTextMatch.sourceStart heq
  have hend : found.sourceEnd = last.2 + 1 := congrArg DocumentTextMatch.sourceEnd heq
  unfold Reaches at hfits
  unfold aroundMatch
  rw [take_sourceSpan]
  intro hnone
  refine (matchDocumentText_eq_none.1 hnone found.mode).elim hquery (absurd ?_)
  exact window_of_match hquery hk hkq hfirst hlast (by omega) (by omega) (by omega) (by omega)

/-- A contiguous part of the text of at most `limit` characters. -/
def IsExcerpt (limit : Nat) (excerpt text : Text) : Prop := excerpt <:+: text ∧ excerpt.length ≤ limit

theorem isExcerpt_take (radius limit : Nat) (text : Text) (found : DocumentTextMatch) :
    IsExcerpt limit ((aroundMatch radius text found).take limit) text :=
  ⟨(List.take_prefix _ _).isInfix.trans (sourceSpan_isInfix _ _ _), List.length_take_le _ _⟩

/-- An excerpt of a text that matches is a bounded part of it, and matches where it reaches to the end
of the match. -/
theorem excerpts_keep_match (hfound : T.matchDocumentText (some text) query = some found) :
    (∃ excerpt, streamingQueryExcerpt T text query = some excerpt ∧
      IsExcerpt maxStreamingQueryExcerptChars excerpt text ∧
      (found.sourceEnd ≤ found.sourceStart - maxStreamingQueryExcerptChars / 2 + maxStreamingQueryExcerptChars →
        T.matchDocumentText (some excerpt) query ≠ none)) ∧
    ∃ excerpt, contentMatch T text query = some (found.count, excerpt, found.mode) ∧
      IsExcerpt maxDocumentContentExcerptChars excerpt text ∧
      (found.sourceEnd ≤ found.sourceStart - 160 + maxDocumentContentExcerptChars →
        T.matchDocumentText (some excerpt) query ≠ none) := by
  constructor
  · refine ⟨_, ?_, isExcerpt_take _ _ text found, fun hfits => excerpt_matches hfound hfits⟩
    unfold streamingQueryExcerpt
    rw [hfound]
    rfl
  · refine ⟨_, ?_, isExcerpt_take _ _ text found, fun hfits => excerpt_matches hfound hfits⟩
    unfold contentMatch
    rw [hfound]
    exact congrArg (fun excerpt => some (found.count, excerpt, found.mode)) (take_of_long _ _)

/-! ## A match longer than its excerpt -/

theorem mem_collapseFrom {started space : Bool} {p : Projected} {x : CodePoint × Nat}
    (h : x ∈ collapseFrom started space p) : x.1 = ch ' ' ∨ x ∈ p := by
  induction p generalizing started space with
  | nil => cases h
  | cons y p ih =>
    unfold collapseFrom at h
    split_ifs at h
    · rcases List.mem_cons.1 h with rfl | h
      · exact .inl rfl
      · exact (ih h).imp_right (List.mem_cons_of_mem _)
    · exact (ih h).imp_right (List.mem_cons_of_mem _)
    · rcases List.mem_cons.1 h with rfl | h
      · exact .inr List.mem_cons_self
      · exact (ih h).imp_right (List.mem_cons_of_mem _)

/-- A projection has spaces and the characters of what it projects. -/
theorem mem_repaired {mode : MatchMode} {p : Projected} {x : CodePoint × Nat} (h : x ∈ T.repaired mode p) :
    x.1 = ch ' ' ∨ x ∈ p := by
  have hjoined : ∀ x ∈ T.dehyphenateFrom false (removeSoftHyphens p), x ∈ p := fun x hx =>
    List.mem_of_mem_filter ((CharTable.dehyphenateFrom_sublist false _).subset hx)
  cases mode with
  | exact => exact .inr h
  | softHyphen => exact .inr (List.mem_of_mem_filter h)
  | dehyphenated => exact .inr (hjoined x h)
  | whitespace => exact (mem_collapseFrom (popSpace_isPrefix.subset h)).imp_right (hjoined x)

theorem mem_foldedFrom {n : Nat} {s : Text} {x : CodePoint × Nat} (h : x ∈ T.foldedFrom n s) :
    ∃ d ∈ s, x.1 ∈ T.fold d := by
  induction s generalizing n with
  | nil => cases h
  | cons d s ih =>
    rcases List.mem_append.1 h with h | h
    · obtain ⟨part, hpart, rfl⟩ := List.mem_map.1 h
      exact ⟨d, List.mem_cons_self, hpart⟩
    · obtain ⟨d', hd', hin⟩ := ih h
      exact ⟨d', List.mem_cons_of_mem _ hd', hin⟩

theorem mem_folded {x : CodePoint × Nat} (h : x ∈ T.folded text) : ∃ d ∈ text, x.1 ∈ T.fold d := mem_foldedFrom h

theorem mem_projectedText {mode : MatchMode} {c : CodePoint} (h : c ∈ projectedText T mode text) :
    c = ch ' ' ∨ ∃ d ∈ text, c ∈ T.fold d := by
  obtain ⟨x, hx, rfl⟩ := List.mem_map.1 h
  exact (mem_repaired hx).imp_right mem_folded

/-- Where there is no hyphen, nothing is joined. -/
theorem dehyphenateFrom_of_no_hyphen {word : Bool} {p : Projected} (h : ∀ x ∈ p, isHyphen x.1 = false) :
    T.dehyphenateFrom word p = p := by
  induction p generalizing word with
  | nil => exact CharTable.dehyphenateFrom_nil word
  | cons x p ih =>
    have hx := h x List.mem_cons_self
    unfold CharTable.dehyphenateFrom
    rw [if_neg (by rw [hx]; exact Bool.false_ne_true), ih fun y hy => h y (List.mem_cons_of_mem _ hy)]

end

/-- What the interpreter knows of ASCII. -/
def asciiTable : CharTable where
  fold c := if 65 ≤ c.val ∧ c.val ≤ 90 then [c + 32] else [c]
  isAlnum c := decide (48 ≤ c.val ∧ c.val ≤ 57) || decide (65 ≤ c.val ∧ c.val ≤ 90) || decide (97 ≤ c.val ∧ c.val ≤ 122)
  notAlnum := by simp [ch]

/-- Two letters with `n` spaces between them. -/
def wideGap (n : Nat) : Text := ch 'a' :: (List.replicate n (ch ' ') ++ txt "b")

theorem mem_wideGap {n : Nat} {c : CodePoint} (h : c ∈ wideGap n) : c = ch 'a' ∨ c = ch ' ' ∨ c = ch 'b' := by
  rcases List.mem_cons.1 h with rfl | h
  · exact .inl rfl
  · rcases List.mem_append.1 h with h | h
    · exact .inr (.inl (List.eq_of_mem_replicate h))
    · exact .inr (.inr (List.mem_singleton.1 h))

theorem fold_wideGap {n : Nat} {c : CodePoint} (h : c ∈ wideGap n) : asciiTable.fold c = [c] := by
  rcases mem_wideGap h with rfl | rfl | rfl <;> decide

theorem fold_space : asciiTable.fold (ch ' ') = [ch ' '] := by decide

/-- Of the characters behind the first letter, only the second letter is left. -/
theorem collapse_gap (n m : Nat) :
    collapseFrom true true (asciiTable.foldedFrom m (List.replicate n (ch ' ') ++ txt "b")) = [(ch 'b', m + n)] := by
  induction n generalizing m with
  | zero => rfl
  | succ n ih =>
    rw [List.replicate_succ, List.cons_append, CharTable.foldedFrom, fold_space, List.map_singleton,
      List.singleton_append, collapseFrom, if_pos (show isSpace (ch ' ') = true by decide), if_neg (by decide), ih,
      Nat.add_assoc, Nat.add_comm 1 n]

theorem mem_folded_wideGap {n : Nat} {x : CodePoint × Nat} (h : x ∈ asciiTable.folded (wideGap n)) :
    x.1 ∈ wideGap n := by
  obtain ⟨d, hd, hx⟩ := mem_folded h
  rw [fold_wideGap hd] at hx
  rwa [List.mem_singleton.1 hx]

theorem removeSoftHyphens_wideGap (n : Nat) :
    removeSoftHyphens (asciiTable.folded (wideGap n)) = asciiTable.folded (wideGap n) := by
  refine List.filter_eq_self.2 fun x hx => decide_eq_true ?_
  rcases mem_wideGap (mem_folded_wideGap hx) with h | h | h <;> rw [h] <;> decide

theorem dehyphenate_wideGap (n : Nat) :
    asciiTable.dehyphenateFrom false (asciiTable.folded (wideGap n)) = asciiTable.folded (wideGap n) := by
  refine dehyphenateFrom_of_no_hyphen fun x hx => ?_
  rcases mem_wideGap (mem_folded_wideGap hx) with h | h | h <;> rw [h] <;> decide

/-- With its white space collapsed, there is one space between the letters. -/
theorem projectedText_wideGap (n : Nat) : projectedText asciiTable .whitespace (wideGap (n + 1)) = txt "a b" := by
  show (popSpace (collapseFrom false false (asciiTable.dehyphenateFrom false
    (removeSoftHyphens (asciiTable.folded (wideGap (n + 1))))))).map Prod.fst = _
  have hfirst : asciiTable.fold (ch 'a') = [ch 'a'] := by decide
  have hcollapse : collapseFrom false false (asciiTable.folded (wideGap (n + 1))) =
      [(ch 'a', 0), (ch ' ', 1), (ch 'b', n + 2)] := by
    unfold CharTable.folded wideGap
    rw [CharTable.foldedFrom, hfirst, List.map_singleton, List.singleton_append, collapseFrom,
      if_neg (show ¬ isSpace (ch 'a') = true by decide), List.replicate_succ, List.cons_append, CharTable.foldedFrom,
      fold_space, List.map_singleton, List.singleton_append, collapseFrom,
      if_pos (show isSpace (ch ' ') = true by decide), if_pos (by decide), collapse_gap, Nat.zero_add,
      Nat.add_comm 2 n]
  rw [removeSoftHyphens_wideGap, dehyphenate_wideGap, hcollapse]
  rfl

/-- The query is the text with one space: every mode projects it to itself. -/
theorem projectedQuery_wideGap (mode : MatchMode) : projectedQuery asciiTable mode (wideGap 1) = txt "a b" := by
  have hsoft := removeSoftHyphens_wideGap 1
  cases mode with
  | exact => decide
  | softHyphen => decide
  | dehyphenated =>
    show (asciiTable.dehyphenateFrom false (removeSoftHyphens (asciiTable.folded (wideGap 1)))).map Prod.fst = _
    rw [hsoft, dehyphenate_wideGap]
    decide
  | whitespace => exact projectedText_wideGap 0

/-- The excerpts of a text that is its own query match. -/
theorem excerpts_keep_match_gap :
    (∃ excerpt, streamingQueryExcerpt asciiTable (wideGap 1) (wideGap 1) = some excerpt ∧
      IsExcerpt maxStreamingQueryExcerptChars excerpt (wideGap 1) ∧
      asciiTable.matchDocumentText (some excerpt) (wideGap 1) ≠ none) ∧
    ∃ excerpt, contentMatch asciiTable (wideGap 1) (wideGap 1) = some (1, excerpt, .exact) ∧
      IsExcerpt maxDocumentContentExcerptChars excerpt (wideGap 1) ∧
      asciiTable.matchDocumentText (some excerpt) (wideGap 1) ≠ none := by
  have hfound : asciiTable.matchDocumentText (some (wideGap 1)) (wideGap 1) = some ⟨1, .exact, 0, 3⟩ := by decide
  obtain ⟨⟨streamed, hstreamed, hpart, hmatch⟩, content, hcontent, hpart', hmatch'⟩ := excerpts_keep_match hfound
  exact ⟨⟨streamed, hstreamed, hpart, hmatch (by decide)⟩, content, hcontent, hpart', hmatch' (by decide)⟩

theorem wideGap_matches (n : Nat) : asciiTable.matchDocumentText (some (wideGap (n + 1))) (wideGap 1) ≠ none := by
  intro hnone
  rcases matchDocumentText_eq_none.1 hnone .whitespace with hquery | hin
  · rw [projectedQuery_wideGap] at hquery
    exact absurd hquery (by decide)
  · rw [projectedQuery_wideGap, projectedText_wideGap] at hin
    exact hin (List.infix_refl _)

/-- A match starts at the first letter. -/
theorem wideGap_start {n : Nat} {found : DocumentTextMatch}
    (hfound : asciiTable.matchDocumentText (some (wideGap n)) (wideGap 1) = some found) : found.sourceStart = 0 := by
  obtain ⟨k, first, last, -, hk, hkq, hfirst, -, heq⟩ := exists_of_match hfound
  have hletter : first.1 = ch 'a' := by
    have hhead := congrArg List.head? hkq
    rw [List.head?_map, hfirst, projectedQuery_wideGap] at hhead
    exact Option.some.inj hhead
  have hmem : first ∈ asciiTable.folded (wideGap n) := by
    refine (mem_repaired (hk.subset (List.mem_of_mem_head? hfirst))).resolve_left fun hspace => ?_
    rw [hletter] at hspace
    exact absurd hspace (by decide)
  have hstart : found.sourceStart = first.2 := congrArg DocumentTextMatch.sourceStart heq
  rw [hstart]
  have hfold : asciiTable.fold (ch 'a') = [ch 'a'] := by decide
  unfold CharTable.folded wideGap at hmem
  rw [CharTable.foldedFrom, hfold, List.map_singleton, List.singleton_append] at hmem
  rcases List.mem_cons.1 hmem with rfl | hmem
  · rfl
  · obtain ⟨d, hd, hin⟩ := mem_foldedFrom hmem
    rw [fold_wideGap (n := n) (List.mem_cons_of_mem _ hd), hletter] at hin
    rcases List.mem_append.1 hd with hd | hd
    · rw [List.eq_of_mem_replicate hd] at hin
      exact absurd hin (by decide)
    · rw [List.mem_singleton.1 hd] at hin
      exact absurd hin (by decide)

/-- An excerpt that ends before the second letter does not match. -/
theorem wideGap_cut {n radius limit : Nat} {found : DocumentTextMatch} (hlimit : limit ≤ n + 1)
    (hfound : asciiTable.matchDocumentText (some (wideGap n)) (wideGap 1) = some found) :
    asciiTable.matchDocumentText (some ((aroundMatch radius (wideGap n) found).take limit)) (wideGap 1) = none := by
  refine matchDocumentText_eq_none.2 fun mode => .inr fun hin => ?_
  unfold aroundMatch at hin
  rw [take_sourceSpan, wideGap_start hfound, projectedQuery_wideGap] at hin
  have hletter := hin.subset (show ch 'b' ∈ txt "a b" by decide)
  rcases mem_projectedText hletter with hspace | ⟨d, hd, hfold⟩
  · exact absurd hspace (by decide)
  · have hbefore : d ∈ ch 'a' :: List.replicate n (ch ' ') := by
      have htaken : ch 'a' :: List.replicate n (ch ' ') = (wideGap n).take (n + 1) := by
        unfold wideGap
        rw [List.take_succ_cons, List.take_left' (List.length_replicate)]
      rw [htaken]
      unfold sourceSpan at hd
      rw [Nat.zero_sub, List.drop_zero] at hd
      exact List.take_subset_take_left _ (by omega) hd
    rcases List.mem_cons.1 hbefore with rfl | hd
    · exact absurd hfold (by decide)
    · rw [List.eq_of_mem_replicate hd] at hfold
      exact absurd hfold (by decide)

/-- Behind 2048 spaces, the end of the match is in no excerpt. -/
theorem wideGap_unmatched : asciiTable.matchDocumentText (some (wideGap 2048)) (wideGap 1) ≠ none ∧
    (∀ excerpt ∈ streamingQueryExcerpt asciiTable (wideGap 2048) (wideGap 1),
      asciiTable.matchDocumentText (some excerpt) (wideGap 1) = none) ∧
    ∀ count excerpt mode, contentMatch asciiTable (wideGap 2048) (wideGap 1) = some (count, excerpt, mode) →
      asciiTable.matchDocumentText (some excerpt) (wideGap 1) = none := by
  refine ⟨wideGap_matches 2047, fun excerpt hexcerpt => ?_, fun count excerpt mode hcontent => ?_⟩
  · obtain ⟨found, hfound, rfl⟩ := Option.map_eq_some_iff.1 (Option.mem_def.1 hexcerpt)
    exact wideGap_cut (by decide) hfound
  · obtain ⟨found, hfound, heq⟩ := Option.map_eq_some_iff.1 hcontent
    have hexcerpt := congrArg (fun result => result.2.1) heq
    dsimp only at hexcerpt
    rw [take_of_long] at hexcerpt
    rw [← hexcerpt]
    exact wideGap_cut (by decide) hfound

end Steward.Documents
