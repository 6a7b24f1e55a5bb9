import Steward.Documents.TextProjection

/-!
# Matching text

A query is looked for in the projections of a text, mode by mode, and the first
match is reported as a span of the text. The span suffices for the match:
`matchDocumentText_spans`.
-/

namespace Steward.Documents

open Py

structure DocumentTextMatch where
  count : Nat
  mode : MatchMode
  sourceStart : Nat
  sourceEnd : Nat
  deriving DecidableEq, Repr

/-- One strategy of the loop. -/
def CharTable.matchWith (T : CharTable) (value query : Text) (mode : MatchMode) : Option DocumentTextMatch :=
  let projectedValue := T.variant mode value
  let projectedQuery := (T.variant mode query).map Prod.fst
  if projectedQuery = [] ∨ projectedValue = [] then none
  else
    match Text.find projectedQuery (projectedValue.map Prod.fst) with
    | none => none
    | some start =>
      let stop := start + projectedQuery.length
      match projectedValue[start]?, projectedValue[stop - 1]? with
      | some first, some last =>
        some ⟨Text.count projectedQuery (projectedValue.map Prod.fst), mode, first.2, last.2 + 1⟩
      | _, _ => none

/-- `match_document_text` -/
def CharTable.matchDocumentText (T : CharTable) (value : Option Text) (query : Text) : Option DocumentTextMatch :=
  match value with
  | none => none
  | some value => if query = [] then none else Named.all.findSome? (T.matchWith value query)

/-! ## Offsets -/

/-- The same characters, `n` further on. -/
def shift (n : Nat) (p : Projected) : Projected := p.map fun x => (x.1, n + x.2)

theorem map_fst_shift {n : Nat} {p : Projected} : (shift n p).map Prod.fst = p.map Prod.fst := by
  rw [shift, List.map_map]
  rfl

section
variable {T : CharTable}

theorem foldedFrom_shift (n m : Nat) (s : Text) : T.foldedFrom (n + m) s = shift n (T.foldedFrom m s) := by
  induction s generalizing m with
  | nil => rfl
  | cons c s ih =>
    rw [CharTable.foldedFrom, CharTable.foldedFrom, shift, List.map_append, List.map_map, Nat.add_assoc, ih]
    rfl

theorem joined_shift (n : Nat) (p : Projected) : T.joined (shift n p) = (T.joined p).map (shift n) := by
  have hdrop (q : CodePoint → Bool) (p : Projected) :
      (shift n p).dropWhile (fun x => q x.1) = shift n (p.dropWhile fun x => q x.1) := List.dropWhile_map
  unfold CharTable.joined
  dsimp only
  rw [hdrop, hdrop, hdrop]
  simp only [shift, List.length_map]
  split_ifs with hlt
  · cases ((p.dropWhile fun x => isBlank x.1).dropWhile fun x => isBreak x.1).dropWhile fun x => isBlank x.1 with
    | nil => rfl
    | cons x tail =>
      simp only [List.map_cons]
      split_ifs <;> rfl
  · rfl

theorem dehyphenateFrom_shift (n : Nat) (word : Bool) (p : Projected) :
    T.dehyphenateFrom word (shift n p) = shift n (T.dehyphenateFrom word p) := by
  induction hn : p.length using Nat.strong_induction_on generalizing p word with
  | _ l ih =>
    cases p with
    | nil =>
      rw [CharTable.dehyphenateFrom_nil]
      exact CharTable.dehyphenateFrom_nil word
    | cons x rest =>
      simp only [List.length_cons] at hn
      show T.dehyphenateFrom word ((x.1, n + x.2) :: shift n rest) = _
      by_cases hjoin : isHyphen x.1 = true ∧ word = true ∧ ∃ skip tail, T.Joins rest skip tail
      · obtain ⟨hx, rfl, skip, tail, h⟩ := hjoin
        have hlen := congrArg List.length h.split
        rw [List.length_append] at hlen
        have hshift : T.joined (shift n rest) = some (shift n tail) := by
          rw [joined_shift, CharTable.joined_of_joins h]
          rfl
        obtain ⟨skip', h'⟩ := CharTable.joins_of_joined hshift
        rw [CharTable.dehyphenateFrom_joins hx h, @CharTable.dehyphenateFrom_joins T (x.1, n + x.2) _ _ _ hx h',
          ih tail.length (by omega) true tail rfl]
      · have hshift : ¬ (isHyphen x.1 = true ∧ word = true ∧ ∃ skip tail, T.Joins (shift n rest) skip tail) := by
          rintro ⟨hx, hword, skip, tail, h⟩
          have hj := CharTable.joined_of_joins h
          rw [joined_shift] at hj
          obtain ⟨tail', htail', -⟩ := Option.map_eq_some_iff.1 hj
          obtain ⟨skip', h'⟩ := CharTable.joins_of_joined htail'
          exact hjoin ⟨hx, hword, skip', tail', h'⟩
        rw [CharTable.dehyphenateFrom_kept hjoin, @CharTable.dehyphenateFrom_kept T word (x.1, n + x.2) _ hshift,
          ih rest.length (by omega) (T.isAlnum x.1) rest rfl]
        rfl

theorem collapseFrom_shift (n : Nat) (started space : Bool) (p : Projected) :
    collapseFrom started space (shift n p) = shift n (collapseFrom started space p) := by
  induction p generalizing started space with
  | nil => rfl
  | cons x p ih =>
    show collapseFrom started space ((x.1, n + x.2) :: shift n p) = _
    rw [collapseFrom, collapseFrom]
    split_ifs
    · rw [ih]
      rfl
    · rw [ih]
    · rw [ih]
      rfl

theorem popSpace_shift (n : Nat) (p : Projected) : popSpace (shift n p) = shift n (popSpace p) := by
  have hlast : (shift n p).getLast?.map Prod.fst = p.getLast?.map Prod.fst := by
    rw [shift, List.getLast?_map, Option.map_map]
    rfl
  unfold popSpace
  rw [hlast]
  split_ifs
  · exact List.map_dropLast.symm
  · rfl

theorem removeSoftHyphens_shift (n : Nat) (p : Projected) :
    removeSoftHyphens (shift n p) = shift n (removeSoftHyphens p) := List.filter_map

/-- Repairs do not look at the offsets. -/
theorem repaired_shift (n : Nat) (mode : MatchMode) (p : Projected) :
    T.repaired mode (shift n p) = shift n (T.repaired mode p) := by
  cases mode with
  | exact => rfl
  | softHyphen => exact removeSoftHyphens_shift n p
  | dehyphenated =>
    show T.dehyphenateFrom false _ = shift n (T.dehyphenateFrom false _)
    rw [removeSoftHyphens_shift, dehyphenateFrom_shift]
  | whitespace =>
    show popSpace (collapseFrom false false (T.dehyphenateFrom false _)) =
      shift n (popSpace (collapseFrom false false (T.dehyphenateFrom false _)))
    rw [removeSoftHyphens_shift, dehyphenateFrom_shift, collapseFrom_shift, popSpace_shift]

/-! ## What a cut keeps -/

theorem foldedFrom_append (n : Nat) (s t : Text) :
    T.foldedFrom n (s ++ t) = T.foldedFrom n s ++ T.foldedFrom (n + s.length) t := by
  induction s generalizing n with
  | nil => rfl
  | cons c s ih =>
    have hlen : n + 1 + s.length = n + (c :: s).length := by
      rw [List.length_cons]
      omega
    rw [List.cons_append, CharTable.foldedFrom, CharTable.foldedFrom, ih, hlen, List.append_assoc]

theorem offset_foldedFrom {n : Nat} {s : Text} {x : CodePoint × Nat} (hx : x ∈ T.foldedFrom n s) :
    n ≤ x.2 ∧ x.2 < n + s.length := by
  induction s generalizing n with
  | nil => cases hx
  | cons c s ih =>
    rw [List.length_cons]
    rw [CharTable.foldedFrom] at hx
    rcases List.mem_append.1 hx with hx | hx
    · obtain ⟨part, -, rfl⟩ := List.mem_map.1 hx
      dsimp only
      omega
    · have := ih hx
      omega

theorem sorted_foldedFrom (n : Nat) (s : Text) : (T.foldedFrom n s).Pairwise fun x y => x.2 ≤ y.2 := by
  induction s generalizing n with
  | nil => exact List.Pairwise.nil
  | cons c s ih =>
    rw [CharTable.foldedFrom, List.pairwise_append]
    refine ⟨?_, ih (n + 1), fun x hx y hy => ?_⟩
    · rw [List.pairwise_map]
      exact List.pairwise_of_forall fun _ _ => Nat.le_refl n
    · obtain ⟨part, -, rfl⟩ := List.mem_map.1 hx
      have := offset_foldedFrom hy
      dsimp only
      omega

/-- A part none of whose characters lies in front lies behind. -/
theorem infix_behind {a b m : Projected} (hm : m <:+: a ++ b) (hne : m ≠ []) (hnot : ∀ x ∈ m, x ∉ a) : m <:+: b := by
  obtain ⟨u, v, huv⟩ := hm
  rw [List.append_assoc] at huv
  rcases List.append_eq_append_iff.1 huv with ⟨a', ha, hv⟩ | ⟨u', rfl, hb⟩
  · cases a' with
    | nil => exact ⟨[], v, by rw [List.nil_append, ← List.nil_append b]; exact hv⟩
    | cons y a' =>
      obtain ⟨x, m, rfl⟩ := List.exists_cons_of_ne_nil hne
      refine absurd ?_ (hnot x List.mem_cons_self)
      rw [ha, (List.cons.inj hv).1]
      exact List.mem_append_right _ List.mem_cons_self
  · exact ⟨u', v, by rw [hb, List.append_assoc]⟩

/-- A part none of whose characters lies behind lies in front. -/
theorem infix_ahead {a b m : Projected} (hm : m <:+: a ++ b) (hne : m ≠ []) (hnot : ∀ x ∈ m, x ∉ b) : m <:+: a := by
  have hrev : m.reverse <:+: b.reverse ++ a.reverse := by
    rw [← List.reverse_append]
    exact List.reverse_infix.2 hm
  have hback := infix_behind hrev (fun h => hne (List.reverse_eq_nil_iff.1 h)) fun x hx hb =>
    hnot x (List.mem_reverse.1 hx) (List.mem_reverse.1 hb)
  exact List.reverse_infix.1 hback

variable {pre mid post m : Projected} {lo hi : Nat} {mode : MatchMode}

/-- The parts of a text before, inside and after a span of offsets. -/
structure Parts (pre mid post : Projected) (lo hi : Nat) : Prop where
  pre : ∀ x ∈ pre, x.2 < lo
  post : ∀ x ∈ post, hi ≤ x.2

theorem Parts.soft (h : Parts pre mid post lo hi) :
    Parts (removeSoftHyphens pre) (removeSoftHyphens mid) (removeSoftHyphens post) lo hi :=
  ⟨fun x hx => h.pre x (List.mem_of_mem_filter hx), fun x hx => h.post x (List.mem_of_mem_filter hx)⟩

theorem Parts.infix (h : Parts pre mid post lo hi) (hm : m <:+: pre ++ (mid ++ post)) (hne : m ≠ [])
    (hin : ∀ x ∈ m, lo ≤ x.2 ∧ x.2 < hi) : m <:+: mid := by
  refine infix_ahead (infix_behind hm hne fun x hx hpre => ?_) hne fun x hx hpost => ?_
  · exact absurd (h.pre x hpre) (by have := hin x hx; omega)
  · exact absurd (h.post x hpost) (by have := hin x hx; omega)

/-- A part of the dehyphenated text is a part of what is dehyphenated of its span. -/
theorem Parts.dehyphenated (h : Parts pre mid post lo hi) (hm : m <:+: T.dehyphenateFrom false (pre ++ (mid ++ post)))
    (hne : m ≠ []) (hin : ∀ x ∈ m, lo ≤ x.2 ∧ x.2 < hi) : m <:+: T.dehyphenateFrom false mid := by
  obtain ⟨kept, rest, heq, hkept, hrest⟩ := CharTable.dehyphenateFrom_append_left (T := T) false pre (mid ++ post)
  obtain ⟨kept', rest', heq', hkept', hrest'⟩ := CharTable.dehyphenateFrom_append_right (T := T) false mid post
  rw [heq] at hm
  have hbehind : m <:+: rest := infix_behind hm hne fun x hx hk =>
    absurd (h.pre x (hkept hk)) (by have := hin x hx; omega)
  have hwhole : m <:+: kept' ++ rest' := by
    rw [← heq']
    exact hbehind.trans hrest.isInfix
  have hahead : m <:+: kept' := infix_ahead hwhole hne fun x hx hk =>
    absurd (h.post x (hrest' hk)) (by have := hin x hx; omega)
  exact hahead.trans hkept'.isInfix

/-- In offset order the first and the last character bound the others. -/
theorem bounds_of_sorted {p : Projected} (hp : p.Pairwise fun x y => x.2 ≤ y.2) {first last : CodePoint × Nat}
    (hfirst : p.head? = some first) (hlast : p.getLast? = some last) : ∀ x ∈ p, first.2 ≤ x.2 ∧ x.2 ≤ last.2 := by
  intro x hx
  constructor
  · obtain ⟨p, rfl⟩ := List.head?_eq_some_iff.1 hfirst
    rcases List.mem_cons.1 hx with rfl | hx
    · exact Nat.le_refl _
    · exact List.rel_of_pairwise_cons hp hx
  · obtain ⟨p, rfl⟩ := List.getLast?_eq_some_iff.1 hlast
    rcases List.mem_append.1 hx with hx | hx
    · exact (List.pairwise_append.1 hp).2.2 x hx last (List.mem_singleton_self _)
    · rw [List.mem_singleton.1 hx]

/-- A part of a repaired text is a part of what repairing a span around it gives, where collapsing the
part begins and ends with characters that are not white space. -/
theorem Parts.repaired {k : Projected} {first last : CodePoint × Nat} (h : Parts pre mid post lo hi)
    (hlo : lo ≤ first.2) (hhi : last.2 < hi)
    (hsorted : (pre ++ (mid ++ post)).Pairwise fun x y => x.2 ≤ y.2)
    (hk : k <:+: T.repaired mode (pre ++ (mid ++ post)))
    (hfirst : k.head? = some first) (hlast : k.getLast? = some last)
    (hwords : mode = .whitespace → isSpace first.1 = false ∧ isSpace last.1 = false) : k <:+: T.repaired mode mid := by
  have hne {p : Projected} (hp : p.head? = some first) : p ≠ [] := by
    rintro rfl
    cases hp
  have hin {p q : Projected} (hp : p <:+: q) (hq : q.Pairwise fun x y => x.2 ≤ y.2) (hf : p.head? = some first)
      (hl : p.getLast? = some last) : ∀ x ∈ p, lo ≤ x.2 ∧ x.2 < hi := by
    intro x hx
    have := bounds_of_sorted (hq.sublist hp.sublist) hf hl x hx
    omega
  have hsoft : (removeSoftHyphens (pre ++ (mid ++ post))).Pairwise fun x y => x.2 ≤ y.2 :=
    hsorted.sublist List.filter_sublist
  have hsplit : removeSoftHyphens (pre ++ (mid ++ post)) =
      removeSoftHyphens pre ++ (removeSoftHyphens mid ++ removeSoftHyphens post) := by
    unfold removeSoftHyphens
    rw [List.filter_append, List.filter_append]
  cases mode with
  | exact => exact h.infix hk (hne hfirst) (hin hk hsorted hfirst hlast)
  | softHyphen =>
    have hbounds := hin hk hsoft hfirst hlast
    change k <:+: removeSoftHyphens (pre ++ (mid ++ post)) at hk
    rw [hsplit] at hk
    exact h.soft.infix hk (hne hfirst) hbounds
  | dehyphenated =>
    have hbounds := hin hk (hsoft.sublist (CharTable.dehyphenateFrom_sublist false _)) hfirst hlast
    change k <:+: T.dehyphenateFrom false (removeSoftHyphens (pre ++ (mid ++ post))) at hk
    rw [hsplit] at hk
    exact h.soft.dehyphenated hk (hne hfirst) hbounds
  | whitespace =>
    obtain ⟨hfw, hlw⟩ := hwords rfl
    have hcollapsed : k <:+: collapseFrom false false
        (T.dehyphenateFrom false (removeSoftHyphens (pre ++ (mid ++ post)))) := hk.trans popSpace_isPrefix.isInfix
    obtain ⟨m, hm, hmf, hml, hmk⟩ := exists_infix_collapse hfirst hlast hfw hlw hcollapsed
    have hbounds := hin hm (hsoft.sublist (CharTable.dehyphenateFrom_sublist false _)) (hmf.trans hfirst)
      (hml.trans hlast)
    rw [hsplit] at hm
    exact infix_collapseWhitespace hlast hlw
      (h.soft.dehyphenated hm (hne (hmf.trans hfirst)) hbounds) hmk

/-- The text cut at two offsets. -/
theorem parts_folded (value : Text) {lo hi : Nat} (hlo : lo ≤ hi) (hhi : hi ≤ value.length) :
    T.folded value = T.foldedFrom 0 (value.take lo) ++ (T.foldedFrom lo ((value.drop lo).take (hi - lo)) ++
      T.foldedFrom hi (value.drop hi)) ∧
    Parts (T.foldedFrom 0 (value.take lo)) (T.foldedFrom lo ((value.drop lo).take (hi - lo)))
      (T.foldedFrom hi (value.drop hi)) lo hi := by
  have hvalue : value = value.take lo ++ ((value.drop lo).take (hi - lo) ++ value.drop hi) := by
    have hdrop : (value.drop lo).drop (hi - lo) = value.drop hi := by
      rw [List.drop_drop]
      congr 1
      omega
    rw [← hdrop, List.take_append_drop, List.take_append_drop]
  have hbefore : (value.take lo).length = lo := by
    rw [List.length_take]
    omega
  have hinside : ((value.drop lo).take (hi - lo)).length = hi - lo := by
    rw [List.length_take, List.length_drop]
    omega
  refine ⟨?_, fun x hx => ?_, fun x hx => (offset_foldedFrom hx).1⟩
  · unfold CharTable.folded
    conv_lhs => rw [hvalue]
    rw [foldedFrom_append, foldedFrom_append, hbefore, hinside, Nat.zero_add, show lo + (hi - lo) = hi by omega]
  · have := offset_foldedFrom hx
    omega

theorem offsets_collapseFrom {p : Projected} {started space : Bool} :
    ((collapseFrom started space p).map Prod.snd).Sublist (p.map Prod.snd) := by
  induction p generalizing started space with
  | nil => exact List.Sublist.slnil
  | cons x p ih =>
    rw [collapseFrom]
    split_ifs
    · exact ih.cons_cons x.2
    · exact ih.cons x.2
    · exact ih.cons_cons x.2

/-- Repairs keep some of the offsets, in order. -/
theorem offsets_repaired {p : Projected} : ((T.repaired mode p).map Prod.snd).Sublist (p.map Prod.snd) := by
  have hsoft : ((removeSoftHyphens p).map Prod.snd).Sublist (p.map Prod.snd) := List.filter_sublist.map _
  have hjoined : ((T.dehyphenateFrom false (removeSoftHyphens p)).map Prod.snd).Sublist (p.map Prod.snd) :=
    ((CharTable.dehyphenateFrom_sublist false _).map _).trans hsoft
  cases mode with
  | exact => exact List.Sublist.refl _
  | softHyphen => exact hsoft
  | dehyphenated => exact hjoined
  | whitespace => exact (popSpace_isPrefix.sublist.map _).trans (offsets_collapseFrom.trans hjoined)

/-! ## Matches -/

/-- The query as a mode projects it. -/
def projectedQuery (T : CharTable) (mode : MatchMode) (query : Text) : Text := (T.variant mode query).map Prod.fst

/-- The text as a mode projects it. -/
def projectedText (T : CharTable) (mode : MatchMode) (value : Text) : Text := (T.variant mode value).map Prod.fst

/-- `value[start:end]` -/
def sourceSpan (value : Text) (start stop : Nat) : Text := (value.drop start).take (stop - start)

variable {value query : Text}

theorem getElem?_append_of_isInfix {a k b : Projected} {first last : CodePoint × Nat} (hfirst : k.head? = some first)
    (hlast : k.getLast? = some last) : (a ++ k ++ b)[a.length]? = some first ∧
      (a ++ k ++ b)[a.length + k.length - 1]? = some last := by
  have hpos : 0 < k.length := by
    rw [List.length_pos_iff]
    rintro rfl
    cases hfirst
  constructor
  · rw [List.append_assoc, List.getElem?_append_right (Nat.le_refl _), Nat.sub_self,
      List.getElem?_append_left hpos, ← List.head?_eq_getElem?, hfirst]
  · rw [List.append_assoc, List.getElem?_append_right (by omega), List.getElem?_append_left (by omega),
      show a.length + k.length - 1 - a.length = k.length - 1 by omega, ← List.getLast?_eq_getElem?, hlast]

/-- A strategy answers with the first occurrence of the projected query, by the offsets of its ends. -/
theorem matchWith_cases : (T.matchWith value query mode = none ∧
      (projectedQuery T mode query = [] ∨ ¬ projectedQuery T mode query <:+: projectedText T mode value)) ∨
    ∃ k first last, projectedQuery T mode query ≠ [] ∧ k <:+: T.variant mode value ∧
      k.map Prod.fst = projectedQuery T mode query ∧ k.head? = some first ∧ k.getLast? = some last ∧
      T.matchWith value query mode = some ⟨Text.count (projectedQuery T mode query) (projectedText T mode value), mode,
        first.2, last.2 + 1⟩ := by
  unfold CharTable.matchWith
  dsimp only
  change ((if projectedQuery T mode query = [] ∨ T.variant mode value = [] then none else _) = none ∧ _) ∨ _
  by_cases hquery : projectedQuery T mode query = []
  · exact .inl ⟨if_pos (.inl hquery), .inl hquery⟩
  by_cases hvalue : T.variant mode value = []
  · refine .inl ⟨if_pos (.inr hvalue), .inr fun h => hquery ?_⟩
    unfold projectedText at h
    rw [hvalue] at h
    exact List.infix_nil.1 h
  cases hfind : Text.find (projectedQuery T mode query) (projectedText T mode value) with
  | none =>
    refine .inl ⟨?_, .inr (Text.find_eq_none.1 hfind)⟩
    rw [if_neg (not_or.2 ⟨hquery, hvalue⟩)]
    change (match Text.find (projectedQuery T mode query) (projectedText T mode value) with
      | none => none
      | some start => _) = none
    rw [hfind]
  | some start =>
    obtain ⟨pre, post, heq, hstart⟩ := Text.find_eq_some hfind
    obtain ⟨ab, b, hab, hmap, -⟩ := List.map_eq_append_iff.1 heq
    obtain ⟨a, k, rfl, hpre, hk⟩ := List.map_eq_append_iff.1 hmap
    have hne : k ≠ [] := by
      rintro rfl
      exact hquery hk.symm
    obtain ⟨first, hfirst⟩ := Option.isSome_iff_exists.1 (List.isSome_head?.2 hne)
    have hlast := List.getLast?_eq_some_getLast hne
    have hlen : start = a.length := by rw [← hstart, ← hpre, List.length_map]
    have hklen : (projectedQuery T mode query).length = k.length := by rw [← hk, List.length_map]
    obtain ⟨hget, hget'⟩ := @getElem?_append_of_isInfix a k b first _ hfirst hlast
    refine .inr ⟨k, first, _, hquery, ⟨a, b, hab.symm⟩, hk, hfirst, hlast, ?_⟩
    change (if projectedQuery T mode query = [] ∨ T.variant mode value = [] then none
      else match Text.find (projectedQuery T mode query) (projectedText T mode value) with
        | none => none
        | some start =>
          match (T.variant mode value)[start]?,
            (T.variant mode value)[start + (projectedQuery T mode query).length - 1]? with
          | some first, some last => some (DocumentTextMatch.mk
              (Text.count (projectedQuery T mode query) (projectedText T mode value)) mode first.2 (last.2 + 1))
          | _, _ => none) = _
    rw [if_neg (not_or.2 ⟨hquery, hvalue⟩), hfind]
    dsimp only
    rw [hlen, hklen, hab, hget, hget']

/-- The ends of a match in the mode that collapses white space are no white space. -/
theorem ends_of_match {k : Projected} {first last : CodePoint × Nat} (hquery : projectedQuery T mode query ≠ [])
    (hkq : k.map Prod.fst = projectedQuery T mode query) (hfirst : k.head? = some first)
    (hlast : k.getLast? = some last) (hmode : mode = .whitespace) :
    isSpace first.1 = false ∧ isSpace last.1 = false := by
  subst hmode
  have hne : collapseWhitespace (T.dehyphenateLinebreaks (removeSoftHyphens (T.folded query))) ≠ [] := by
    intro hnil
    refine hquery ?_
    show (collapseWhitespace _).map Prod.fst = []
    rw [hnil]
    rfl
  obtain ⟨f, l, hf, hl, hfw, hlw⟩ := trimmed_collapseWhitespace hne
  have hhead := congrArg List.head? hkq
  have htail := congrArg List.getLast? hkq
  rw [List.head?_map, hfirst] at hhead
  rw [List.getLast?_map, hlast] at htail
  have hhead' : some first.1 = some f.1 := by
    refine hhead.trans ?_
    show ((collapseWhitespace _).map Prod.fst).head? = _
    rw [List.head?_map, hf]
    rfl
  have htail' : some last.1 = some l.1 := by
    refine htail.trans ?_
    show ((collapseWhitespace _).map Prod.fst).getLast? = _
    rw [List.getLast?_map, hl]
    rfl
  exact ⟨Option.some.inj hhead' ▸ hfw, Option.some.inj htail' ▸ hlw⟩

/-- The projection of a span around a match has the projected query. -/
theorem window_of_match {k : Projected} {first last : CodePoint × Nat} (hquery : projectedQuery T mode query ≠ [])
    (hk : k <:+: T.variant mode value) (hkq : k.map Prod.fst = projectedQuery T mode query)
    (hfirst : k.head? = some first) (hlast : k.getLast? = some last) (hle : lo ≤ hi) (hhi : hi ≤ value.length)
    (hlo : lo ≤ first.2) (hlt : last.2 < hi) :
    projectedQuery T mode query <:+: projectedText T mode (sourceSpan value lo hi) := by
  obtain ⟨hparts, hcut⟩ := parts_folded (T := T) value hle hhi
  have hmatch : k <:+: T.repaired mode (T.foldedFrom lo (sourceSpan value lo hi)) := by
    refine hcut.repaired hlo hlt ?_ ?_ hfirst hlast (ends_of_match hquery hkq hfirst hlast)
    · rw [← hparts]
      exact sorted_foldedFrom 0 value
    · rw [← hparts]
      exact hk
  have hshift := foldedFrom_shift (T := T) lo 0 (sourceSpan value lo hi)
  rw [Nat.add_zero] at hshift
  rw [hshift, repaired_shift] at hmatch
  have hchars := hmatch.map Prod.fst
  rwa [map_fst_shift, hkq] at hchars

/-- The span of a match lies in the text. -/
theorem span_of_match {k : Projected} {first last : CodePoint × Nat} (hk : k <:+: T.variant mode value)
    (hfirst : k.head? = some first) (hlast : k.getLast? = some last) : first.2 < last.2 + 1 ∧
      last.2 + 1 ≤ value.length := by
  have hsorted : ((T.folded value).map Prod.snd).Pairwise fun x y => x ≤ y :=
    List.pairwise_map.2 (sorted_foldedFrom 0 value)
  have hoffsets : (k.map Prod.snd).Sublist ((T.folded value).map Prod.snd) :=
    (hk.sublist.map _).trans offsets_repaired
  have hbounds := bounds_of_sorted (List.pairwise_map.1 (hsorted.sublist hoffsets)) hfirst hlast
  have hmem : last ∈ k := List.mem_of_getLast? hlast
  have hle : first.2 ≤ last.2 := (hbounds last hmem).1
  obtain ⟨y, hy, hyl⟩ := List.mem_map.1 (hoffsets.subset (List.mem_map_of_mem hmem))
  have hlt : last.2 < value.length := by
    have := (offset_foldedFrom hy).2
    omega
  omega

theorem variant_nil : T.variant mode [] = [] := by
  have hjoin : T.dehyphenateFrom false [] = [] := CharTable.dehyphenateFrom_nil false
  cases mode with
  | exact => rfl
  | softHyphen => rfl
  | dehyphenated => exact hjoin
  | whitespace =>
    show popSpace (collapseFrom false false (T.dehyphenateFrom false [])) = []
    rw [hjoin]
    rfl

theorem matchDocumentText_eq_none : T.matchDocumentText (some value) query = none ↔ ∀ mode : MatchMode,
    projectedQuery T mode query = [] ∨ ¬ projectedQuery T mode query <:+: projectedText T mode value := by
  unfold CharTable.matchDocumentText
  dsimp only
  by_cases hempty : query = []
  · subst hempty
    rw [if_pos rfl]
    refine iff_of_true rfl fun mode => .inl ?_
    unfold projectedQuery
    rw [variant_nil]
    rfl
  · rw [if_neg hempty, List.findSome?_eq_none_iff]
    constructor
    · intro hnone mode
      rcases @matchWith_cases T mode value query with ⟨-, h⟩ | ⟨k, first, last, -, -, -, -, -, h⟩
      · exact h
      · rw [hnone mode (Named.complete mode)] at h
        cases h
    · intro hno mode _
      rcases @matchWith_cases T mode value query with ⟨h, -⟩ | ⟨k, first, last, hne, hk, hkq, -, -, -⟩
      · exact h
      · exact absurd ((hno mode).resolve_left hne) (not_not.2 (hkq ▸ hk.map Prod.fst))

/-- What a match found: a part of the projected text that is the projected query, by the offsets of its ends. -/
theorem exists_of_match {found : DocumentTextMatch} (hfound : T.matchDocumentText (some value) query = some found) :
    ∃ k first last, projectedQuery T found.mode query ≠ [] ∧ k <:+: T.variant found.mode value ∧
      k.map Prod.fst = projectedQuery T found.mode query ∧ k.head? = some first ∧ k.getLast? = some last ∧
      found = ⟨Text.count (projectedQuery T found.mode query) (projectedText T found.mode value), found.mode, first.2,
        last.2 + 1⟩ := by
  unfold CharTable.matchDocumentText at hfound
  dsimp only at hfound
  split_ifs at hfound
  obtain ⟨mode, -, hmode⟩ := List.exists_of_findSome?_eq_some hfound
  rcases @matchWith_cases T mode value query with ⟨h, -⟩ | ⟨k, first, last, hne, hk, hkq, hf, hl, h⟩
  · rw [h] at hmode
    cases hmode
  · rw [h] at hmode
    cases hmode
    exact ⟨k, first, last, hne, hk, hkq, hf, hl, rfl⟩

end

/-- No match is reported exactly when in no mode the projected query is more than nothing and occurs
in the projected text; a match is reported with a span of the text whose projection has the query. -/
theorem matchDocumentText_spans (T : CharTable) (value query : Text) :
    (T.matchDocumentText (some value) query = none ↔ ∀ mode : MatchMode,
      projectedQuery T mode query = [] ∨ ¬ projectedQuery T mode query <:+: projectedText T mode value) ∧
    ∀ found ∈ T.matchDocumentText (some value) query,
      found.sourceStart < found.sourceEnd ∧ found.sourceEnd ≤ value.length ∧
      projectedQuery T found.mode query ≠ [] ∧ 0 < found.count ∧
      projectedQuery T found.mode query <:+:
        projectedText T found.mode (sourceSpan value found.sourceStart found.sourceEnd) := by
  refine ⟨matchDocumentText_eq_none, fun found hfound => ?_⟩
  obtain ⟨k, first, last, hne, hk, hkq, hf, hl, heq⟩ := exists_of_match (Option.mem_def.1 hfound)
  obtain ⟨hlt, hle⟩ := span_of_match hk hf hl
  have hstart : found.sourceStart = first.2 := congrArg DocumentTextMatch.sourceStart heq
  have hend : found.sourceEnd = last.2 + 1 := congrArg DocumentTextMatch.sourceEnd heq
  have hcount : found.count = Text.count (projectedQuery T found.mode query) (projectedText T found.mode value) :=
    congrArg DocumentTextMatch.count heq
  rw [hstart, hend, hcount]
  exact ⟨hlt, hle, hne, (Text.count_pos hne).2 (hkq ▸ hk.map Prod.fst),
    window_of_match hne hk hkq hf hl (Nat.le_of_lt hlt) hle (Nat.le_refl _) (Nat.lt_succ_self _)⟩

/-- Nothing is folded, and no character is a letter or a digit. -/
def plainTable : CharTable where
  fold c := [c]
  isAlnum _ := false
  notAlnum _ _ := rfl

/-- The projection of a soft hyphen without soft hyphens occurs everywhere, and matches nowhere. -/
theorem softHyphen_unmatched : ¬ ∀ (T : CharTable) (value query : Text) (mode : MatchMode),
    T.matchDocumentText (some value) query = none → ¬ projectedQuery T mode query <:+: projectedText T mode value := by
  intro h
  have hjoin : plainTable.dehyphenateFrom false [] = [] := CharTable.dehyphenateFrom_nil false
  have hnone : plainTable.matchDocumentText (some (txt "x")) [softHyphen] = none := by
    refine matchDocumentText_eq_none.2 fun mode => ?_
    cases mode with
    | exact =>
      refine .inr fun hin => ?_
      have hmem : softHyphen ∈ txt "x" := hin.subset (List.mem_singleton_self softHyphen)
      exact absurd hmem (by decide)
    | softHyphen => exact .inl rfl
    | dehyphenated => exact .inl (congrArg (List.map Prod.fst) hjoin)
    | whitespace => exact .inl (congrArg (fun p => (collapseWhitespace p).map Prod.fst) hjoin)
  exact h plainTable (txt "x") [softHyphen] .softHyphen hnone List.nil_infix

end Steward.Documents
