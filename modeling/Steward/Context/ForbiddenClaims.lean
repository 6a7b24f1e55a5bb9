import Steward.Context.Validity

/-!
# Forbidden claims

The hard boundary of `validate_interpretation_result` is a search of the model's
text for forbidden patterns. `_all_text` lists the fields that are searched; a
claim in a qualification, in missing information or in a competing explanation
is not found.
-/

namespace Steward.Context

open Py Sqlite

/-- The fields of the model's text that `_all_text` leaves out. -/
def unscannedText (result : LLMInterpretationResult) : List Text :=
  result.interpretations.flatMap InterpretationItem.qualifications ++
    result.hypotheses.flatMap HypothesisItem.missingInformation ++
    result.hypotheses.filterMap HypothesisItem.competingExplanation ++
    result.hypotheses.filterMap HypothesisItem.discriminatingObservation ++
    result.explorations.flatMap ExplorationItem.missingInformation

/-- All the text of a result that the model writes. -/
def modelText (result : LLMInterpretationResult) : List Text := allText result ++ unscannedText result

/-- A forbidden pattern is found in one of the texts. -/
def Matches (table : CaseTable) (p : Text × Pattern) (texts : List Text) : Prop :=
  ∃ text ∈ texts, p.2.search table text = true

theorem mem_violations {checks : List Check} {code : Text} :
    code ∈ violations checks ↔ ∃ c ∈ checks, c.1 = true ∧ c.2 = code := by
  unfold violations
  have hfold : ∀ codes : List Text,
      code ∈ checks.foldl (fun codes c => if c.1 ∧ c.2 ∉ codes then codes ++ [c.2] else codes) codes ↔
        code ∈ codes ∨ ∃ c ∈ checks, c.1 = true ∧ c.2 = code := by
    induction checks with
    | nil => simp
    | cons c checks ih =>
      intro codes
      rw [List.foldl_cons, ih, List.exists_mem_cons_iff]
      by_cases hc : c.1 = true ∧ c.2 ∉ codes
      · rw [if_pos hc, List.mem_append, List.mem_singleton, or_assoc, eq_comm (a := code)]
        simp [hc.1]
      · rw [if_neg hc]
        refine ⟨fun h => h.imp_right .inr, fun h => ?_⟩
        rcases h with h | ⟨hviolated, rfl⟩ | h
        · exact .inl h
        · exact .inl (not_not.1 fun hfresh => hc ⟨hviolated, hfresh⟩)
        · exact .inr h
  rw [hfold, or_iff_right List.not_mem_nil]

/-! ## The codes of the other checks -/

/-- A check that reports no forbidden claim. -/
def Structural (c : Check) : Prop := c.2 ∉ forbiddenPatterns.map Prod.fst

theorem structural_check {violated : Prop} [Decidable violated] {code : String}
    (h : txt code ∉ forbiddenPatterns.map Prod.fst) : Structural (check violated code) := h

section

variable {F : Type} {packet : LLMContextPacket F} {digest : Text} {result : LLMInterpretationResult}

theorem structural_contextPacketChecks : ∀ c ∈ contextPacketChecks packet digest, Structural c := by
  unfold contextPacketChecks
  simp only [List.forall_mem_append, List.forall_mem_cons, List.mem_flatMap]
  refine ⟨⟨?_, ?_, ?_, ?_, ?_, by simp⟩, ?_⟩
  iterate 5 exact structural_check (by decide)
  rintro c ⟨r, -, hc⟩
  simp only [List.mem_cons, List.not_mem_nil, or_false] at hc
  rcases hc with rfl | rfl <;> exact structural_check (by decide)

theorem structural_itemChecks (packet : LLMContextPacket F) (result : LLMInterpretationResult) :
    (∀ c ∈ referenceChecks (tokens packet) result, Structural c) ∧
      (∀ c ∈ result.observations.flatMap observationChecks, Structural c) ∧
      (∀ c ∈ result.interpretations.flatMap interpretationChecks, Structural c) ∧
      (∀ c ∈ result.hypotheses.flatMap hypothesisChecks, Structural c) ∧
      ∀ c ∈ result.explorations.flatMap (explorationChecks packet), Structural c := by
  unfold referenceChecks observationChecks interpretationChecks hypothesisChecks explorationChecks
  simp only [List.mem_flatMap, List.mem_cons, List.not_mem_nil, or_false]
  refine ⟨?_, ?_, ?_, ?_, ?_⟩
  · rintro c (rfl | rfl | rfl | rfl) <;> exact structural_check (by decide)
  · rintro c ⟨o, -, rfl | rfl⟩ <;> exact structural_check (by decide)
  · rintro c ⟨i, -, rfl⟩
    exact structural_check (by decide)
  · rintro c ⟨h, -, rfl | rfl⟩ <;> exact structural_check (by decide)
  · rintro c ⟨e, -, rfl | rfl | rfl⟩ <;> exact structural_check (by decide)

/-- A forbidden claim is reported for a text that is searched, and for nothing else. -/
theorem mem_resultChecks {table : CaseTable} {c : Check} (hc : c ∈ resultChecks table packet result)
    (hclaim : ¬ Structural c) :
    ∃ text ∈ allText result, ∃ p ∈ forbiddenPatterns, c = (p.2.search table text, p.1) := by
  obtain ⟨hreferences, hobservations, hinterpretations, hhypotheses, hexplorations⟩ := structural_itemChecks packet result
  unfold resultChecks at hc
  simp only [List.mem_append] at hc
  rcases hc with (((((hc | hc) | hc) | hc) | hc) | hc) | hc
  · simp only [List.mem_cons, List.not_mem_nil, or_false] at hc
    rcases hc with rfl | rfl | rfl <;> exact absurd (structural_check (by decide)) hclaim
  · exact absurd (hreferences c hc) hclaim
  · exact absurd (hobservations c hc) hclaim
  · exact absurd (hinterpretations c hc) hclaim
  · exact absurd (hhypotheses c hc) hclaim
  · exact absurd (hexplorations c hc) hclaim
  · obtain ⟨text, htext, hc⟩ := List.mem_flatMap.1 hc
    obtain ⟨p, hp, rfl⟩ := List.mem_map.1 hc
    exact ⟨text, htext, p, hp, rfl⟩

end

/-! ## What is reported -/

section

variable {F : Type} [SqliteFloat F]

/-- The validation reports an invalid result, with this code. -/
def Reported (table : CaseTable) (packet : LLMContextPacket F) (result : LLMInterpretationResult) (code : Text) :
    Prop :=
  ∃ v, validateInterpretationResult table packet result = .ok v ∧ v.status = .invalid ∧ code ∈ v.violations

variable {table : CaseTable} {packet : LLMContextPacket F} {result : LLMInterpretationResult}

/-- A pattern is reported when the packet can be encoded and a searched field matches. -/
theorem reported_iff {p : Text × Pattern} (hp : p ∈ forbiddenPatterns) :
    Reported table packet result p.1 ↔ Ok (packetDigest packet) ∧ Matches table p (allText result) := by
  have hcodes : (forbiddenPatterns.map Prod.fst).Nodup := by decide
  constructor
  · rintro ⟨v, hv, -, hcode⟩
    obtain ⟨digest, hdigest, hv⟩ := bind_eq_ok.1 hv
    cases hv
    refine ⟨⟨digest, hdigest⟩, ?_⟩
    have hclaim : ∀ c : Check, c.2 = p.1 → ¬ Structural c := fun c hc hstructural =>
      hstructural (hc ▸ List.mem_map_of_mem hp)
    obtain ⟨c, hc, hviolated, hcp⟩ := mem_violations.1 (mem_sortedBy.1 hcode)
    rcases List.mem_append.1 hc with hc | hc
    · exact absurd (structural_contextPacketChecks c hc) (hclaim c hcp)
    · obtain ⟨text, htext, q, hq, rfl⟩ := mem_resultChecks hc (hclaim c hcp)
      obtain rfl : q = p := List.inj_on_of_nodup_map hcodes hq hp hcp
      exact ⟨text, htext, hviolated⟩
  · rintro ⟨⟨digest, hdigest⟩, text, htext, hfound⟩
    have hmem : p.1 ∈ violations (contextPacketChecks packet digest ++ resultChecks table packet result) := by
      refine mem_violations.2 ⟨(true, p.1), List.mem_append_right _ (List.mem_append_right _ ?_), rfl, rfl⟩
      exact List.mem_flatMap.2 ⟨text, htext, List.mem_map.2 ⟨p, hp, by rw [hfound]⟩⟩
    refine ⟨_, bind_eq_ok.2 ⟨digest, hdigest, rfl⟩, if_neg fun hnil => ?_, mem_sortedBy.2 hmem⟩
    rw [hnil] at hmem
    cases hmem

/-- A forbidden claim is reported wherever it appears, as far as it appears in a searched field. -/
theorem forbidden_claims_iff :
    (∀ p ∈ forbiddenPatterns, Matches table p (modelText result) → Reported table packet result p.1) ↔
      ∀ p ∈ forbiddenPatterns, Matches table p (modelText result) →
        Ok (packetDigest packet) ∧ Matches table p (allText result) :=
  forall₂_congr fun _ hp => imp_congr_right fun _ => reported_iff hp

end

/-- A result whose one interpretation is qualified by a forbidden claim. -/
def qualified : LLMInterpretationResult where
  protocolVersion := 0
  taskDomain := .staticSnapshot
  status := .completed
  summary := txt "One file."
  observations := []
  interpretations := [⟨.interpretation, txt "Old.", [txt "entry-1"], [txt "safe to delete"]⟩]
  hypotheses := []
  explorations := []
  unknowns := []
  limitations := []
  evidenceReferences := [txt "entry-1"]

/-- The claim is not reported. -/
theorem qualified_passes : ∃ p ∈ forbiddenPatterns, Matches Sample.table p (modelText qualified) ∧
    ¬ Reported Sample.table Sample.packet qualified p.1 := by
  have hp : forbiddenPatterns.head (by decide) ∈ forbiddenPatterns := List.head_mem _
  refine ⟨_, hp, ⟨txt "safe to delete", by decide, by decide⟩, fun hreported => ?_⟩
  obtain ⟨-, text, htext, hfound⟩ := (reported_iff hp).1 hreported
  have htexts : ∀ text ∈ allText qualified, (forbiddenPatterns.head (by decide)).2.search Sample.table text = false := by
    decide
  rw [htexts text htext] at hfound
  cases hfound

end Steward.Context
