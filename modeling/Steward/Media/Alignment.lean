import Mathlib.Algebra.Order.Ring.Rat
import Steward.Py.Trellis

/-!
# Forced alignment

`ctc_token_frames` of `audio_alignment.py`: the trellis of the scores, row after
row, and the way back through it. Scores are taken from an ordered group, with
`⊥` for the minus infinity of the table.
-/

namespace Steward.Media

open Py

/-- `emission`; its rows from `timeSteps` on are not read. -/
structure Emission (Token Score : Type) where
  timeSteps : Nat
  score : Nat → Token → Score

inductive AlignmentUnavailable
  | cannotCover
  | notAligned
  deriving DecidableEq, Repr

section
variable {Token Score : Type} [AddCommGroup Score] [LinearOrder Score]
variable (emission : Emission Token Score) (tokens : List Token) (blank : Token)

/-- `trellis[time_index + 1]`, from `trellis[time_index]`. -/
def trellisStep (time : Nat) (row : List (WithBot Score)) : List (WithBot Score) :=
  let stay := row.tail.map (· + (emission.score time blank : WithBot Score))
  let change := List.zipWith (fun cell token => cell + (emission.score time token : WithBot Score)) row.dropLast tokens
  ((0 : Score) : WithBot Score) :: List.zipWith max stay change

def trellisRow : Nat → List (WithBot Score)
  | 0 => ((0 : Score) : WithBot Score) :: List.replicate tokens.length ⊥
  | time + 1 => trellisStep emission tokens blank time (trellisRow time)

def trellisCell (time index : Nat) : WithBot Score := (trellisRow emission tokens blank time).getD index ⊥

/-- The loop that goes back; it ends with the index it has reached. -/
def backtrack (exp : Score → Score) : Nat → Nat → List (Nat × Score) → Nat × List (Nat × Score)
  | 0, index, frames => (index, frames)
  | _, 0, frames => (0, frames)
  | time + 1, index + 1, frames =>
    match tokens[index]? with
    | none => (index + 1, frames)
    | some token =>
      let stayed := trellisCell emission tokens blank time (index + 1) + emission.score time blank
      let changed := trellisCell emission tokens blank time index + emission.score time token
      if changed > stayed then backtrack exp time index (frames ++ [(time, exp (emission.score time token))])
      else backtrack exp time (index + 1) frames

/-- `torch.argmax(trellis[:, token_count])`: the first of the greatest. -/
def bestStop : Nat :=
  ((List.range (emission.timeSteps + 1)).argmax fun time =>
    trellisCell emission tokens blank time tokens.length).getD 0

/-- `ctc_token_frames` -/
def ctcTokenFrames (exp : Score → Score) : Except AlignmentUnavailable (List (Nat × Score)) :=
  if tokens = [] ∨ emission.timeSteps < tokens.length then .error .cannotCover
  else
    let (index, frames) := backtrack emission tokens blank exp (bestStop emission tokens blank) tokens.length []
    if index ≠ 0 then .error .notAligned else .ok frames.reverse

/-! ## The trellis -/

/-- The token at an index is taken, or the blank. -/
def moves : Trellis Score where
  stay time := emission.score time blank
  change time index := (tokens[index]?.map (emission.score time)).getD 0

variable {emission tokens blank}

omit [LinearOrder Score] in
theorem moves_stay (emission : Emission Token Score) (tokens : List Token) (blank : Token) (time : Nat) :
    (moves emission tokens blank).stay time = emission.score time blank := rfl

omit [LinearOrder Score] in
theorem moves_change (emission : Emission Token Score) (blank : Token) (time : Nat) {index : Nat} {token : Token}
    (h : tokens[index]? = some token) :
    (moves emission tokens blank).change time index = emission.score time token := by
  show (tokens[index]?.map (emission.score time)).getD 0 = _
  rw [h]
  rfl

/-- A row of the table is a row of cells. -/
theorem trellisRow_eq (time : Nat) : trellisRow emission tokens blank time =
    (List.range (tokens.length + 1)).map ((moves emission tokens blank).cell time) := by
  induction time with
  | zero =>
    rw [trellisRow, List.range_succ_eq_map, List.map_cons, List.map_map]
    refine congrArg₂ List.cons (by rw [Trellis.cell]) (List.ext_getElem (by simp) fun index _ _ => ?_)
    rw [List.getElem_replicate, List.getElem_map, Function.comp_apply, Trellis.cell]
  | succ time ih =>
    have hrow : (List.range (tokens.length + 1)).map ((moves emission tokens blank).cell (time + 1)) =
        ((0 : Score) : WithBot Score) ::
          (List.range tokens.length).map fun index => (moves emission tokens blank).cell (time + 1) (index + 1) := by
      rw [List.range_succ_eq_map, List.map_cons, List.map_map, Trellis.cell]
      rfl
    rw [trellisRow, ih, hrow, trellisStep]
    refine congrArg _ (List.ext_getElem (by simp) fun index hleft _ => ?_)
    have hindex : index < tokens.length := by simpa using hleft
    simp only [List.getElem_zipWith, List.getElem_map, List.getElem_range, List.getElem_dropLast, List.getElem_tail]
    rw [Trellis.cell, moves_change _ _ _ (List.getElem?_eq_getElem hindex)]
    rfl

theorem trellisCell_eq {time index : Nat} (h : index ≤ tokens.length) :
    trellisCell emission tokens blank time index = (moves emission tokens blank).cell time index := by
  unfold trellisCell
  rw [trellisRow_eq, List.getD_eq_getElem?_getD, List.getElem?_map, List.getElem?_range (by omega)]
  rfl

/-- The loop goes back as `trace` does, from a finite cell to the first index. -/
theorem backtrack_eq (exp : Score → Score) {time index : Nat} (hindex : index ≤ tokens.length)
    (hcell : (moves emission tokens blank).cell time index ≠ ⊥) (frames : List (Nat × Score)) :
    ∃ taken, backtrack emission tokens blank exp time index frames = (0, frames ++ taken) ∧
      taken.reverse = ((moves emission tokens blank).trace time index).mapIdx fun position frame =>
        (frame, exp ((moves emission tokens blank).change frame position)) := by
  induction time generalizing index frames with
  | zero =>
    cases index with
    | zero => exact ⟨[], by rw [backtrack, List.append_nil], rfl⟩
    | succ index => exact absurd rfl hcell
  | succ time ih =>
    cases index with
    | zero => exact ⟨[], by rw [backtrack, List.append_nil]; exact fun h => absurd h (Nat.succ_ne_zero time), rfl⟩
    | succ index =>
      have htoken := List.getElem?_eq_getElem (show index < tokens.length by omega)
      rw [backtrack, htoken]
      dsimp only
      rw [trellisCell_eq hindex, trellisCell_eq (by omega), ← moves_change emission blank time htoken,
        ← moves_stay emission tokens blank time]
      rw [Trellis.cell] at hcell
      rw [Trellis.trace]
      by_cases hchange : (moves emission tokens blank).cell time (index + 1) + (moves emission tokens blank).stay time <
          (moves emission tokens blank).cell time index + (moves emission tokens blank).change time index
      · have hfrom : (moves emission tokens blank).cell time index ≠ ⊥ :=
          (WithBot.add_ne_bot.1 (ne_bot_of_gt hchange)).1
        obtain ⟨taken, hback, htaken⟩ := ih (by omega) hfrom
          (frames ++ [(time, exp ((moves emission tokens blank).change time index))])
        refine ⟨(time, exp ((moves emission tokens blank).change time index)) :: taken, ?_, ?_⟩
        · rw [if_pos hchange, hback, List.append_assoc, List.singleton_append]
        · rw [if_pos hchange, List.reverse_cons, htaken, List.mapIdx_concat, (Trellis.trace_spec hfrom).1.length_eq]
      · have hfrom : (moves emission tokens blank).cell time (index + 1) ≠ ⊥ := by
          rw [max_eq_left (not_lt.1 hchange)] at hcell
          exact (WithBot.add_ne_bot.1 hcell).1
        obtain ⟨taken, hback, htaken⟩ := ih hindex hfrom frames
        exact ⟨taken, by rw [if_neg hchange, hback], by rw [if_neg hchange, htaken]⟩

end

/-! ## Optimality -/

section
variable {Token Score : Type} [AddCommGroup Score] [LinearOrder Score]

/-- The scores of the tokens at their frames, and of the blank at the other frames between the first and `stop`. -/
def alignmentScore (emission : Emission Token Score) (tokens : List Token) (blank : Token) (frames : List Nat)
    (stop : Nat) : Score :=
  (List.zipWith emission.score frames tokens).sum + ∑ t ∈ waits frames stop, emission.score t blank

variable {emission : Emission Token Score} {tokens : List Token} {blank : Token}

omit [LinearOrder Score] in
theorem weight_moves {frames : List Nat} (h : frames.length = tokens.length) (stop : Nat) :
    (moves emission tokens blank).weight frames stop = alignmentScore emission tokens blank frames stop := by
  refine congrArg (List.sum · + _) (List.ext_getElem (by simp [h]) fun index hleft _ => ?_)
  have hindex : index < tokens.length := by simpa [h] using hleft
  rw [List.getElem_mapIdx, List.getElem_zipWith, moves_change _ _ _ (List.getElem?_eq_getElem hindex)]

theorem bestStop_spec (emission : Emission Token Score) (tokens : List Token) (blank : Token) :
    bestStop emission tokens blank ≤ emission.timeSteps ∧
    ∀ stop, stop ≤ emission.timeSteps → trellisCell emission tokens blank stop tokens.length ≤
      trellisCell emission tokens blank (bestStop emission tokens blank) tokens.length := by
  unfold bestStop
  cases hbest : (List.range (emission.timeSteps + 1)).argmax fun time =>
      trellisCell emission tokens blank time tokens.length with
  | none => exact absurd (List.argmax_eq_none.1 hbest) (by simp)
  | some best =>
    refine ⟨Nat.lt_succ_iff.1 (List.mem_range.1 (List.argmax_mem hbest)), fun stop hstop => ?_⟩
    exact List.le_of_mem_argmax (List.mem_range.2 (Nat.lt_succ_of_le hstop)) hbest

/-- With room for the tokens the alignment succeeds: strictly increasing frames, one a token, and for an end after
them no frames and no end have a greater score. -/
theorem ctcTokenFrames_optimal [IsOrderedAddMonoid Score] (exp : Score → Score) (htokens : tokens ≠ [])
    (hroom : tokens.length ≤ emission.timeSteps) : ∃ frames stop,
      ctcTokenFrames emission tokens blank exp =
        .ok (List.zipWith (fun frame token => (frame, exp (emission.score frame token))) frames tokens) ∧
      Placement frames tokens.length stop ∧ stop ≤ emission.timeSteps ∧
      ∀ others end', Placement others tokens.length end' → end' ≤ emission.timeSteps →
        alignmentScore emission tokens blank others end' ≤ alignmentScore emission tokens blank frames stop := by
  obtain ⟨hstop, hbest⟩ := bestStop_spec emission tokens blank
  have hgreatest : ∀ stop, stop ≤ emission.timeSteps → (moves emission tokens blank).cell stop tokens.length ≤
      (moves emission tokens blank).cell (bestStop emission tokens blank) tokens.length := fun stop h => by
    rw [← trellisCell_eq (le_refl _), ← trellisCell_eq (le_refl _)]
    exact hbest stop h
  -- the last row is finite, so the greatest cell of the column is
  have hfinite : (moves emission tokens blank).cell (bestStop emission tokens blank) tokens.length ≠ ⊥ :=
    ne_bot_of_le_ne_bot (Trellis.cell_ne_bot hroom) (hgreatest _ (le_refl _))
  obtain ⟨hplaced, hweight⟩ := Trellis.trace_spec hfinite
  obtain ⟨taken, hback, htaken⟩ := backtrack_eq exp (le_refl _) hfinite []
  refine ⟨_, bestStop emission tokens blank, ?_, hplaced, hstop, fun others end' hothers hend => ?_⟩
  · unfold ctcTokenFrames
    rw [if_neg (by simp [htokens]; omega), hback]
    dsimp only
    rw [if_neg (by simp), List.nil_append, htaken]
    refine congrArg _ (List.ext_getElem (by simp [hplaced.length_eq]) fun index hleft _ => ?_)
    have hindex : index < tokens.length := by simpa [hplaced.length_eq] using hleft
    rw [List.getElem_mapIdx, List.getElem_zipWith, moves_change _ _ _ (List.getElem?_eq_getElem hindex)]
  · have hle := le_trans (Trellis.le_cell hothers) (hgreatest end' hend)
    rw [← hweight, WithBot.coe_le_coe, weight_moves hothers.length_eq, weight_moves hplaced.length_eq] at hle
    exact hle

end

/-- As many tokens as frames, on a constant emission. -/
def constantEmission : Emission Bool Rat := ⟨2, fun _ _ => 1⟩

theorem ctcTokenFrames_optimal_full : ∃ frames stop,
    ctcTokenFrames constantEmission [true, true] false id =
      .ok (List.zipWith (fun frame _ => (frame, (1 : Rat))) frames [true, true]) ∧ Placement frames 2 stop := by
  obtain ⟨frames, stop, hframes, hplaced, -, -⟩ :=
    @ctcTokenFrames_optimal Bool Rat _ _ constantEmission [true, true] false _ id (by decide) (by decide)
  exact ⟨frames, stop, hframes, hplaced⟩

end Steward.Media
