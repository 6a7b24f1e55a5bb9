import Steward.Py.Grouping
import Steward.Py.Intervals
import Steward.Py.Runs

/-!
# Speaker overlap

`audio_diarization.py`: the regions where at least two speakers are active, from
the turns of the speakers, and the durations that are reported of them.
`deriveOverlapRegions_exact` compares both with what is active at each
millisecond.
-/

namespace Steward.Media

open Py

/-- What is read of a turn; `none` for a value of another type. -/
structure SpeakerTurn where
  startMs : Option Int
  endMs : Option Int
  speakerLabel : Option Text
  deriving DecidableEq, Repr

/-- The bounds, both of them integers. -/
def SpeakerTurn.range (turn : SpeakerTurn) : Option (Int × Int) := do return (← turn.startMs, ← turn.endMs)

/-- `{"start_ms": …, "end_ms": …, "speakers": …}` -/
abbrev OverlapRegion := Run (List Text)

section
variable (turns : List SpeakerTurn)

def boundaries : List Int := sortedKeys (turns.flatMap fun turn => turn.startMs.toList ++ turn.endMs.toList)

/-- `sorted(active_values)` for the cell `[start, stop)`. -/
def activeSpeakers (start stop : Int) : List Text :=
  sortedKeys (turns.filterMap fun turn =>
    match turn.range, turn.speakerLabel with
    | some (turnStart, turnEnd), some label => if turnStart < stop ∧ start < turnEnd then some label else none
    | _, _ => none)

/-- `len(active) < 2` is skipped. -/
def overlapping (speakers : List Text) : Bool := 2 ≤ speakers.length

/-- `derive_overlap_regions` -/
def deriveOverlapRegions : List OverlapRegion :=
  ((cellsOf (activeSpeakers turns) (boundaries turns)).filter fun cell => cell.start < cell.stop).foldl
    (joinCell overlapping) []

end

/-! ## Durations -/

/-- One turn of the loop of `_union_duration`: the total, and the current interval. -/
def unionStep (state : Int × Option (Int × Int)) (range : Int × Int) : Int × Option (Int × Int) :=
  if range.2 ≤ range.1 then state
  else
    match state.2 with
    | none => (state.1, some range)
    | some current =>
      if range.1 ≤ current.2 then (state.1, some (current.1, max current.2 range.2))
      else (state.1 + (current.2 - current.1), some range)

/-- `_union_duration` -/
def unionDuration (ranges : List (Int × Int)) : Int :=
  let state := (sortedBy toLex ranges).foldl unionStep (0, none)
  match state.2 with
  | some current => state.1 + (current.2 - current.1)
  | none => state.1

/-- The durations of `diarization_observation_quality`. -/
structure DiarizationQuality where
  windowMs : Int
  turnCoverageMs : Int
  overlapMs : Int
  deriving DecidableEq, Repr

def clampTo (windowStartMs windowEndMs : Int) (range : Int × Int) : Int × Int :=
  (max windowStartMs range.1, min windowEndMs range.2)

/-- `diarization_observation_quality` -/
def diarizationObservationQuality (turns : List SpeakerTurn) (overlapRegions : List OverlapRegion)
    (windowStartMs windowEndMs : Int) : DiarizationQuality where
  windowMs := max 0 (windowEndMs - windowStartMs)
  turnCoverageMs := unionDuration ((turns.filterMap SpeakerTurn.range).map (clampTo windowStartMs windowEndMs))
  overlapMs := unionDuration ((overlapRegions.map fun region => (region.start, region.stop)).map
    (clampTo windowStartMs windowEndMs))

/-! ## Pointwise -/

/-- The labels of the turns at a millisecond, in order. -/
def speakersAt (turns : List SpeakerTurn) (t : Int) : List Text :=
  sortedKeys (turns.filterMap fun turn =>
    match turn.range, turn.speakerLabel with
    | some (turnStart, turnEnd), some label => if turnStart ≤ t ∧ t < turnEnd then some label else none
    | _, _ => none)

section
variable {turns : List SpeakerTurn}

theorem mem_boundaries {turn : SpeakerTurn} {start stop : Int} (hturn : turn ∈ turns)
    (hrange : turn.range = some (start, stop)) : start ∈ boundaries turns ∧ stop ∈ boundaries turns := by
  unfold SpeakerTurn.range at hrange
  obtain ⟨a, ha, hrange⟩ := Option.bind_eq_some_iff.1 hrange
  obtain ⟨b, hb, hrange⟩ := Option.bind_eq_some_iff.1 hrange
  cases hrange
  rw [boundaries, mem_sortedKeys, mem_sortedKeys, List.mem_flatMap, List.mem_flatMap]
  exact ⟨⟨turn, hturn, by simp [ha]⟩, ⟨turn, hturn, by simp [hb]⟩⟩

theorem boundaries_pairwise : (boundaries turns).Pairwise (· < ·) := by
  have hle : (boundaries turns).Pairwise (· ≤ ·) := List.pairwise_insertionSort _ _
  exact (hle.and nodup_sortedKeys).imp fun h => lt_of_le_of_ne h.1 h.2

/-- Between consecutive boundaries the active speakers are those at each millisecond. -/
theorem speakersAt_cell {a b t : Int} (hcell : (a, b) ∈ (boundaries turns).zip (boundaries turns).tail)
    (hlo : a ≤ t) (hhi : t < b) : speakersAt turns t = activeSpeakers turns a b := by
  obtain ⟨-, hbetween⟩ := consecutive_boundaries boundaries_pairwise hcell
  unfold speakersAt activeSpeakers
  refine congrArg sortedKeys (List.filterMap_congr fun turn hturn => ?_)
  cases hrange : turn.range with
  | none => rfl
  | some range =>
    obtain ⟨start, stop⟩ := range
    cases turn.speakerLabel with
    | none => rfl
    | some label =>
      obtain ⟨hstart, hstop⟩ := mem_boundaries hturn hrange
      have hs := hbetween start hstart
      have he := hbetween stop hstop
      dsimp only
      exact if_congr (by omega) rfl rfl

/-- Where no turn is, nobody speaks. -/
theorem not_overlapping_of_absent {t : Int} (h : ∀ turn ∈ turns, ∀ start stop, turn.range = some (start, stop) →
    ¬ (start ≤ t ∧ t < stop)) : ¬ overlapping (speakersAt turns t) = true := by
  have hnone : speakersAt turns t = [] := by
    rw [List.eq_nil_iff_forall_not_mem]
    intro label hlabel
    rw [speakersAt, mem_sortedKeys, List.mem_filterMap] at hlabel
    obtain ⟨turn, hturn, hsome⟩ := hlabel
    split at hsome
    · rename_i start stop _ hrange _
      split_ifs at hsome with hin
      exact h turn hturn start stop hrange hin
    · cases hsome
  rw [hnone]
  decide

theorem runsBelow_deriveOverlapRegions (turns : List SpeakerTurn) :
    ∃ last, (∀ t, last ≤ t → ¬ overlapping (speakersAt turns t) = true) ∧
    RunsBelow (speakersAt turns) overlapping last (deriveOverlapRegions turns) := by
  have hall : (cellsOf (activeSpeakers turns) (boundaries turns)).filter (fun cell => cell.start < cell.stop) =
      cellsOf (activeSpeakers turns) (boundaries turns) := by
    refine List.filter_eq_self.2 fun cell hcell => ?_
    obtain ⟨⟨a, b⟩, hab, rfl⟩ := List.mem_map.1 hcell
    exact decide_eq_true (consecutive_boundaries boundaries_pairwise hab).1
  unfold deriveOverlapRegions
  rw [hall]
  cases hb : boundaries turns with
  | nil =>
    have hnobody (t : Int) : ¬ overlapping (speakersAt turns t) = true := by
      refine not_overlapping_of_absent fun turn hturn start stop hrange _ => ?_
      have hmem := (mem_boundaries hturn hrange).1
      rw [hb] at hmem
      cases hmem
    exact ⟨0, fun t _ => hnobody t, runsBelow_nil fun t _ => hnobody t⟩
  | cons first rest =>
    have hsorted : (boundaries turns).Pairwise (· < ·) := boundaries_pairwise
    rw [hb] at hsorted
    have hbefore : ∀ t, t < first → ¬ overlapping (speakersAt turns t) = true := fun t ht =>
      not_overlapping_of_absent fun turn hturn start stop hrange hin => by
        have hmem := (mem_boundaries hturn hrange).1
        rw [hb] at hmem
        rcases List.mem_cons.1 hmem with rfl | hmem
        · omega
        · have hlt := List.rel_of_pairwise_cons hsorted hmem
          omega
    have hcells : ∀ a b, (a, b) ∈ (first :: rest).zip (first :: rest).tail → ∀ t, a ≤ t → t < b →
        speakersAt turns t = activeSpeakers turns a b := fun a b hab t hlo hhi =>
      speakersAt_cell (by rw [hb]; exact hab) hlo hhi
    obtain ⟨last, hlast, hruns⟩ := runsBelow_cells (List.head?_cons) hsorted hcells (runsBelow_nil hbefore)
    refine ⟨last, fun t ht => ?_, hruns⟩
    refine not_overlapping_of_absent fun turn hturn start stop hrange hin => ?_
    have hmem := (mem_boundaries hturn hrange).2
    rw [hb] at hmem
    obtain ⟨front, hfront⟩ := List.getLast?_eq_some_iff.1 hlast
    rw [hfront] at hmem hsorted
    rcases List.mem_append.1 hmem with hmem | hmem
    · have hlt := (List.pairwise_append.1 hsorted).2.2 stop hmem last (List.mem_singleton_self last)
      omega
    · rw [List.mem_singleton.1 hmem] at hin
      omega

end

/-! ## The union loop -/

/-- The state of the loop where it has joined what it read to these spans. -/
def loopState (spans : List (Int × Int)) : Int × Option (Int × Int) :=
  ((spans.dropLast.map fun s => s.2 - s.1).sum, spans.getLast?)

theorem unionStep_loopState {range : Int × Int} (hproper : range.1 < range.2) (spans : List (Int × Int)) :
    unionStep (loopState spans) range = loopState (coalesceSpan spans range) := by
  unfold unionStep coalesceSpan
  rw [if_neg (by omega)]
  rcases List.eq_nil_or_concat spans with rfl | ⟨front, last, rfl⟩
  · rfl
  · rw [List.concat_eq_append]
    unfold loopState
    rw [List.getLast?_concat, List.dropLast_concat]
    dsimp only
    split_ifs with htouch
    · rw [List.dropLast_concat, List.getLast?_concat]
    · rw [List.dropLast_concat, List.getLast?_concat, List.map_append, List.sum_append, List.map_singleton,
        List.sum_singleton]

theorem foldl_unionStep (ranges spans : List (Int × Int)) : ranges.foldl unionStep (loopState spans) =
    loopState ((ranges.filter fun range => range.1 < range.2).foldl coalesceSpan spans) := by
  induction ranges generalizing spans with
  | nil => rfl
  | cons range ranges ih =>
    rw [List.foldl_cons]
    by_cases hproper : range.1 < range.2
    · rw [unionStep_loopState hproper, ih, List.filter_cons, if_pos (decide_eq_true hproper), List.foldl_cons]
    · have hskip : unionStep (loopState spans) range = loopState spans := if_pos (by omega)
      rw [hskip, ih, List.filter_cons, if_neg (by simpa using hproper)]

theorem points_congr {ws vs : List (Int × Int)} (h : ∀ w, w.1 < w.2 → (w ∈ ws ↔ w ∈ vs)) : points ws = points vs := by
  ext t
  rw [mem_points, mem_points]
  constructor
  · rintro ⟨w, hw, hlo, hhi⟩
    exact ⟨w, (h w (by omega)).1 hw, hlo, hhi⟩
  · rintro ⟨w, hw, hlo, hhi⟩
    exact ⟨w, (h w (by omega)).2 hw, hlo, hhi⟩

/-- The loop measures the union. -/
theorem unionDuration_eq_card (ranges : List (Int × Int)) : unionDuration ranges = ((points ranges).card : Int) := by
  have hproper : ∀ w ∈ (sortedBy toLex ranges).filter (fun range => range.1 < range.2), w.1 < w.2 := fun w hw =>
    of_decide_eq_true (List.mem_filter.1 hw).2
  have hsorted : ((sortedBy toLex ranges).filter fun range => range.1 < range.2).Pairwise fun a b => a.1 ≤ b.1 := by
    refine (sortedBy_pairwise.imp fun {a b} hab => ?_).filter _
    rcases Prod.Lex.toLex_le_toLex.1 hab with hlt | ⟨heq, -⟩
    · exact le_of_lt hlt
    · exact le_of_eq heq
  have hpoints : points ((sortedBy toLex ranges).filter fun range => range.1 < range.2) = points ranges :=
    points_congr fun w hw => by rw [List.mem_filter, mem_sortedBy, decide_eq_true hw]; simp
  have hsum := (coalesces_coalesce hproper hsorted).sum_lengths
  rw [hpoints] at hsum
  rw [← hsum]
  unfold unionDuration coalesce
  dsimp only
  rw [show ((0, none) : Int × Option (Int × Int)) = loopState [] from rfl, foldl_unionStep]
  rcases List.eq_nil_or_concat (((sortedBy toLex ranges).filter fun range => range.1 < range.2).foldl coalesceSpan [])
    with hnil | ⟨front, last, hspans⟩
  · rw [hnil]
    rfl
  · rw [hspans, List.concat_eq_append]
    unfold loopState
    rw [List.getLast?_concat, List.dropLast_concat, List.map_append, List.sum_append, List.map_singleton,
      List.sum_singleton]

/-! ## What is reported -/

theorem points_clampTo (ranges : List (Int × Int)) (windowStartMs windowEndMs : Int) :
    points (ranges.map (clampTo windowStartMs windowEndMs)) =
      (points ranges).filter fun t => windowStartMs ≤ t ∧ t < windowEndMs := by
  ext t
  rw [mem_points, Finset.mem_filter, mem_points]
  constructor
  · rintro ⟨w, hw, hlo, hhi⟩
    obtain ⟨range, hrange, rfl⟩ := List.mem_map.1 hw
    unfold clampTo at hlo hhi
    exact ⟨⟨range, hrange, by omega, by omega⟩, by omega, by omega⟩
  · rintro ⟨⟨range, hrange, hlo, hhi⟩, hstart, hstop⟩
    refine ⟨_, List.mem_map_of_mem hrange, ?_, ?_⟩ <;> (unfold clampTo; dsimp only; omega)

/-- The milliseconds of the turns, and those of the overlap. -/
def turnPoints (turns : List SpeakerTurn) : Finset Int := points (turns.filterMap SpeakerTurn.range)

def overlapPoints (turns : List SpeakerTurn) : Finset Int :=
  (turnPoints turns).filter fun t => overlapping (speakersAt turns t)

theorem mem_turnPoints_of_overlapping {turns : List SpeakerTurn} {t : Int}
    (h : overlapping (speakersAt turns t) = true) : t ∈ turnPoints turns := by
  by_contra hnot
  refine not_overlapping_of_absent (fun turn hturn start stop hrange hin => hnot ?_) h
  exact mem_points.2 ⟨_, List.mem_filterMap.2 ⟨turn, hturn, hrange⟩, hin.1, hin.2⟩

theorem points_deriveOverlapRegions (turns : List SpeakerTurn) :
    points ((deriveOverlapRegions turns).map fun region => (region.start, region.stop)) = overlapPoints turns := by
  obtain ⟨last, hend, hruns⟩ := runsBelow_deriveOverlapRegions turns
  ext t
  rw [mem_points, overlapPoints, Finset.mem_filter]
  constructor
  · rintro ⟨w, hw, hlo, hhi⟩
    obtain ⟨region, hregion, rfl⟩ := List.mem_map.1 hw
    have hr := hruns.each region hregion
    have hover : overlapping (speakersAt turns t) = true := by
      rw [hr.constant t hlo hhi]
      exact hr.valued
    exact ⟨mem_turnPoints_of_overlapping hover, hover⟩
  · rintro ⟨-, hover⟩
    have hbelow : t < last := by
      by_contra hge
      exact hend t (by omega) hover
    obtain ⟨region, hregion, hlo, hhi⟩ := hruns.complete t hbelow hover
    exact ⟨_, List.mem_map_of_mem hregion, hlo, hhi⟩

/-- The regions are the maximal intervals where one set of at least two speakers is active, in order;
the durations measure the turns and the overlap inside the window. -/
theorem deriveOverlapRegions_exact (turns : List SpeakerTurn) :
    (∀ region, region ∈ deriveOverlapRegions turns ↔ MaximalRun (speakersAt turns) overlapping region) ∧
    ((deriveOverlapRegions turns).Pairwise fun a b => a.stop ≤ b.start) ∧
    ∀ windowStartMs windowEndMs,
      let quality := diarizationObservationQuality turns (deriveOverlapRegions turns) windowStartMs windowEndMs
      quality.turnCoverageMs = ((turnPoints turns).filter fun t => windowStartMs ≤ t ∧ t < windowEndMs).card ∧
      quality.overlapMs = ((overlapPoints turns).filter fun t => windowStartMs ≤ t ∧ t < windowEndMs).card ∧
      quality.overlapMs ≤ quality.turnCoverageMs ∧ quality.turnCoverageMs ≤ quality.windowMs ∧
      ((∀ t ∈ turnPoints turns, windowStartMs ≤ t ∧ t < windowEndMs) →
        quality.turnCoverageMs = (turnPoints turns).card ∧ quality.overlapMs = (overlapPoints turns).card) := by
  obtain ⟨last, hend, hruns⟩ := runsBelow_deriveOverlapRegions turns
  refine ⟨fun region => hruns.mem_iff hend, hruns.ordered, fun windowStartMs windowEndMs => ?_⟩
  have hcovered : (diarizationObservationQuality turns (deriveOverlapRegions turns) windowStartMs
      windowEndMs).turnCoverageMs =
        ((turnPoints turns).filter fun t => windowStartMs ≤ t ∧ t < windowEndMs).card := by
    rw [turnPoints, ← points_clampTo]
    exact unionDuration_eq_card _
  have hoverlap : (diarizationObservationQuality turns (deriveOverlapRegions turns) windowStartMs
      windowEndMs).overlapMs =
        ((overlapPoints turns).filter fun t => windowStartMs ≤ t ∧ t < windowEndMs).card := by
    rw [← points_deriveOverlapRegions, ← points_clampTo]
    exact unionDuration_eq_card _
  dsimp only
  refine ⟨hcovered, hoverlap, ?_, ?_, fun hin => ?_⟩
  · rw [hcovered, hoverlap]
    exact Int.ofNat_le.2 <| Finset.card_le_card (Finset.filter_subset_filter _ (Finset.filter_subset _ _))
  · have hwindow : (turnPoints turns).filter (fun t => windowStartMs ≤ t ∧ t < windowEndMs) ⊆
        Finset.Ico windowStartMs windowEndMs := fun t ht => Finset.mem_Ico.2 (Finset.mem_filter.1 ht).2
    have hcard := Finset.card_le_card hwindow
    rw [Int.card_Ico] at hcard
    rw [hcovered]
    show _ ≤ max 0 (windowEndMs - windowStartMs)
    omega
  · have hoverlapIn : (overlapPoints turns).filter (fun t => windowStartMs ≤ t ∧ t < windowEndMs) =
        overlapPoints turns := Finset.filter_true_of_mem fun t ht => hin t (Finset.mem_filter.1 ht).1
    rw [hcovered, hoverlap, Finset.filter_true_of_mem hin, hoverlapIn]
    exact ⟨rfl, rfl⟩

/-- Two speakers over one another, and a third who touches the second. -/
def overlapTurns : List SpeakerTurn :=
  [⟨some 0, some 3, some [0]⟩, ⟨some 2, some 5, some [1]⟩, ⟨some 5, some 6, some [2]⟩]

theorem deriveOverlapRegions_exact_window :
    (diarizationObservationQuality overlapTurns (deriveOverlapRegions overlapTurns) 0 9).overlapMs =
      ((overlapPoints overlapTurns).card : Int) :=
  (((deriveOverlapRegions_exact overlapTurns).2.2 0 9).2.2.2.2 (by decide)).2

end Steward.Media
