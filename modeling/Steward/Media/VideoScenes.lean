import Mathlib.Algebra.Order.Ring.Rat
import Steward.Media.VideoWindows

/-!
# Scenes of a video

`detect_video_scenes` of `video_documents.py`: the transitions that `ffmpeg`
reports are filtered by the scores around them, merged where they are closer than
250 ms, and cut into scenes, of which the first 96 are kept. The result of
`VideoSceneWorker` says of the scenes what `sceneSegmentation_iff` compares with
the window.
-/

namespace Steward.Media

open Py

def maxVideoScenes : Nat := 96
def minBoundaryGapMs : Int := 250

/-- `VIDEO_SCENE_BASE_THRESHOLD`, `VIDEO_SCENE_ADAPTIVE_RATIO`, and the two that a median divides by. -/
structure SceneThresholds (F : Type) where
  base : F
  ratio : F
  two : F

/-- The transitions of a window as they are parsed, in milliseconds from its start: changes of the content with
their scores, black intervals with both ends. -/
structure SceneEvents (F : Type) where
  content : List (Int × F)
  black : List (Int × Int)

structure SceneChange (F : Type) where
  timestampMs : Int
  score : Option F
  detector : Text
  reason : Text
  deriving DecidableEq, Repr

structure DetectedScene (F : Type) extends VideoScene where
  boundaryScore : Option F
  boundaryDetector : Option Text
  boundaryReason : Text
  representativeTimestampMs : Int
  deriving DecidableEq, Repr

section
variable {F : Type} [LinearOrder F] [Zero F] [Add F] [Mul F] [Div F] (thresholds : SceneThresholds F)

def contentChanges (events : SceneEvents F) (startMs endMs : Int) : List (SceneChange F) :=
  events.content.filterMap fun (time, score) =>
    if startMs < startMs + time ∧ startMs + time < endMs then
      some ⟨startMs + time, some score, txt "FFMPEG_SCDET", txt "CONTENT_CHANGE"⟩
    else none

def blackChanges (events : SceneEvents F) (startMs endMs : Int) : List (SceneChange F) :=
  (events.black.flatMap fun (enter, leave) => [(enter, txt "BLACK_ENTER"), (leave, txt "BLACK_EXIT")]).filterMap
    fun (time, reason) =>
      if startMs < startMs + time ∧ startMs + time < endMs then
        some ⟨startMs + time, none, txt "FFMPEG_BLACKDETECT", reason⟩
      else none

/-- `statistics.median` of scores, `0.0` of none. -/
def medianScore (scores : List F) : F :=
  let sorted := sortedBy id scores
  let half := scores.length / 2
  if scores.length % 2 = 1 then sorted.getD half 0
  else if scores = [] then 0
  else (sorted.getD (half - 1) 0 + sorted.getD half 0) / thresholds.two

/-- The scores of the four changes before the one at `index` and of the four after it. -/
def neighborhood (changes : List (SceneChange F)) (index : Nat) : List F :=
  ((((changes.zipIdx.take (index + 5)).drop (index - 4)).filter fun candidate => candidate.2 ≠ index).filterMap
    fun candidate => candidate.1.score)

def adaptiveChanges (changes : List (SceneChange F)) : List (SceneChange F) :=
  changes.zipIdx.filterMap fun (change, index) =>
    match change.score with
    | some score =>
      let localBaseline := medianScore thresholds (neighborhood changes index)
      if thresholds.base ≤ score ∨ localBaseline * thresholds.ratio ≤ score then some change else none
    | none => none

/-- `"+".join(sorted(set(a.split("+")) | set(b.split("+"))))` -/
def joinLabels (a b : Text) : Text := [ch '+'].intercalate (sortedKeys (a.splitOn (ch '+') ++ b.splitOn (ch '+')))

/-- The change that is left of two: the later one if its score is greater. -/
def mergeChanges (previous change : SceneChange F) : SceneChange F :=
  let selected :=
    match change.score, previous.score with
    | some score, some previousScore => if previousScore < score then change else previous
    | some _, none => change
    | none, _ => previous
  { selected with
    detector := joinLabels previous.detector change.detector
    reason := joinLabels previous.reason change.reason }

def deduplicateStep (deduplicated : List (SceneChange F)) (change : SceneChange F) : List (SceneChange F) :=
  match deduplicated.getLast? with
  | some previous =>
    if change.timestampMs - previous.timestampMs < minBoundaryGapMs then
      deduplicated.dropLast ++ [mergeChanges previous change]
    else deduplicated ++ [change]
  | none => [change]

/-- The changes of a window, in order of time, those that are close to one another merged. -/
def deduplicatedChanges (events : SceneEvents F) (startMs endMs : Int) : List (SceneChange F) :=
  (sortedBy SceneChange.timestampMs
    (adaptiveChanges thresholds (contentChanges events startMs endMs) ++ blackChanges events startMs endMs)).foldl
    deduplicateStep []

def sceneBoundaries (deduplicated : List (SceneChange F)) (startMs endMs : Int) : List Int :=
  startMs :: (deduplicated.map SceneChange.timestampMs ++ [endMs])

/-- The scene of an ordinal, between two boundaries. -/
def detectedScene (deduplicated : List (SceneChange F)) (numbered : (Int × Int) × Nat) : DetectedScene F :=
  let ((left, right), ordinal) := numbered
  let preceding := if 1 < ordinal then deduplicated[ordinal - 2]? else none
  { ordinal
    startMs := left
    endMs := right
    boundaryScore := preceding.bind SceneChange.score
    boundaryDetector := preceding.map SceneChange.detector
    boundaryReason := (preceding.map SceneChange.reason).getD (txt "WINDOW_START")
    representativeTimestampMs := left + max 0 ((right - left) / 2) }

/-- `detect_video_scenes` -/
def detectVideoScenes (events : SceneEvents F) (startMs endMs : Int) : Except VideoFault (List (DetectedScene F)) :=
  if startMs < 0 ∨ endMs ≤ startMs ∨ maxVideoWindowMs < endMs - startMs then
    .error (.sourceInvalid (txt "video scene window is invalid"))
  else
    let deduplicated := deduplicatedChanges thresholds events startMs endMs
    let boundaries := sceneBoundaries deduplicated startMs endMs
    .ok ((((boundaries.zip boundaries.tail).zipIdx 1).take maxVideoScenes).map (detectedScene deduplicated))

/-! ## The result -/

/-- What the result of `VideoSceneWorker` says of the scenes: `warnings`, and `scene` of the coverage report. -/
structure SceneResult where
  warnings : List Text
  windowStartMs : Int
  windowEndMs : Int
  detectedCount : Nat
  selectedCount : Nat
  selectionComplete : Bool
  unselectedCount : Nat
  deriving DecidableEq, Repr

/-- The scenes whose text could not be read. -/
def ocrWarnings (source : VideoSource) (includeOcr : Bool) (ocrFrameLimit : Int) : Nat → List VideoScene → List Text
  | _, [] => []
  | ocrFrames, scene :: scenes =>
    if includeOcr && decide ((ocrFrames : Int) < ocrFrameLimit) then
      if source.frameOcr scene then ocrWarnings source includeOcr ocrFrameLimit (ocrFrames + 1) scenes
      else (txt "VIDEO_FRAME_OCR_UNAVAILABLE:" ++ Text.ofInt scene.ordinal) ::
        ocrWarnings source includeOcr ocrFrameLimit ocrFrames scenes
    else ocrWarnings source includeOcr ocrFrameLimit ocrFrames scenes

def VideoSceneWorker.publish (worker : VideoSceneWorker) (source : VideoSource) : Except VideoFault SceneResult := do
  let resources ← worker.call source
  return {
    warnings := ocrWarnings source worker.includeOcr worker.ocrFrameLimit 0 resources.selected ++
      (if worker.representativeFrameLimit < resources.sceneCount then [txt "VIDEO_REPRESENTATIVE_FRAME_LIMIT_REACHED"]
        else []) ++
      if maxVideoScenes ≤ resources.sceneCount ∧ resources.windowEndMs < source.durationMs then
        [txt "VIDEO_SCENE_LIMIT_REACHED"] else []
    windowStartMs := resources.windowStartMs
    windowEndMs := resources.windowEndMs
    detectedCount := resources.sceneCount
    selectedCount := resources.selected.length
    selectionComplete := resources.selected.length = resources.sceneCount
    unselectedCount := resources.sceneCount - resources.selected.length }

/-- The source whose transitions are these. -/
def sceneSource (events : SceneEvents F) (durationMs : Int) (extractFrame : VideoScene → Except VideoFault Unit)
    (frameOcr : VideoScene → Bool) : VideoSource where
  durationMs
  detect startMs endMs := (detectVideoScenes thresholds events startMs endMs).map (·.map DetectedScene.toVideoScene)
  extractFrame
  frameOcr

end

/-! ## The boundaries -/

section
variable {F : Type} {startMs endMs : Int}

theorem contentChanges_inside {events : SceneEvents F} {change : SceneChange F}
    (h : change ∈ contentChanges events startMs endMs) : startMs < change.timestampMs ∧ change.timestampMs < endMs := by
  obtain ⟨⟨time, score⟩, -, hsome⟩ := List.mem_filterMap.1 h
  dsimp only at hsome
  split_ifs at hsome with hin
  cases hsome
  exact hin

theorem blackChanges_inside {events : SceneEvents F} {change : SceneChange F}
    (h : change ∈ blackChanges events startMs endMs) : startMs < change.timestampMs ∧ change.timestampMs < endMs := by
  obtain ⟨⟨time, reason⟩, -, hsome⟩ := List.mem_filterMap.1 h
  dsimp only at hsome
  split_ifs at hsome with hin
  cases hsome
  exact hin

/-- Boundaries inside the window, at least 250 ms apart. -/
structure Deduplicated (startMs endMs : Int) (changes : List (SceneChange F)) : Prop where
  spaced : changes.Pairwise fun a b => a.timestampMs + minBoundaryGapMs ≤ b.timestampMs
  inside : ∀ change ∈ changes, startMs < change.timestampMs ∧ change.timestampMs < endMs

theorem boundaries_pairwise_lt {deduplicated : List (SceneChange F)} (h : Deduplicated startMs endMs deduplicated)
    (hwindow : startMs < endMs) : (sceneBoundaries deduplicated startMs endMs).Pairwise fun a b =>
      a < b ∧ (startMs < a → b < endMs → a + minBoundaryGapMs ≤ b) := by
  have hinner : (deduplicated.map SceneChange.timestampMs).Pairwise fun a b =>
      a < b ∧ (startMs < a → b < endMs → a + minBoundaryGapMs ≤ b) := by
    rw [List.pairwise_map]
    refine h.spaced.imp fun {a b} hab => ⟨?_, fun _ _ => hab⟩
    unfold minBoundaryGapMs at hab
    omega
  have hmem : ∀ t ∈ deduplicated.map SceneChange.timestampMs, startMs < t ∧ t < endMs := fun t ht => by
    obtain ⟨change, hchange, rfl⟩ := List.mem_map.1 ht
    exact h.inside change hchange
  unfold sceneBoundaries
  refine List.pairwise_cons.2 ⟨fun t ht => ?_, List.pairwise_append.2 ⟨hinner, List.pairwise_singleton _ _, ?_⟩⟩
  · rcases List.mem_append.1 ht with ht | ht
    · have hin := hmem t ht
      omega
    · rw [List.mem_singleton.1 ht]
      omega
  · intro a ha b hb
    have hin := hmem a ha
    rw [List.mem_singleton.1 hb]
    omega

/-- The scenes of a window, by their positions: between one boundary and the next. -/
structure ScenesBetween (boundaries : List Int) (scenes : List VideoScene) : Prop where
  length_eq : scenes.length = min maxVideoScenes (boundaries.length - 1)
  at_index : ∀ (i : Nat) (scene : VideoScene), scenes[i]? = some scene →
    scene.ordinal = (i : Int) + 1 ∧ boundaries[i]? = some scene.startMs ∧ boundaries[i + 1]? = some scene.endMs

/-- The scenes are numbered, start at the window, follow one another and have boundaries apart; they end with the
window, or the result says that they do not. -/
structure SceneSegmentation (startMs endMs : Int) (scenes : List VideoScene) (result : SceneResult) : Prop where
  numbered : ∀ (i : Nat) (scene : VideoScene), scenes[i]? = some scene → scene.ordinal = (i : Int) + 1
  starts : ∃ first, scenes[0]? = some first ∧ first.startMs = startMs
  contiguous : ∀ (i : Nat) (a b : VideoScene), scenes[i]? = some a → scenes[i + 1]? = some b → a.endMs = b.startMs
  increasing : ∀ scene ∈ scenes, scene.startMs < scene.endMs
  spaced : ∀ scene ∈ scenes, startMs < scene.startMs → scene.endMs < endMs →
    scene.startMs + minBoundaryGapMs ≤ scene.endMs
  complete : (∃ last, scenes.getLast? = some last ∧ last.endMs = endMs) ∨
    txt "VIDEO_SCENE_LIMIT_REACHED" ∈ result.warnings ∧ result.selectionComplete = false

variable {deduplicated : List (SceneChange F)} {scenes : List VideoScene}

/-- All but the last property of the scenes, whatever is cut. -/
theorem scenesBetween_spec (h : Deduplicated startMs endMs deduplicated) (hwindow : startMs < endMs)
    (hscenes : ScenesBetween (sceneBoundaries deduplicated startMs endMs) scenes) {result : SceneResult}
    (hcomplete : (∃ last, scenes.getLast? = some last ∧ last.endMs = endMs) ∨
      txt "VIDEO_SCENE_LIMIT_REACHED" ∈ result.warnings ∧ result.selectionComplete = false) :
    SceneSegmentation startMs endMs scenes result := by
  have hpairs := boundaries_pairwise_lt h hwindow
  have hstep : ∀ scene ∈ scenes, scene.startMs < scene.endMs ∧
      (startMs < scene.startMs → scene.endMs < endMs → scene.startMs + minBoundaryGapMs ≤ scene.endMs) := by
    intro scene hscene
    obtain ⟨i, hi, hget⟩ := List.mem_iff_getElem.1 hscene
    obtain ⟨-, hleft, hright⟩ := hscenes.at_index i scene (List.getElem?_eq_some_iff.2 ⟨hi, hget⟩)
    obtain ⟨hl, hleft⟩ := List.getElem?_eq_some_iff.1 hleft
    obtain ⟨hr, hright⟩ := List.getElem?_eq_some_iff.1 hright
    rw [← hleft, ← hright]
    exact List.pairwise_iff_getElem.1 hpairs i (i + 1) hl hr (Nat.lt_succ_self i)
  refine ⟨fun i scene hscene => (hscenes.at_index i scene hscene).1, ?_, fun i a b ha hb => ?_,
    fun scene hscene => (hstep scene hscene).1, fun scene hscene => (hstep scene hscene).2, hcomplete⟩
  · have hlength := hscenes.length_eq
    obtain ⟨first, hfirst⟩ : ∃ first, scenes[0]? = some first := by
      refine ⟨_, List.getElem?_eq_getElem (?_ : 0 < scenes.length)⟩
      rw [hlength, sceneBoundaries, List.length_cons, List.length_append, List.length_singleton]
      unfold maxVideoScenes
      omega
    obtain ⟨-, hstart, -⟩ := hscenes.at_index 0 first hfirst
    exact ⟨first, hfirst, (Option.some.inj hstart).symm⟩
  · obtain ⟨-, -, hend⟩ := hscenes.at_index i a ha
    obtain ⟨-, hstart, -⟩ := hscenes.at_index (i + 1) b hb
    exact Option.some.inj (hend.symm.trans hstart)

theorem length_sceneBoundaries : (sceneBoundaries deduplicated startMs endMs).length = deduplicated.length + 2 := by
  rw [sceneBoundaries, List.length_cons, List.length_append, List.length_singleton, List.length_map]

/-- The scenes end with the window unless some are cut off. -/
theorem last_endMs_iff (h : Deduplicated startMs endMs deduplicated)
    (hscenes : ScenesBetween (sceneBoundaries deduplicated startMs endMs) scenes) :
    (∃ last, scenes.getLast? = some last ∧ last.endMs = endMs) ↔ deduplicated.length < maxVideoScenes := by
  have hlength := hscenes.length_eq
  rw [length_sceneBoundaries] at hlength
  have hpos : scenes.length - 1 < scenes.length := by
    unfold maxVideoScenes at hlength
    omega
  obtain ⟨last, hlast⟩ : ∃ last, scenes[scenes.length - 1]? = some last := ⟨_, List.getElem?_eq_getElem hpos⟩
  obtain ⟨-, -, hend⟩ := hscenes.at_index (scenes.length - 1) last hlast
  rw [sceneBoundaries, List.getElem?_cons_succ] at hend
  rw [List.getLast?_eq_getElem?, hlast]
  constructor
  · rintro ⟨_, ⟨⟩, heq⟩
    by_contra hmany
    have hin : scenes.length - 1 < (deduplicated.map SceneChange.timestampMs).length := by
      rw [List.length_map]
      omega
    rw [List.getElem?_append_left hin, List.getElem?_map] at hend
    obtain ⟨change, hchange, htime⟩ := Option.map_eq_some_iff.1 hend
    have hbefore := (h.inside change (List.mem_of_getElem? hchange)).2
    omega
  · intro hfew
    have hindex : scenes.length - 1 = (deduplicated.map SceneChange.timestampMs).length := by
      rw [List.length_map]
      omega
    rw [List.getElem?_append_right (by omega), hindex, Nat.sub_self] at hend
    exact ⟨_, rfl, (Option.some.inj hend).symm⟩

variable [LinearOrder F]

theorem mergeChanges_timestamp (previous change : SceneChange F) :
    (mergeChanges previous change).timestampMs = previous.timestampMs ∨
      (mergeChanges previous change).timestampMs = change.timestampMs := by
  unfold mergeChanges
  cases change.score with
  | none => exact .inl rfl
  | some score =>
    cases previous.score with
    | none => exact .inr rfl
    | some previousScore =>
      dsimp only
      split_ifs
      · exact .inr rfl
      · exact .inl rfl

/-- A merge moves the boundary no further than to the later change. -/
theorem deduplicated_step {changes : List (SceneChange F)} {change : SceneChange F}
    (h : Deduplicated startMs endMs changes) (hin : startMs < change.timestampMs ∧ change.timestampMs < endMs)
    (hlast : ∀ previous ∈ changes, previous.timestampMs ≤ change.timestampMs) :
    Deduplicated startMs endMs (deduplicateStep changes change) ∧
      ∀ c ∈ deduplicateStep changes change, c.timestampMs ≤ change.timestampMs := by
  unfold deduplicateStep
  rcases List.eq_nil_or_concat changes with rfl | ⟨front, previous, rfl⟩
  · refine ⟨⟨List.pairwise_singleton _ _, fun c hc => ?_⟩, fun c hc => ?_⟩
    · rw [List.mem_singleton.1 hc]
      exact hin
    · rw [List.mem_singleton.1 hc]
  · rw [List.concat_eq_append] at h hlast ⊢
    rw [List.getLast?_concat]
    dsimp only
    obtain ⟨hfront, -, hprevious⟩ := List.pairwise_append.1 h.spaced
    have hle := hlast previous (by simp)
    have hfrontLe : ∀ c ∈ front, c.timestampMs ≤ change.timestampMs := fun c hc =>
      hlast c (List.mem_append_left _ hc)
    split_ifs with hclose
    · rw [List.dropLast_concat]
      have hmerged := mergeChanges_timestamp previous change
      have hpin := h.inside previous (by simp)
      refine ⟨⟨List.pairwise_append.2 ⟨hfront, List.pairwise_singleton _ _, fun a ha b hb => ?_⟩, fun c hc => ?_⟩,
        fun c hc => ?_⟩
      · have hgap := hprevious a ha previous (List.mem_singleton_self _)
        rw [List.mem_singleton.1 hb]
        omega
      · rcases List.mem_append.1 hc with hc | hc
        · exact h.inside c (List.mem_append_left _ hc)
        · rw [List.mem_singleton.1 hc]
          omega
      · rcases List.mem_append.1 hc with hc | hc
        · exact hfrontLe c hc
        · rw [List.mem_singleton.1 hc]
          omega
    · refine ⟨⟨List.pairwise_append.2 ⟨h.spaced, List.pairwise_singleton _ _, fun a ha b hb => ?_⟩, fun c hc => ?_⟩,
        fun c hc => ?_⟩
      · rw [List.mem_singleton.1 hb]
        rcases List.mem_append.1 ha with ha | ha
        · have hgap := hprevious a ha previous (List.mem_singleton_self _)
          omega
        · rw [List.mem_singleton.1 ha]
          omega
      · rcases List.mem_append.1 hc with hc | hc
        · exact h.inside c hc
        · rw [List.mem_singleton.1 hc]
          exact hin
      · rcases List.mem_append.1 hc with hc | hc
        · exact hlast c hc
        · rw [List.mem_singleton.1 hc]

theorem deduplicated_foldl {rest changes : List (SceneChange F)} (h : Deduplicated startMs endMs changes)
    (hin : ∀ change ∈ rest, startMs < change.timestampMs ∧ change.timestampMs < endMs)
    (hsorted : rest.Pairwise fun a b => a.timestampMs ≤ b.timestampMs)
    (hle : ∀ previous ∈ changes, ∀ change ∈ rest, previous.timestampMs ≤ change.timestampMs) :
    Deduplicated startMs endMs (rest.foldl deduplicateStep changes) := by
  induction rest generalizing changes with
  | nil => exact h
  | cons change rest ih =>
    obtain ⟨hchange, hrest⟩ := List.pairwise_cons.1 hsorted
    obtain ⟨hstep, hbelow⟩ := deduplicated_step h (hin change List.mem_cons_self) fun previous hprevious =>
      hle previous hprevious change List.mem_cons_self
    exact ih hstep (fun c hc => hin c (List.mem_cons_of_mem _ hc)) hrest fun c hc d hd =>
      Int.le_trans (hbelow c hc) (hchange d hd)

variable [Zero F] [Add F] [Mul F] [Div F] {thresholds : SceneThresholds F}

theorem mem_of_mem_adaptiveChanges {changes : List (SceneChange F)} {change : SceneChange F}
    (h : change ∈ adaptiveChanges thresholds changes) : change ∈ changes := by
  obtain ⟨⟨other, index⟩, hmem, hsome⟩ := List.mem_filterMap.1 h
  dsimp only at hsome
  split at hsome
  · split_ifs at hsome
    cases hsome
    exact (List.mem_zipIdx' hmem).2 ▸ List.getElem_mem _
  · cases hsome

theorem deduplicated_changes (thresholds : SceneThresholds F) (events : SceneEvents F) (startMs endMs : Int) :
    Deduplicated startMs endMs (deduplicatedChanges thresholds events startMs endMs) := by
  refine deduplicated_foldl ⟨.nil, nofun⟩ (fun change hchange => ?_) sortedBy_pairwise nofun
  rcases List.mem_append.1 (mem_sortedBy.1 hchange) with h | h
  · exact contentChanges_inside (mem_of_mem_adaptiveChanges h)
  · exact blackChanges_inside h

/-! ## The scenes -/

theorem scenesBetween_detect {events : SceneEvents F} {scenes : List (DetectedScene F)}
    (h : detectVideoScenes thresholds events startMs endMs = .ok scenes) :
    startMs < endMs ∧
      ScenesBetween (sceneBoundaries (deduplicatedChanges thresholds events startMs endMs) startMs endMs)
        (scenes.map DetectedScene.toVideoScene) := by
  unfold detectVideoScenes at h
  split_ifs at h with hwindow
  obtain rfl := Except.ok.inj h
  refine ⟨by omega, ?_, fun i scene hscene => ?_⟩
  · simp only [List.length_map, List.length_take, List.length_zipIdx, List.length_zip, List.length_tail]
    omega
  · rw [List.map_map, List.getElem?_map] at hscene
    obtain ⟨⟨⟨left, right⟩, ordinal⟩, hnumbered, rfl⟩ := Option.map_eq_some_iff.1 hscene
    rw [List.getElem?_take] at hnumbered
    split_ifs at hnumbered
    rw [List.getElem?_zipIdx] at hnumbered
    obtain ⟨pair, hpair, heq⟩ := Option.map_eq_some_iff.1 hnumbered
    obtain ⟨rfl, rfl⟩ := Prod.mk.inj heq
    obtain ⟨hleft, hright⟩ := List.getElem?_zip_eq_some.1 hpair
    rw [List.getElem?_tail] at hright
    exact ⟨by show ((1 + i : Nat) : Int) = i + 1; omega, hleft, hright⟩

/-! ## What the result says -/

/-- The end of the window of a call. -/
def sceneEnd (worker : VideoSceneWorker) (durationMs : Int) : Int :=
  min durationMs (worker.windowEndMs.getD (worker.startMs + maxVideoWindowMs))

theorem call_eq_ok {worker : VideoSceneWorker} {source : VideoSource} {resources : SceneResources}
    (h : worker.call source = .ok resources) : ∃ scenes,
      source.detect worker.startMs (sceneEnd worker source.durationMs) = .ok scenes ∧
      selectSceneCoverage scenes worker.representativeFrameLimit = .ok resources.selected ∧
      resources.windowEndMs = sceneEnd worker source.durationMs ∧ resources.sceneCount = scenes.length := by
  unfold VideoSceneWorker.call at h
  obtain ⟨endMs, hend, h⟩ := bind_eq_ok.1 h
  obtain ⟨scenes, hscenes, h⟩ := bind_eq_ok.1 h
  obtain ⟨selected, hselected, h⟩ := bind_eq_ok.1 h
  obtain ⟨ocrFrames, -, h⟩ := bind_eq_ok.1 h
  cases h
  unfold sceneWindow at hend
  dsimp only at hend
  split_ifs at hend
  obtain rfl := Except.ok.inj hend
  exact ⟨scenes, hscenes, hselected, rfl, rfl⟩

theorem limitWarning_notMem_ocrWarnings (source : VideoSource) (includeOcr : Bool) (ocrFrameLimit : Int)
    (ocrFrames : Nat) (scenes : List VideoScene) :
    txt "VIDEO_SCENE_LIMIT_REACHED" ∉ ocrWarnings source includeOcr ocrFrameLimit ocrFrames scenes := by
  induction scenes generalizing ocrFrames with
  | nil => exact List.not_mem_nil
  | cons scene scenes ih =>
    rw [ocrWarnings]
    split_ifs
    · exact ih _
    · intro hmem
      rcases List.mem_cons.1 hmem with heq | hmem
      · have hletter := congrArg (fun t : Text => t[6]?) heq
        revert hletter
        simp [txt, ch]
      · exact ih _ hmem
    · exact ih _

/-- Fewer frames than scenes are selected where the limit is below their number. -/
theorem selected_ne_of_limit {scenes selected : List VideoScene} {limit : Int}
    (h : selectSceneCoverage scenes limit = .ok selected) (hscenes : scenes ≠ []) :
    selected.length = scenes.length ↔ (scenes.length : Int) ≤ limit := by
  by_cases hlimit : 1 ≤ limit
  · have hle := length_selectSceneCoverage hlimit h
    constructor
    · intro heq
      omega
    · intro hall
      unfold selectSceneCoverage at h
      rw [if_neg (by simp [hscenes]; omega), if_pos hall] at h
      rw [Except.ok.inj h]
  · unfold selectSceneCoverage at h
    rw [if_pos (.inl (by omega))] at h
    have hpos := List.length_pos_iff.2 hscenes
    rw [← Except.ok.inj h, List.length_nil]
    omega

theorem publish_eq_ok {worker : VideoSceneWorker} {source : VideoSource} {result : SceneResult}
    (h : worker.publish source = .ok result) : ∃ scenes selected,
      source.detect worker.startMs (sceneEnd worker source.durationMs) = .ok scenes ∧
      selectSceneCoverage scenes worker.representativeFrameLimit = .ok selected ∧
      (txt "VIDEO_SCENE_LIMIT_REACHED" ∈ result.warnings ↔
        maxVideoScenes ≤ scenes.length ∧ sceneEnd worker source.durationMs < source.durationMs) ∧
      result.selectionComplete = decide (selected.length = scenes.length) := by
  unfold VideoSceneWorker.publish at h
  obtain ⟨resources, hcall, h⟩ := bind_eq_ok.1 h
  obtain ⟨scenes, hscenes, hselected, hend, hcount⟩ := call_eq_ok hcall
  cases h
  refine ⟨scenes, resources.selected, hscenes, hselected, ?_, by rw [hcount]⟩
  have hother : txt "VIDEO_SCENE_LIMIT_REACHED" ∉ [txt "VIDEO_REPRESENTATIVE_FRAME_LIMIT_REACHED"] := by decide
  rw [List.mem_append, List.mem_append, hend, hcount]
  constructor
  · rintro ((hocr | hframe) | hlimit)
    · exact absurd hocr (limitWarning_notMem_ocrWarnings _ _ _ _ _)
    · split_ifs at hframe
      · exact absurd hframe hother
      · cases hframe
    · split_ifs at hlimit with hcond
      · exact hcond
      · cases hlimit
  · intro hcond
    rw [if_pos hcond]
    exact .inr (List.mem_singleton_self _)

/-- A published result holds the scenes to the window if fewer than 96 boundaries are left of the transitions, or the
window ends before the source and fewer than 96 frames are selected. -/
theorem sceneSegmentation_iff (thresholds : SceneThresholds F) (events : SceneEvents F) (durationMs : Int)
    (extractFrame : VideoScene → Except VideoFault Unit) (frameOcr : VideoScene → Bool) (worker : VideoSceneWorker)
    {result : SceneResult}
    (h : worker.publish (sceneSource thresholds events durationMs extractFrame frameOcr) = .ok result) :
    (∃ scenes, detectVideoScenes thresholds events worker.startMs (sceneEnd worker durationMs) = .ok scenes ∧
      SceneSegmentation worker.startMs (sceneEnd worker durationMs) (scenes.map DetectedScene.toVideoScene) result) ↔
    ((deduplicatedChanges thresholds events worker.startMs (sceneEnd worker durationMs)).length < maxVideoScenes ∨
      sceneEnd worker durationMs < durationMs ∧ worker.representativeFrameLimit < maxVideoScenes) := by
  obtain ⟨scenes, selected, hdetect, hselected, hwarning, hcomplete⟩ := publish_eq_ok h
  change (detectVideoScenes thresholds events worker.startMs (sceneEnd worker durationMs)).map _ = .ok scenes at hdetect
  cases hdetected : detectVideoScenes thresholds events worker.startMs (sceneEnd worker durationMs) with
  | error fault =>
    rw [hdetected] at hdetect
    cases hdetect
  | ok detected =>
    rw [hdetected] at hdetect
    obtain rfl := Except.ok.inj hdetect
    obtain ⟨hwindow, hbetween⟩ := scenesBetween_detect hdetected
    have hchanges := deduplicated_changes thresholds events worker.startMs (sceneEnd worker durationMs)
    have hlast := last_endMs_iff hchanges hbetween
    have hlength := hbetween.length_eq
    rw [length_sceneBoundaries] at hlength
    have hne : detected.map DetectedScene.toVideoScene ≠ [] := List.ne_nil_of_length_pos (by
      unfold maxVideoScenes at hlength
      omega)
    have hall := selected_ne_of_limit hselected hne
    have hlimited : (txt "VIDEO_SCENE_LIMIT_REACHED" ∈ result.warnings ∧ result.selectionComplete = false) ↔
        maxVideoScenes ≤ (detected.map DetectedScene.toVideoScene).length ∧ sceneEnd worker durationMs < durationMs ∧
          worker.representativeFrameLimit < (detected.map DetectedScene.toVideoScene).length := by
      rw [hwarning, hcomplete, decide_eq_false_iff_not, hall, not_le, and_assoc]
      rfl
    constructor
    · rintro ⟨_, ⟨⟩, hsegmentation⟩
      rcases hsegmentation.complete with hend | hsaid
      · exact .inl (hlast.1 hend)
      · obtain ⟨hmany, hwithin, hfewer⟩ := hlimited.1 hsaid
        exact .inr ⟨hwithin, by omega⟩
    · intro hcond
      refine ⟨detected, rfl, scenesBetween_spec hchanges hwindow hbetween ?_⟩
      by_cases hfew : (deduplicatedChanges thresholds events worker.startMs (sceneEnd worker durationMs)).length <
          maxVideoScenes
      · exact .inl (hlast.2 hfew)
      · obtain ⟨hwithin, hfewer⟩ := hcond.resolve_left hfew
        exact .inr (hlimited.2 ⟨by omega, hwithin, by omega⟩)

end

def sceneThresholds : SceneThresholds Rat := ⟨8, 5 / 2, 2⟩

/-- The whole of a source of a minute, by a worker with the limits of the code. -/
def wholeWorker : VideoSceneWorker := ⟨0, false, none, maxVideoRepresentativeFrames, maxVideoOcrFrames⟩

def minuteSource (events : SceneEvents Rat) : VideoSource :=
  sceneSource sceneThresholds events 60000 (fun _ => .ok ()) fun _ => true

theorem sceneSegmentation_iff_uncut : ∃ scenes,
    detectVideoScenes sceneThresholds (⟨[], [(1000, 2000)]⟩ : SceneEvents Rat) 0 60000 = .ok scenes := by
  obtain ⟨result, hresult⟩ : ∃ result, wholeWorker.publish (minuteSource ⟨[], [(1000, 2000)]⟩) = .ok result := ⟨_, rfl⟩
  obtain ⟨scenes, hscenes, -⟩ := (sceneSegmentation_iff _ _ _ _ _ _ hresult).2 (.inl (by decide))
  exact ⟨scenes, hscenes⟩

/-- Black for half of every second: 98 boundaries. -/
def blinkingEvents : SceneEvents Rat :=
  ⟨[], (List.range 49).map fun k => (1000 * (k : Int) + 300, 1000 * (k : Int) + 800)⟩

theorem blinkingEvents_cut : ∃ result, wholeWorker.publish (minuteSource blinkingEvents) = .ok result ∧
    ¬ ∃ scenes, detectVideoScenes sceneThresholds blinkingEvents 0 60000 = .ok scenes ∧
      SceneSegmentation 0 60000 (scenes.map DetectedScene.toVideoScene) result := by
  have hpublished : (wholeWorker.publish (minuteSource blinkingEvents)).toBool = true := by decide +kernel
  obtain ⟨result, hresult⟩ : ∃ result, wholeWorker.publish (minuteSource blinkingEvents) = .ok result := by
    cases hcall : wholeWorker.publish (minuteSource blinkingEvents) with
    | error fault =>
      rw [hcall] at hpublished
      cases hpublished
    | ok result => exact ⟨result, rfl⟩
  refine ⟨result, hresult, ?_⟩
  rintro ⟨scenes, hscenes, hsegmentation⟩
  rcases hsegmentation.complete with hend | ⟨hsaid, -⟩
  · have hfew := (last_endMs_iff (deduplicated_changes sceneThresholds blinkingEvents 0 60000)
      (scenesBetween_detect hscenes).2).1 hend
    exact absurd hfew (by decide +kernel)
  · obtain ⟨_, _, -, -, hwarning, -⟩ := publish_eq_ok hresult
    exact absurd (hwarning.1 hsaid).2 (by decide)

end Steward.Media
