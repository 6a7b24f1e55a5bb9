import Steward.Py.Grouping
import Steward.Py.Intervals
import Steward.Py.Sampling
import Steward.Py.Path

/-!
# Decode windows of a video query

`video_documents.py`: the time windows around the items that match a query, the
scenes selected in a window, and the loop that decodes windows under a budget of
representative frames. Quotients are rounded exactly. What `ffmpeg` reports of a
source is a parameter.
-/

namespace Steward.Media

open Py

def maxVideoWindowMs : Int := 10 * 60 * 1000
def maxVideoRepresentativeFrames : Int := 12
def maxVideoOcrFrames : Int := 4
def maxVideoQueryMatches : Nat := 20
def maxVideoQueryDecodeWindows : Nat := 4
def videoQueryPaddingMs : Int := 5000

inductive VideoFault where
  /-- `VideoSourceInvalid` -/
  | sourceInvalid (message : Text)
  /-- `VideoRuntimeUnavailable` -/
  | runtimeUnavailable (message : Text)
  | zeroDivisionError
  | indexError
  deriving DecidableEq, Repr

/-! ## Items -/

/-- The times of a location. A key that is absent is `none`, a value that is not an
`int` is `some none`. -/
structure VideoLocation where
  startMs : Option (Option Int)
  endMs : Option (Option Int)
  timestampMs : Option (Option Int)
  deriving DecidableEq, Repr

/-- What the query windows read of an item; `none` where the type is another. -/
structure VideoItem where
  textOrValue : Option Text
  nodeId : Option Text
  location : Option VideoLocation
  sourceKind : Option Text
  deriving DecidableEq, Repr

/-- `location.get("start_ms", location.get("timestamp_ms"))` and
`location.get("end_ms", match_start)`, both of them integers. -/
def VideoLocation.range (location : VideoLocation) : Option (Int × Int) := do
  let start := location.startMs.getD (location.timestampMs.getD none)
  let stop := location.endMs.getD start
  return (← start, ← stop)

def VideoItem.range (item : VideoItem) : Option (Int × Int) := item.location.bind VideoLocation.range

structure QueryWindow where
  ordinal : Nat
  textOrValue : Option Text
  startMs : Int
  endMs : Int
  matchedNodeId : Option Text
  matchedSourceKind : Option Text
  joinedNodeIds : List Text
  representedSourceKinds : List Text
  deriving DecidableEq, Repr

section
variable (casefold : Text → Text) (items : List VideoItem) (query : Option Text) (windowStartMs windowEndMs : Int)

/-- The items whose text has the query. -/
def queryMatches (query : Text) : List VideoItem :=
  items.filter fun item =>
    match item.textOrValue with
    | some text => Text.hasInfix (casefold query) (casefold text)
    | none => false

/-- A range, padded and clipped to the window. -/
def paddedRange (range : Int × Int) : Int × Int :=
  (max windowStartMs (range.1 - videoQueryPaddingMs), min windowEndMs (range.2 + videoQueryPaddingMs))

def queryWindow (hit : VideoItem) (ordinal : Nat) (range : Int × Int) : QueryWindow :=
  let padded := paddedRange windowStartMs windowEndMs range
  let near := items.filter fun candidate =>
    match candidate.range with
    | some (left, right) => decide (left ≤ padded.2 ∧ padded.1 ≤ right)
    | none => false
  { ordinal
    textOrValue := hit.textOrValue
    startMs := padded.1
    endMs := padded.2
    matchedNodeId := hit.nodeId
    matchedSourceKind := hit.sourceKind
    joinedNodeIds := sortedSet (near.filterMap VideoItem.nodeId)
    representedSourceKinds := sortedSet (near.filterMap VideoItem.sourceKind) }

def queryWindows : List QueryWindow :=
  match query with
  | none => []
  | some query =>
    if query = [] then []
    else (((queryMatches casefold items query).take maxVideoQueryMatches).zipIdx 1).filterMap fun hit =>
      hit.1.range.map (queryWindow items windowStartMs windowEndMs hit.1 hit.2)

/-- `sorted(set(raw_windows))` -/
def sortedWindows (windows : List (Int × Int)) : List (Int × Int) := (sortedKeys (windows.map toLex)).map ofLex

def decodeWindowsFromQueryItems : List (Int × Int) × List Text :=
  let queryItems := queryWindows casefold items query windowStartMs windowEndMs
  let rawWindows := (queryItems.filter fun item => item.startMs < item.endMs).map fun item => (item.startMs, item.endMs)
  let sources := sortedSet (queryItems.filterMap QueryWindow.matchedSourceKind)
  ((coalesce (sortedWindows rawWindows)).take maxVideoQueryDecodeWindows, sources)

end

/-! ## Scenes -/

/-- What the selection reads of a detected scene. -/
structure VideoScene where
  ordinal : Int
  startMs : Int
  endMs : Int
  deriving DecidableEq, Repr

/-- `scenes[index]` -/
def sceneAt (scenes : List VideoScene) (index : Nat) : Except VideoFault VideoScene :=
  match scenes[index]? with
  | some scene => .ok scene
  | none => .error .indexError

def selectSceneCoverage (scenes : List VideoScene) (limit : Int) : Except VideoFault (List VideoScene) :=
  if limit ≤ 0 ∨ scenes = [] then .ok []
  else if scenes.length ≤ limit then .ok scenes
  -- range(1) has an index, and the quotient divides by limit - 1.
  else if limit = 1 then .error .zeroDivisionError
  else (spread scenes.length limit.toNat).mapM (sceneAt scenes)

/-- A source, as `ffprobe` and `ffmpeg` report it. -/
structure VideoSource where
  durationMs : Int
  /-- `detect_video_scenes` -/
  detect : Int → Int → Except VideoFault (List VideoScene)
  /-- The candidate frames of a scene are extracted and one is selected. -/
  extractFrame : VideoScene → Except VideoFault Unit
  /-- `_frame_ocr` does not raise. -/
  frameOcr : VideoScene → Bool

structure VideoSceneWorker where
  startMs : Int
  includeOcr : Bool
  windowEndMs : Option Int
  representativeFrameLimit : Int
  ocrFrameLimit : Int

structure SceneResources where
  windowStartMs : Int
  windowEndMs : Int
  sceneCount : Nat
  selected : List VideoScene
  ocrFrameCount : Nat
  deriving DecidableEq, Repr

/-- The window of a call: `VideoSceneWorker` refuses one outside the source or too long. -/
def sceneWindow (durationMs startMs : Int) (windowEndMs : Option Int) : Except VideoFault Int :=
  if startMs < 0 ∨ durationMs ≤ startMs then .error (.sourceInvalid (txt "video window start is outside the source"))
  else
    let endMs := min durationMs (windowEndMs.getD (startMs + maxVideoWindowMs))
    if endMs ≤ startMs ∨ maxVideoWindowMs < endMs - startMs then
      .error (.sourceInvalid (txt "video window end is outside the source"))
    else .ok endMs

/-- The selected scenes one after the other: a frame each, and its text while the limit lasts. -/
def renderScenes (source : VideoSource) (includeOcr : Bool) (ocrFrameLimit : Int) :
    Nat → List VideoScene → Except VideoFault Nat
  | ocrFrames, [] => .ok ocrFrames
  | ocrFrames, scene :: scenes => do
    source.extractFrame scene
    let read := includeOcr && decide ((ocrFrames : Int) < ocrFrameLimit) && source.frameOcr scene
    renderScenes source includeOcr ocrFrameLimit (if read then ocrFrames + 1 else ocrFrames) scenes

def VideoSceneWorker.call (worker : VideoSceneWorker) (source : VideoSource) : Except VideoFault SceneResources := do
  let endMs ← sceneWindow source.durationMs worker.startMs worker.windowEndMs
  let scenes ← source.detect worker.startMs endMs
  let selected ← selectSceneCoverage scenes worker.representativeFrameLimit
  let ocrFrames ← renderScenes source worker.includeOcr worker.ocrFrameLimit 0 selected
  return { windowStartMs := worker.startMs, windowEndMs := endMs, sceneCount := scenes.length, selected,
           ocrFrameCount := ocrFrames }

/-! ## The decode loop of `VideoTimelineWorker` -/

structure Decoding where
  sceneResources : List SceneResources
  remainingFrames : Int
  remainingOcrFrames : Int

def Decoding.start : Decoding := ⟨[], maxVideoRepresentativeFrames, maxVideoOcrFrames⟩

def Decoding.add (decoding : Decoding) (resources : SceneResources) : Decoding :=
  { sceneResources := decoding.sceneResources ++ [resources]
    remainingFrames := decoding.remainingFrames - resources.selected.length
    remainingOcrFrames := decoding.remainingOcrFrames - resources.ocrFrameCount }

/-- The windows decoded, and the fault that ends the loop. -/
def decodeLoop (source : VideoSource) (includeOcr : Bool) : Decoding → List (Int × Int) → Decoding × Option VideoFault
  | decoding, [] => (decoding, none)
  | decoding, (decodeStartMs, decodeEndMs) :: windows =>
    if decoding.remainingFrames ≤ 0 then (decoding, none)
    else
      let worker : VideoSceneWorker :=
        { startMs := decodeStartMs, includeOcr, windowEndMs := some decodeEndMs,
          representativeFrameLimit := decoding.remainingFrames, ocrFrameLimit := decoding.remainingOcrFrames }
      match worker.call source with
      | .error fault => (decoding, some fault)
      | .ok resources => decodeLoop source includeOcr (decoding.add resources) windows

/-- The windows that `VideoTimelineWorker` decodes: those of the query, or its own. -/
def timelineWindows (casefold : Text → Text) (items : List VideoItem) (contentQuery : Option Text)
    (startMs durationMs : Int) : List (Int × Int) :=
  let windowEndMs := min durationMs (startMs + maxVideoWindowMs)
  let queried := contentQuery.any fun query => query ≠ []
  let queryRange := if queried then (0, durationMs) else (startMs, windowEndMs)
  let decodeWindows := (decodeWindowsFromQueryItems casefold items contentQuery queryRange.1 queryRange.2).1
  if queried ∧ decodeWindows ≠ [] then decodeWindows else [(startMs, windowEndMs)]

/-- The representative frames of all the windows that a timeline decoded. -/
def selectedFrames (source : VideoSource) (includeOcr : Bool) (windows : List (Int × Int)) : Nat :=
  ((decodeLoop source includeOcr Decoding.start windows).1.sceneResources.map fun r => r.selected.length).sum

/-! ## The law of the decode windows -/

/-- Windows in order, apart, inside `lo..hi`, at most four, each one that a scene worker takes. -/
structure DecodeWindowsLaw (windows : List (Int × Int)) (lo hi durationMs : Int) : Prop where
  apart : windows.Pairwise fun a b => a.2 < b.1
  proper : ∀ w ∈ windows, w.1 < w.2
  inside : ∀ w ∈ windows, lo ≤ w.1 ∧ w.2 ≤ hi
  count : windows.length ≤ maxVideoQueryDecodeWindows
  admissible : ∀ w ∈ windows, sceneWindow durationMs w.1 (some w.2) = .ok w.2

theorem sceneWindow_eq_ok {durationMs start stop : Int} (hstart : 0 ≤ start) (hlt : start < stop)
    (hstop : stop ≤ durationMs) :
    sceneWindow durationMs start (some stop) = .ok stop ↔ stop - start ≤ maxVideoWindowMs := by
  unfold sceneWindow
  rw [if_neg (by omega)]
  dsimp only [Option.getD_some]
  rw [min_eq_right hstop]
  split_ifs with hbad
  · simp only [false_iff]
    omega
  · simp only [true_iff]
    omega

theorem mem_sortedWindows {w : Int × Int} {windows : List (Int × Int)} : w ∈ sortedWindows windows ↔ w ∈ windows := by
  unfold sortedWindows
  simp only [List.mem_map, mem_sortedKeys]
  constructor
  · rintro ⟨_, ⟨v, hv, rfl⟩, rfl⟩
    exact hv
  · exact fun hw => ⟨toLex w, ⟨w, hw, rfl⟩, rfl⟩

theorem sortedWindows_pairwise (windows : List (Int × Int)) :
    (sortedWindows windows).Pairwise fun a b => a.1 ≤ b.1 := by
  unfold sortedWindows sortedKeys
  rw [List.pairwise_map]
  refine (List.pairwise_insertionSort (· ≤ ·) _).imp fun {a b} hab => ?_
  rcases Prod.Lex.le_iff.1 hab with hlt | ⟨heq, -⟩
  · exact Int.le_of_lt hlt
  · exact Int.le_of_eq heq

section
variable {casefold : Text → Text} {items : List VideoItem} {query : Option Text} {lo hi : Int}

variable (casefold items query lo hi) in
/-- The ranges of the first matches, padded and clipped, that are not empty. -/
def matchedRanges : List (Int × Int) :=
  match query with
  | none => []
  | some query =>
    if query = [] then []
    else
      ((((queryMatches casefold items query).take maxVideoQueryMatches).filterMap VideoItem.range).map
        (paddedRange lo hi)).filter fun w => w.1 < w.2

theorem filterMap_zipIdx {α β : Type} (f : α → Option β) (xs : List α) (n : Nat) :
    (xs.zipIdx n).filterMap (fun x => f x.1) = xs.filterMap f := by
  induction xs generalizing n with
  | nil => rfl
  | cons x xs ih =>
    rw [List.zipIdx_cons, List.filterMap_cons, List.filterMap_cons, ih]

/-- The windows before they are coalesced are the padded ranges. -/
theorem rawWindows_eq :
    ((queryWindows casefold items query lo hi).filter fun item => item.startMs < item.endMs).map
      (fun item => (item.startMs, item.endMs)) = matchedRanges casefold items query lo hi := by
  unfold queryWindows matchedRanges
  cases query with
  | none => rfl
  | some query =>
    dsimp only
    split_ifs with hempty
    · rfl
    have hwindow : ∀ (hit : VideoItem) (n : Nat) (range : Int × Int),
        (fun item : QueryWindow => (item.startMs, item.endMs)) (queryWindow items lo hi hit n range) =
          paddedRange lo hi range := fun _ _ _ => rfl
    rw [← filterMap_zipIdx VideoItem.range _ 1, List.map_filterMap, List.filter_filterMap, List.filter_filterMap,
      List.map_filterMap]
    refine List.filterMap_congr fun hit _ => ?_
    cases hit.1.range with
    | none => rfl
    | some range =>
      simp only [Option.map_some, Option.filter_some, queryWindow]
      split_ifs <;> rfl

theorem matchedRanges_proper {w : Int × Int} (hw : w ∈ matchedRanges casefold items query lo hi) : w.1 < w.2 := by
  unfold matchedRanges at hw
  split at hw
  · cases hw
  · split_ifs at hw
    · cases hw
    · exact of_decide_eq_true (List.mem_filter.1 hw).2

theorem matchedRanges_inside {w : Int × Int} (hw : w ∈ matchedRanges casefold items query lo hi) :
    lo ≤ w.1 ∧ w.2 ≤ hi := by
  unfold matchedRanges at hw
  split at hw
  · cases hw
  · split_ifs at hw
    · cases hw
    · obtain ⟨range, -, rfl⟩ := List.mem_map.1 (List.mem_filter.1 hw).1
      exact ⟨le_max_left _ _, min_le_left _ _⟩

theorem coalesces_decodeWindows :
    Coalesces (sortedWindows (matchedRanges casefold items query lo hi))
      (coalesce (sortedWindows (matchedRanges casefold items query lo hi))) :=
  coalesces_coalesce (fun _ hw => matchedRanges_proper (mem_sortedWindows.1 hw)) (sortedWindows_pairwise _)

theorem decodeWindows_eq :
    (decodeWindowsFromQueryItems casefold items query lo hi).1 =
      (coalesce (sortedWindows (matchedRanges casefold items query lo hi))).take maxVideoQueryDecodeWindows := by
  unfold decodeWindowsFromQueryItems
  dsimp only
  rw [rawWindows_eq]

/-- The law is kept exactly where the first stretches of the padded ranges are short. -/
theorem decodeWindowsLaw_iff {durationMs : Int} (hlo : 0 ≤ lo) (hhi : hi ≤ durationMs) :
    DecodeWindowsLaw (decodeWindowsFromQueryItems casefold items query lo hi).1 lo hi durationMs ↔
      ShortStretches (sortedWindows (matchedRanges casefold items query lo hi)) maxVideoQueryDecodeWindows
        maxVideoWindowMs := by
  have hco := @coalesces_decodeWindows casefold items query lo hi
  have hproper : ∀ w ∈ sortedWindows (matchedRanges casefold items query lo hi), w.1 < w.2 :=
    fun w hw => matchedRanges_proper (mem_sortedWindows.1 hw)
  rw [← hco.shortStretches_iff hproper, decodeWindows_eq]
  have hinside : ∀ w ∈ coalesce (sortedWindows (matchedRanges casefold items query lo hi)), lo ≤ w.1 ∧ w.2 ≤ hi := by
    intro w hw
    obtain ⟨v, hv, hstart⟩ := hco.starts w hw
    obtain ⟨u, hu, hstop⟩ := hco.stops w hw
    rw [← hstart, ← hstop]
    exact ⟨(matchedRanges_inside (mem_sortedWindows.1 hv)).1, (matchedRanges_inside (mem_sortedWindows.1 hu)).2⟩
  have hadmissible : ∀ w ∈ coalesce (sortedWindows (matchedRanges casefold items query lo hi)),
      sceneWindow durationMs w.1 (some w.2) = .ok w.2 ↔ w.2 - w.1 ≤ maxVideoWindowMs := by
    intro w hw
    have hbounds := hinside w hw
    exact sceneWindow_eq_ok (by omega) (hco.proper w hw) (by omega)
  constructor
  · intro hlaw w hw
    exact (hadmissible w (List.mem_of_mem_take hw)).1 (hlaw.admissible w hw)
  · intro hshort
    refine ⟨hco.separated.sublist (List.take_sublist _ _), fun w hw => hco.proper w (List.mem_of_mem_take hw),
      fun w hw => hinside w (List.mem_of_mem_take hw), List.length_take_le _ _, fun w hw => ?_⟩
    exact (hadmissible w (List.mem_of_mem_take hw)).2 (hshort w hw)

end

/-! ## The law of the coverage -/

/-- Scenes in timeline order, at most `limit`, with the first and the last of two or more. -/
def CoverageLaw (scenes : List VideoScene) (limit : Int) : Prop :=
  ∃ selected, selectSceneCoverage scenes limit = .ok selected ∧ selected.length ≤ limit ∧ selected.Sublist scenes ∧
    (2 ≤ limit → selected.head? = scenes.head? ∧ selected.getLast? = scenes.getLast?)

theorem mapM_sceneAt {scenes : List VideoScene} {indexes : List Nat} (h : ∀ i ∈ indexes, i < scenes.length) :
    indexes.mapM (sceneAt scenes) = .ok (indexes.filterMap fun i => scenes[i]?) := by
  induction indexes with
  | nil => rfl
  | cons i rest ih =>
    have hi := h i List.mem_cons_self
    rw [List.mapM_cons, ih fun j hj => h j (List.mem_cons_of_mem _ hj), sceneAt, List.getElem?_eq_getElem hi,
      List.filterMap_cons, List.getElem?_eq_getElem hi]
    rfl

theorem coverage_limit_one {scenes : List VideoScene} (h : 1 < scenes.length) :
    selectSceneCoverage scenes 1 = .error .zeroDivisionError := by
  unfold selectSceneCoverage
  have hne : scenes ≠ [] := fun heq => by simp [heq] at h
  rw [if_neg (by simp [hne]), if_neg (by omega), if_pos rfl]

/-- One scene of several is a division by zero, and nothing else goes wrong. -/
theorem coverageLaw_iff {scenes : List VideoScene} {limit : Int} (hlimit : 1 ≤ limit) :
    CoverageLaw scenes limit ↔ limit ≠ 1 ∨ scenes.length ≤ 1 := by
  by_cases hone : limit = 1 ∧ 1 < scenes.length
  · obtain ⟨rfl, hmany⟩ := hone
    refine iff_of_false ?_ (by omega)
    rintro ⟨selected, hselected, -⟩
    rw [coverage_limit_one hmany] at hselected
    cases hselected
  refine iff_of_true ?_ (by omega)
  unfold CoverageLaw selectSceneCoverage
  by_cases hempty : scenes = []
  · subst hempty
    refine ⟨[], ?_, ?_, List.Sublist.refl _, fun _ => ⟨rfl, rfl⟩⟩
    · rw [if_pos (.inr rfl)]
    · show (0 : Int) ≤ limit
      omega
  have hpos : 0 < scenes.length := List.length_pos_iff.2 hempty
  rw [if_neg (by simp [hempty]; omega)]
  by_cases hfew : (scenes.length : Int) ≤ limit
  · rw [if_pos hfew]
    exact ⟨scenes, rfl, hfew, List.Sublist.refl _, fun _ => ⟨rfl, rfl⟩⟩
  rw [if_neg hfew, if_neg (by omega)]
  obtain ⟨hincreasing, hbound, hlength, hfirst, hlast⟩ := spread_spec hpos (show 2 ≤ limit.toNat by omega)
  refine ⟨_, mapM_sceneAt hbound, ?_, pick_sublist hincreasing hbound, fun _ =>
    ⟨pick_head? hincreasing hbound hfirst, pick_getLast? hincreasing hbound hlast⟩⟩
  have hpicked := List.length_filterMap_le (fun i => scenes[i]?) (spread scenes.length limit.toNat)
  omega

/-! ## The budget of the decode loop -/

section
variable {source : VideoSource} {includeOcr : Bool}

theorem length_selectSceneCoverage {scenes selected : List VideoScene} {limit : Int} (hlimit : 1 ≤ limit)
    (h : selectSceneCoverage scenes limit = .ok selected) : selected.length ≤ limit := by
  by_cases hgood : limit ≠ 1 ∨ scenes.length ≤ 1
  · obtain ⟨other, hother, hlength, -⟩ := (coverageLaw_iff hlimit).2 hgood
    rw [h] at hother
    cases hother
    exact hlength
  · obtain ⟨rfl, hmany⟩ : limit = 1 ∧ 1 < scenes.length := by omega
    rw [coverage_limit_one hmany] at h
    cases h

/-- A scene worker selects at most as many frames as its limit. -/
theorem call_selected_le {worker : VideoSceneWorker} {resources : SceneResources}
    (hlimit : 1 ≤ worker.representativeFrameLimit) (h : worker.call source = .ok resources) :
    resources.selected.length ≤ worker.representativeFrameLimit := by
  unfold VideoSceneWorker.call at h
  obtain ⟨endMs, -, h⟩ := bind_eq_ok.1 h
  obtain ⟨scenes, -, h⟩ := bind_eq_ok.1 h
  obtain ⟨selected, hselected, h⟩ := bind_eq_ok.1 h
  obtain ⟨ocrFrames, -, h⟩ := bind_eq_ok.1 h
  cases h
  exact length_selectSceneCoverage hlimit hselected

/-- The frames selected and those that remain are the budget. -/
structure Decoding.Balanced (decoding : Decoding) : Prop where
  nonneg : 0 ≤ decoding.remainingFrames
  total : ((decoding.sceneResources.map fun r => r.selected.length).sum : Nat) + decoding.remainingFrames =
    maxVideoRepresentativeFrames

theorem Decoding.Balanced.add {decoding : Decoding} (h : decoding.Balanced) {resources : SceneResources}
    (hle : resources.selected.length ≤ decoding.remainingFrames) : (decoding.add resources).Balanced := by
  have htotal := h.total
  refine ⟨?_, ?_⟩
  · show 0 ≤ decoding.remainingFrames - resources.selected.length
    omega
  · unfold Decoding.add
    rw [List.map_append, List.sum_append]
    simp only [List.map_cons, List.map_nil, List.sum_cons, List.sum_nil]
    omega

theorem decodeLoop_balanced {decoding : Decoding} (h : decoding.Balanced) (windows : List (Int × Int)) :
    (decodeLoop source includeOcr decoding windows).1.Balanced := by
  induction windows generalizing decoding with
  | nil => exact h
  | cons w windows ih =>
    unfold decodeLoop
    dsimp only
    split_ifs with hspent
    · exact h
    split
    · exact h
    · rename_i resources hcall
      exact ih (h.add (call_selected_le (show 1 ≤ decoding.remainingFrames by omega) hcall))

/-- Over every run, whether it ends in a fault or not, the frames stay within the budget. -/
theorem selectedFrames_le (windows : List (Int × Int)) :
    (selectedFrames source includeOcr windows : Int) ≤ maxVideoRepresentativeFrames := by
  have hstart : Decoding.start.Balanced := ⟨by decide, by decide⟩
  obtain ⟨hnonneg, htotal⟩ := @decodeLoop_balanced source includeOcr _ hstart windows
  unfold selectedFrames
  omega

end

/-! ## Query-anchored decoding -/

section
variable (casefold : Text → Text) (items : List VideoItem) (query : Option Text) (lo hi durationMs : Int)
  (scenes : List VideoScene) (limit : Int)

/-- The decode windows of a query keep their law, a timeline keeps to its frames, and a
selection of scenes covers the timeline. -/
def QueryDecoding : Prop :=
  DecodeWindowsLaw (decodeWindowsFromQueryItems casefold items query lo hi).1 lo hi durationMs ∧
    (∀ (source : VideoSource) (includeOcr : Bool) (startMs : Int),
      (selectedFrames source includeOcr (timelineWindows casefold items query startMs source.durationMs) : Int) ≤
        maxVideoRepresentativeFrames) ∧
    CoverageLaw scenes limit

/-- Decoding keeps its laws exactly where none of the first four stretches of padded ranges
is longer than a window, and one scene is not to be chosen of several. -/
theorem queryDecoding_iff (hlo : 0 ≤ lo) (hhi : hi ≤ durationMs) (hlimit : 1 ≤ limit) :
    QueryDecoding casefold items query lo hi durationMs scenes limit ↔
      ShortStretches (sortedWindows (matchedRanges casefold items query lo hi)) maxVideoQueryDecodeWindows
          maxVideoWindowMs ∧ (limit ≠ 1 ∨ scenes.length ≤ 1) := by
  unfold QueryDecoding
  rw [decodeWindowsLaw_iff hlo hhi, coverageLaw_iff hlimit]
  have hframes : ∀ (source : VideoSource) (includeOcr : Bool) (startMs : Int),
      (selectedFrames source includeOcr (timelineWindows casefold items query startMs source.durationMs) : Int) ≤
        maxVideoRepresentativeFrames := fun _ _ _ => selectedFrames_le _
  constructor
  · rintro ⟨hshort, -, hone⟩
    exact ⟨hshort, hone⟩
  · rintro ⟨hshort, hone⟩
    exact ⟨hshort, hframes, hone⟩

end

/-- A subtitle of two seconds. -/
def shortCue : VideoItem :=
  { textOrValue := some (txt "the intro"), nodeId := some (txt "video:subtitle:1:1"),
    location := some { startMs := some (some 10000), endMs := some (some 12000), timestampMs := none },
    sourceKind := some (txt "EMBEDDED_SUBTITLE") }

def twoScenes : List VideoScene := [⟨1, 0, 4000⟩, ⟨2, 4000, 9000⟩]

theorem queryDecoding_shortCue :
    QueryDecoding id [shortCue] (some (txt "intro")) 0 3600000 3600000 twoScenes 2 := by
  have hranges : sortedWindows (matchedRanges id [shortCue] (some (txt "intro")) 0 3600000) = [(5000, 17000)] := by
    decide
  refine (queryDecoding_iff id [shortCue] (some (txt "intro")) 0 3600000 3600000 twoScenes 2 (by decide) (by decide)
    (by decide)).2 ⟨?_, .inl (by decide)⟩
  rw [hranges]
  intro a ha _ b hb
  have hstarts : stretchStarts [(5000, 17000)] = [5000] := by decide
  rw [hstarts, List.mem_singleton] at ha
  subst ha
  by_contra hlong
  unfold maxVideoWindowMs at hlong
  have hcovered := hb 17001 (by decide) (by omega)
  exact absurd hcovered (by decide)

/-- A chapter of eleven minutes in a video of one hour. -/
def longChapter : VideoItem :=
  { textOrValue := some (txt "Intro"), nodeId := some (txt "video:chapter:1"),
    location := some { startMs := some (some 0), endMs := some (some 660000), timestampMs := none },
    sourceKind := none }

/-- The matching chapter becomes a window that the scene worker refuses, and the last frame
of the budget is divided by zero. -/
theorem longChapter_refused :
    ¬ QueryDecoding id [longChapter] (some (txt "Intro")) 0 3600000 3600000 twoScenes 1 ∧
      (decodeWindowsFromQueryItems id [longChapter] (some (txt "Intro")) 0 3600000).1 = [(0, 665000)] ∧
      sceneWindow 3600000 0 (some 665000) = .error (.sourceInvalid (txt "video window end is outside the source")) ∧
      selectSceneCoverage twoScenes 1 = .error .zeroDivisionError := by
  have hwindow : (decodeWindowsFromQueryItems id [longChapter] (some (txt "Intro")) 0 3600000).1 = [(0, 665000)] := by
    decide
  have hrefused : sceneWindow 3600000 0 (some 665000) =
      .error (.sourceInvalid (txt "video window end is outside the source")) := by decide
  refine ⟨fun h => ?_, hwindow, hrefused, by decide⟩
  have hok := h.1.admissible (0, 665000) (by rw [hwindow]; exact List.mem_singleton_self _)
  rw [hrefused] at hok
  cases hok

end Steward.Media
