import Mathlib
import Steward.Py.Chunks

/-!
# Text tracks

`_temporal_ocr_tracks` of `video_documents.py`: the texts that are read in the
frames of a video, joined over time. An observation is compared with the last
one of the last group only. `textTracks_iff` says when the tracks of each text
are nevertheless what they are without the other texts.
-/

namespace Steward.Media

open Py

def maxVideoOcrTrackGapMs : Int := 3000

/-- Four floats, left, top, right and bottom. -/
structure Region (F : Type) where
  left : F
  top : F
  right : F
  bottom : F
  deriving DecidableEq, Repr

/-- What the tracks read of an observation; `none` where there is no list of four floats. -/
structure OcrObservation (F : Type) where
  nodeId : Text
  textOrValue : Text
  timestampMs : Int
  streamIndex : Int
  normalizedText : Text
  normalizedBbox : Option (Region F)
  deriving DecidableEq, Repr

structure TextTrack where
  nodeId : Text
  textOrValue : Text
  ordinal : Nat
  startMs : Int
  endMs : Int
  streamIndex : Int
  normalizedText : Text
  memberNodeIds : List Text
  observationCount : Nat
  deriving DecidableEq, Repr

section
variable {F : Type}

/-- The track of a numbered group; `space` is the name space of the ids. -/
def trackOf (space : Text) (numbered : List (OcrObservation F) × Nat) : Option TextTrack := do
  let (group, ordinal) := numbered
  let first ← group.head?
  let last ← group.getLast?
  return {
    nodeId := txt "video:text-track:" ++ (if space = [] then [] else space ++ txt ":") ++ Text.ofNat ordinal
    textOrValue := first.textOrValue
    ordinal := ordinal
    startMs := first.timestampMs
    endMs := last.timestampMs
    streamIndex := first.streamIndex
    normalizedText := first.normalizedText
    memberNodeIds := group.map OcrObservation.nodeId
    observationCount := group.length }

theorem members_filterMap (space : Text) {groups : List (List (OcrObservation F))} (hnil : [] ∉ groups)
    (start : Nat) : ((groups.zipIdx start).filterMap (trackOf space)).map TextTrack.memberNodeIds =
      groups.map fun group => group.map OcrObservation.nodeId := by
  induction groups generalizing start with
  | nil => rfl
  | cons group groups ih =>
    rw [List.mem_cons, not_or] at hnil
    have hrest := ih hnil.2 (start + 1)
    obtain ⟨first, rest, rfl⟩ := List.exists_cons_of_ne_nil (Ne.symm hnil.1)
    obtain ⟨track, htrack, hmembers⟩ : ∃ track, trackOf space (first :: rest, start) = some track ∧
        track.memberNodeIds = (first :: rest).map OcrObservation.nodeId := ⟨_, rfl, rfl⟩
    rw [List.zipIdx_cons, List.filterMap_cons_some htrack, List.map_cons, List.map_cons, hrest, hmembers]

end

section
variable {F : Type} [Zero F] [Add F] [Sub F] [Mul F] [Div F] [Max F] [Min F] [LT F] [DecidableLT F] [LE F]
  [DecidableLE F]

/-- `_region_iou` -/
def regionIou (left right : Option (Region F)) : Option F :=
  match left, right with
  | some left, some right =>
    let intersectionWidth := max 0 (min left.right right.right - max left.left right.left)
    let intersectionHeight := max 0 (min left.bottom right.bottom - max left.top right.top)
    let intersection := intersectionWidth * intersectionHeight
    let leftArea := (left.right - left.left) * (left.bottom - left.top)
    let rightArea := (right.right - right.left) * (right.bottom - right.top)
    let union := leftArea + rightArea - intersection
    if 0 < union then some (intersection / union) else none
  | _, _ => none

variable (quarter : F)

/-- The observation continues a track that ends with `previous`; `quarter` is `0.25`. -/
def continues (previous observation : OcrObservation F) : Bool :=
  let gap := observation.timestampMs - previous.timestampMs
  let compatibleRegion :=
    match regionIou previous.normalizedBbox observation.normalizedBbox with
    | none => true
    | some overlap => decide (quarter ≤ overlap)
  decide (previous.normalizedText = observation.normalizedText ∧ 0 ≤ gap ∧ gap ≤ maxVideoOcrTrackGapMs) &&
    compatibleRegion

def byTimestamp (observations : List (OcrObservation F)) : List (OcrObservation F) :=
  sortedBy OcrObservation.timestampMs observations

/-- `groups` -/
def trackGroups (observations : List (OcrObservation F)) : List (List (OcrObservation F)) :=
  (byTimestamp observations).foldl (chunkStep (continues quarter)) []

/-- `_temporal_ocr_tracks` -/
def temporalOcrTracks (space : Text) (observations : List (OcrObservation F)) : List TextTrack :=
  ((trackGroups quarter observations).zipIdx 1).filterMap (trackOf space)

/-! ## When the texts are independent -/

/-- The observations are shared out; a group has one text, and its gaps are bounded; the groups of a text are those
of its observations alone. -/
structure TextTracksIndependent (observations : List (OcrObservation F)) : Prop where
  partition : (trackGroups quarter observations).flatten.Perm observations
  reported : ∀ space, (temporalOcrTracks quarter space observations).map TextTrack.memberNodeIds =
    (trackGroups quarter observations).map fun group => group.map OcrObservation.nodeId
  oneText : ∀ group ∈ trackGroups quarter observations, ∃ text, ∀ o ∈ group, o.normalizedText = text
  gaps : ∀ group ∈ trackGroups quarter observations, group.IsChain fun a b =>
    0 ≤ b.timestampMs - a.timestampMs ∧ b.timestampMs - a.timestampMs ≤ maxVideoOcrTrackGapMs
  independent : ∀ text, groupsOfKey OcrObservation.normalizedText (trackGroups quarter observations) text =
    trackGroups quarter (observations.filter fun o => o.normalizedText = text)

variable {quarter} {observations : List (OcrObservation F)}

theorem trackGroups_eq : trackGroups quarter observations = (byTimestamp observations).splitBy (continues quarter) :=
  foldl_chunkStep _

theorem continues_spec {a b : OcrObservation F} (h : continues quarter a b = true) :
    a.normalizedText = b.normalizedText ∧ 0 ≤ b.timestampMs - a.timestampMs ∧
      b.timestampMs - a.timestampMs ≤ maxVideoOcrTrackGapMs :=
  of_decide_eq_true (Bool.and_eq_true_iff.1 h).1

/-- The texts have tracks of their own where no observation stands between two of another text that one track
would hold. -/
theorem textTracks_iff (observations : List (OcrObservation F)) : TextTracksIndependent quarter observations ↔
    Uninterrupted (continues quarter) OcrObservation.normalizedText (byTimestamp observations) := by
  have hkey (a b : OcrObservation F) (h : continues quarter a b = true) : a.normalizedText = b.normalizedText :=
    (continues_spec h).1
  have halone (text : Text) : trackGroups quarter (observations.filter fun o => o.normalizedText = text) =
      ((byTimestamp observations).filter fun o => o.normalizedText = text).splitBy (continues quarter) := by
    rw [trackGroups_eq, byTimestamp, byTimestamp, filter_sortedBy]
  rw [← filter_splitBy_iff hkey]
  constructor
  · intro h text
    rw [← trackGroups_eq, ← halone]
    exact h.independent text
  · intro h
    refine ⟨?_, fun space => ?_, fun group hgroup => ?_, fun group hgroup => ?_, fun text => ?_⟩
    · rw [trackGroups_eq, List.flatten_splitBy]
      exact sortedBy_perm
    · refine members_filterMap space ?_ 1
      rw [trackGroups_eq]
      exact List.nil_notMem_splitBy _ _
    · rw [trackGroups_eq] at hgroup
      obtain ⟨first, rest, rfl⟩ := List.exists_cons_of_ne_nil (List.ne_nil_of_mem_splitBy hgroup)
      exact ⟨first.normalizedText, fun o ho => uniform_splitBy hkey _ _ hgroup o ho first List.mem_cons_self⟩
    · rw [trackGroups_eq] at hgroup
      exact (List.isChain_of_mem_splitBy hgroup).imp fun _ _ hab => (continues_spec hab).2
    · rw [halone, trackGroups_eq]
      exact h text

end

/-- A caption in two frames, with another text in the first of them. -/
def captionObservations : List (OcrObservation Rat) :=
  [⟨txt "s1:1", txt "Title", 0, 0, txt "title", none⟩, ⟨txt "s1:2", txt "Logo", 0, 0, txt "logo", none⟩,
    ⟨txt "s2:1", txt "Title", 1000, 0, txt "title", none⟩]

theorem captionObservations_split : ¬ TextTracksIndependent (1 / 4) captionObservations := fun h => by
  have heq := congrArg List.length (h.independent (txt "title"))
  revert heq
  decide

end Steward.Media
