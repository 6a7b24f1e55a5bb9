import Steward.Documents.EvidenceSlices
import Steward.Py.Paging
import Steward.Py.RoundRobin

/-!
# Presenting the items of a video

The items of a video are published modality by modality, a few of each in every
round, and cut into pages. `balancedVideoReadItems_fair` says what the order
keeps, and that the pages publish every item once.
-/

namespace Steward.Documents

open Py

inductive Modality where
  | sceneVisual | frameOcr | embeddedSubtitle | audioAsr | visualSemantic | other
  deriving DecidableEq, Repr

instance : Named Modality where
  all := [.sceneVisual, .frameOcr, .embeddedSubtitle, .audioAsr, .visualSemantic, .other]
  name
    | .sceneVisual => txt "SCENE_VISUAL"
    | .frameOcr => txt "FRAME_OCR"
    | .embeddedSubtitle => txt "EMBEDDED_SUBTITLE"
    | .audioAsr => txt "AUDIO_ASR"
    | .visualSemantic => txt "VISUAL_SEMANTIC"
    | .other => txt "OTHER"

/-- `VIDEO_RESULT_MODALITY_QUOTAS` -/
def videoResultModalityQuota : Modality → Nat
  | .sceneVisual => 2
  | .frameOcr => 2
  | .embeddedSubtitle => 2
  | .audioAsr => 4
  | .visualSemantic => 1
  | .other => 2

/-- `header_kinds` -/
def headerKinds : List Text :=
  [txt "video_document", txt "video_analysis_summary", txt "video_video_stream", txt "video_audio_stream",
    txt "video_subtitle_stream", txt "video_chapter", txt "video_query_window"]

/-- The bucket of a kind; `none` for a header. -/
def modalityOf (kind : Text) : Option Modality :=
  if kind ∈ headerKinds then none
  else if kind ∈ [txt "video_scene", txt "video_representative_frame"] then some .sceneVisual
  else if kind ∈ [txt "video_frame_ocr_text", txt "video_text_track"] then some .frameOcr
  else if kind = txt "video_embedded_subtitle_cue" then some .embeddedSubtitle
  else if (txt "audio_").isPrefixOf kind then some .audioAsr
  else if kind = txt "video_visual_semantic_anchor" then some .visualSemantic
  else some .other

theorem videoResultModalityQuota_pos (m : Modality) : 0 < videoResultModalityQuota m := by cases m <;> decide

section
variable {F : Type} (items : List (NormalizedDocumentItem F))

def headers : List (NormalizedDocumentItem F) := items.filter fun item => modalityOf item.kind = none

/-- `buckets[name]` -/
def bucket (m : Modality) : List (NormalizedDocumentItem F) := items.filter fun item => modalityOf item.kind = some m

def presentationRounds : List (List (NormalizedDocumentItem F)) :=
  rounds Named.all (bucket items) videoResultModalityQuota_pos fun _ => 0

/-- `_balanced_video_read_items` -/
def balancedVideoReadItems : List (NormalizedDocumentItem F) := headers items ++ (presentationRounds items).flatten

/-- The items and the next offset of one page of a video that is read. -/
def videoResultPage (limit offset : Nat) : Paging.Page (NormalizedDocumentItem F) :=
  Paging.slice (balancedVideoReadItems items) limit offset

/-- Nothing is lost, repeated or moved before what it follows, and in every round each modality gives
its next items, up to its quota. -/
structure FairOrder (out : List (NormalizedDocumentItem F)) : Prop where
  perm : out.Perm items
  headers : headers items <+: out
  order : ∀ m, bucket out m = bucket items m
  turns : ∃ rounds : List (List (NormalizedDocumentItem F)), out = Documents.headers items ++ rounds.flatten ∧
    ∀ (m : Modality) (i : Nat) (round : List (NormalizedDocumentItem F)), rounds[i]? = some round →
      bucket round m = ((bucket items m).drop (i * videoResultModalityQuota m)).take (videoResultModalityQuota m)

end

section
variable {F : Type} {items : List (NormalizedDocumentItem F)}

/-- The modality of an item; that of a header does not matter. -/
def bucketOf (item : NormalizedDocumentItem F) : Modality := (modalityOf item.kind).getD .other

theorem bucketOf_bucket {m : Modality} {item : NormalizedDocumentItem F} (h : item ∈ bucket items m) :
    bucketOf item = m := by
  have hm := of_decide_eq_true (List.mem_filter.1 h).2
  rw [bucketOf, hm, Option.getD_some]

/-- Among items that are no headers. -/
theorem bucket_eq_filter {out : List (NormalizedDocumentItem F)} (h : ∀ item ∈ out, modalityOf item.kind ≠ none)
    (m : Modality) : bucket out m = out.filter fun item => bucketOf item = m := by
  refine List.filter_congr fun item hitem => ?_
  obtain ⟨k, hk⟩ := Option.ne_none_iff_exists'.1 (h item hitem)
  simp only [bucketOf, hk, Option.getD_some, Option.some.injEq]

theorem modalityOf_presentationRounds {item : NormalizedDocumentItem F}
    (h : item ∈ (presentationRounds items).flatten) : modalityOf item.kind ≠ none := by
  have hmem := (rounds_perm (fun _ => 0)).mem_iff.1 h
  obtain ⟨m, -, hm⟩ := List.mem_flatMap.1 hmem
  rw [List.drop_zero] at hm
  rw [of_decide_eq_true (List.mem_filter.1 hm).2]
  exact Option.some_ne_none m

/-- Headers and buckets share the items out. -/
theorem headers_append_buckets_perm :
    (headers items ++ (Named.all : List Modality).flatMap (bucket items)).Perm items := by
  have hbody : ∀ item ∈ items.filter (fun item => !decide (modalityOf item.kind = none)), modalityOf item.kind ≠ none :=
    fun item hitem => by simpa using (List.mem_filter.1 hitem).2
  have hbucket : bucket items = fun m => (items.filter fun item => !decide (modalityOf item.kind = none)).filter
      fun item => bucketOf item = m := by
    funext m
    rw [← bucket_eq_filter hbody]
    unfold bucket
    rw [List.filter_filter]
    refine List.filter_congr fun item _ => ?_
    by_cases hm : modalityOf item.kind = some m <;> simp [hm]
  have hall : (items.filter fun item => !decide (modalityOf item.kind = none)).filter
      (fun item => bucketOf item ∈ (Named.all : List Modality)) =
      items.filter fun item => !decide (modalityOf item.kind = none) :=
    List.filter_eq_self.2 fun item _ => decide_eq_true (Named.complete _)
  have hshare := flatMap_filter_perm bucketOf (Named.all_nodup (α := Modality))
    (items.filter fun item => !decide (modalityOf item.kind = none))
  rw [hall] at hshare
  rw [hbucket]
  exact (hshare.append_left _).trans (List.filter_append_perm _ items)

theorem bucket_headers (m : Modality) : bucket (headers items) m = [] := by
  refine List.filter_eq_nil_iff.2 fun item hitem => ?_
  have hnone := of_decide_eq_true (List.mem_filter.1 hitem).2
  simp [hnone]

theorem bucket_presentationRounds (m : Modality) : bucket (presentationRounds items).flatten m = bucket items m := by
  rw [bucket_eq_filter fun item hitem => modalityOf_presentationRounds hitem]
  exact filter_rounds (fun _ _ => bucketOf_bucket) Named.all_nodup (fun _ => 0) (Named.complete m)

theorem balancedVideoReadItems_fairOrder : FairOrder items (balancedVideoReadItems items) := by
  refine ⟨?_, List.prefix_append _ _, fun m => ?_, presentationRounds items, rfl, fun m i round hi => ?_⟩
  · have hrounds : (presentationRounds items).flatten.Perm
        ((Named.all : List Modality).flatMap fun m => (bucket items m).drop 0) := rounds_perm fun _ => 0
    exact (hrounds.append_left _).trans headers_append_buckets_perm
  · unfold balancedVideoReadItems
    unfold bucket
    rw [List.filter_append]
    exact (congrArg₂ (· ++ ·) (bucket_headers m) (bucket_presentationRounds m)).trans (List.nil_append _)
  · have hbody : ∀ item ∈ round, modalityOf item.kind ≠ none := fun item hitem =>
      modalityOf_presentationRounds (List.mem_flatten.2 ⟨round, List.mem_of_getElem? hi, hitem⟩)
    rw [bucket_eq_filter hbody,
      filter_of_getElem?_rounds (fun _ _ => bucketOf_bucket) Named.all_nodup (fun _ => 0) (Named.complete m) hi,
      Nat.zero_add]

end

/-- The balanced order is fair, and following its pages from the first on, whatever their size, publishes
that order. -/
theorem balancedVideoReadItems_fair {F : Type} (items : List (NormalizedDocumentItem F)) :
    FairOrder items (balancedVideoReadItems items) ∧
    ∀ size, Paging.follow (fun offset => (.ok (videoResultPage items (size + 1) offset) : Except Exc _))
      (items.length + 1) 0 = .ok (some (balancedVideoReadItems items)) := by
  refine ⟨balancedVideoReadItems_fairOrder, fun size => ?_⟩
  have hfair : FairOrder items (balancedVideoReadItems items) := balancedVideoReadItems_fairOrder
  have hlength := hfair.perm.length_eq
  have hpages : ∀ offset, ∃ page, (.ok (videoResultPage items (size + 1) offset) : Except Exc _) = .ok page ∧
      Paging.Window (balancedVideoReadItems items) offset page ∧ Paging.Advances offset page := fun offset =>
    ⟨_, rfl, Paging.slice_window _ _ _, Paging.slice_advances _ (Nat.succ_pos size) offset⟩
  refine (Paging.follow_eq hpages (by omega) (by omega)).trans ?_
  rw [List.drop_zero]

end Steward.Documents
