import Steward.Documents.EvidenceSlices
import Steward.Py.Paging

/-!
# Evidence pages

`build_document_evidence_selection`: a page of slices, one for each item that
matches the query, until the limit or the character budget of the page is used
up. `evidenceSelection_pages`: the pages keep their budget, every slice holds its
anchor, and reading on visits every match once.
-/

namespace Steward.Documents

open Py

variable {F : Type}

/-! ## Requests and observations -/

/-- The evidence part of a request that `_validate_request` accepts. -/
structure EvidenceRequest where
  contentQuery : Text
  evidenceMode : EvidenceMode
  evidenceContextItems : Nat
  evidenceMaxCharacters : Nat
  contentLimit : Nat
  context_range : evidenceContextItems ≤ 8
  characters_range : 512 ≤ evidenceMaxCharacters ∧ evidenceMaxCharacters ≤ 32768
  limit_range : 1 ≤ contentLimit ∧ contentLimit ≤ 50

/-- What the selection reads of a document observation. -/
structure DocumentObservation (F : Type) where
  status : Text
  sourceFormat : Option Text
  sourceSha256 : Option Text
  items : List (NormalizedDocumentItem F)

/-- `document_match_mode` -/
def documentMatchMode (modes : List MatchMode) : Text :=
  match modes.dedup with
  | [] => Named.name MatchMode.exact
  | [mode] => Named.name mode
  | _ => txt "MIXED_DETERMINISTIC_NORMALIZATION"

structure DocumentEvidenceSelection (F : Type) where
  status : Text
  query : Text
  matchMode : Text
  requestedMode : EvidenceMode
  processingStrategy : Text
  parsedItemCount : Nat
  matchedItemCount : Nat
  matchedOccurrenceCount : Nat
  returnedSliceCount : Nat
  selectedItemCount : Nat
  selectedCharacterCount : Nat
  limit : Nat
  offset : Nat
  hasMore : Bool
  nextOffset : Option Nat
  contextItems : Nat
  maxCharacters : Nat
  slices : List (DocumentEvidenceSlice F)
  selectionDigest : Text

section
variable (E : EvidenceContext F) (items : List (NormalizedDocumentItem F))

/-- The match of an item, with its index. An item matches when the query occurs in it. -/
def anchorOf (query : Text) (i : Fin items.length) : Option (Fin items.length × DocumentTextMatch) :=
  match E.matchDocumentText (items.get i).textOrValue query with
  | some found => if found.count = 0 then none else some (i, found)
  | none => none

def anchorsOf (query : Text) : List (Fin items.length × DocumentTextMatch) :=
  (List.finRange items.length).filterMap (anchorOf E items query)

/-- The loop over the anchors of a page, `used` characters into it. -/
def slicesFrom (request : SliceRequest) (maxCharacters : Nat) :
    Nat → List (Fin items.length × DocumentTextMatch) → List (DocumentEvidenceSlice F)
  | _, [] => []
  | used, (anchor, found) :: rest =>
    if maxCharacters ≤ used then []
    else
      let slice := buildSlice E items request anchor found.mode (maxCharacters - used)
      slice :: slicesFrom request maxCharacters (used + slice.selectedCharacterCount) rest

def buildDocumentEvidenceSelection (request : SliceRequest) (maxCharacters limit offset : Nat)
    (searchable : Bool) : DocumentEvidenceSelection F :=
  let found := items.filterMap fun item => E.matchDocumentText item.textOrValue request.query
  let anchors := anchorsOf E items request.query
  let slices :=
    if searchable then slicesFrom E items request maxCharacters 0 ((anchors.drop offset).take limit) else []
  let nextOffset := offset + slices.length
  let hasMore := decide (nextOffset < anchors.length)
  let status :=
    if searchable = false then txt "NOT_SEARCHABLE" else if anchors ≠ [] then txt "COMPLETE" else txt "NO_MATCH"
  let occurrences := (found.map DocumentTextMatch.count).sum
  { status
    query := request.query
    matchMode := documentMatchMode (found.map DocumentTextMatch.mode)
    requestedMode := request.mode
    processingStrategy := txt "QUERY_MAP_THEN_BOUNDED_GRAPH_SELECTION"
    parsedItemCount := items.length
    matchedItemCount := anchors.length
    matchedOccurrenceCount := occurrences
    returnedSliceCount := slices.length
    selectedItemCount := (slices.map fun slice => slice.items.length).sum
    selectedCharacterCount := (slices.map DocumentEvidenceSlice.selectedCharacterCount).sum
    limit
    offset
    hasMore
    nextOffset := if hasMore then some nextOffset else none
    contextItems := request.contextItems
    maxCharacters
    slices
    selectionDigest := E.digest (.dict [(txt "status", .str status), (txt "query", .str request.query),
      (txt "requested_mode", .str request.mode.value), (txt "source_sha256", .str request.sourceSha256),
      (txt "source_format", optionalStr request.sourceFormat), (txt "parsed_item_count", .int items.length),
      (txt "matched_item_count", .int anchors.length), (txt "matched_occurrence_count", .int occurrences),
      (txt "limit", .int limit), (txt "offset", .int offset), (txt "context_items", .int request.contextItems),
      (txt "max_characters", .int maxCharacters),
      (txt "slices", .list (slices.map DocumentEvidenceSlice.payload))]) }

end

/-- The evidence that `inspect_document` selects from an observation: from its items when it is complete,
and from none when it is not. -/
def evidenceSelection (E : EvidenceContext F) (observation : DocumentObservation F) (request : EvidenceRequest)
    (contentOffset : Nat) : DocumentEvidenceSelection F :=
  let sliceRequest : SliceRequest := ⟨observation.sourceFormat, observation.sourceSha256.getD [],
    request.contentQuery, request.evidenceMode, request.evidenceContextItems⟩
  if observation.status ≠ txt "COMPLETE" then
    buildDocumentEvidenceSelection E [] sliceRequest request.evidenceMaxCharacters request.contentLimit
      contentOffset false
  else
    buildDocumentEvidenceSelection E observation.items sliceRequest request.evidenceMaxCharacters
      request.contentLimit contentOffset true

/-! ## One slice -/

section
variable {E : EvidenceContext F} {items : List (NormalizedDocumentItem F)} {request : SliceRequest}
  {anchor : Fin items.length} {mode : MatchMode} {budget used : Nat} {indexes : List (Fin items.length)}

/-- The characters of some items. -/
def textTotal (items : List (DocumentEvidenceItem F)) : Nat := (items.map DocumentEvidenceItem.textLength).sum

theorem textTotal_cons (item : DocumentEvidenceItem F) (items : List (DocumentEvidenceItem F)) :
    textTotal (item :: items) = item.textLength + textTotal items := List.sum_cons

theorem textTotal_perm {as bs : List (DocumentEvidenceItem F)} (h : as.Perm bs) : textTotal as = textTotal bs :=
  (h.map _).sum_nat

theorem textLength_boundedItem (i : Fin items.length) (remaining : Nat) :
    (boundedItem E items request anchor mode i remaining).textLength ≤ remaining := by
  show ((items[i].textOrValue.map (List.take (min maxItemChars remaining))).getD []).length ≤ remaining
  cases items[i].textOrValue with
  | none => exact Nat.zero_le _
  | some text =>
    show (text.take (min maxItemChars remaining)).length ≤ remaining
    rw [List.length_take]
    omega

/-- The count of the loop is the sum of what it accepted, and stays in the budget. -/
theorem acceptFrom_used (hused : used ≤ budget) :
    (acceptFrom E items request anchor mode budget used indexes).2 =
        used + textTotal (acceptFrom E items request anchor mode budget used indexes).1 ∧
      (acceptFrom E items request anchor mode budget used indexes).2 ≤ budget := by
  induction indexes generalizing used with
  | nil => exact ⟨rfl, hused⟩
  | cons i rest ih =>
    rw [acceptFrom]
    dsimp only
    split_ifs with hskip
    · exact ih hused
    · have hlen : (boundedItem E items request anchor mode i (budget - used)).textLength ≤ budget - used :=
        textLength_boundedItem i _
      generalize boundedItem E items request anchor mode i (budget - used) = bounded at hlen ⊢
      obtain ⟨hsum, hle⟩ := ih (show used + bounded.textLength ≤ budget by omega)
      refine ⟨?_, hle⟩
      show _ = used + textTotal (bounded :: _)
      rw [textTotal_cons, ← Nat.add_assoc]
      exact hsum

/-- No budget leaves the anchor out. -/
theorem anchor_accepted (h : anchor ∈ indexes) :
    ∃ item ∈ (acceptFrom E items request anchor mode budget used indexes).1,
      item.itemIndex = anchor ∧ item.relation = .anchor := by
  induction indexes generalizing used with
  | nil => cases h
  | cons i rest ih =>
    rw [acceptFrom]
    dsimp only
    by_cases hi : i = anchor
    · subst hi
      rw [if_neg (by simp)]
      refine ⟨_, List.mem_cons_self, rfl, ?_⟩
      exact if_pos rfl
    · have hrest : anchor ∈ rest := (List.mem_cons.1 h).resolve_left fun h => hi h.symm
      split_ifs with hskip
      · exact ih hrest
      · obtain ⟨item, hitem, hindex⟩ := @ih (used + _) hrest
        exact ⟨item, List.mem_cons_of_mem _ hitem, hindex⟩

theorem anchor_mem_priority : anchor ∈ priority E items request anchor := by
  rw [priority, mem_sortedBy, selectedIndexes]
  exact mem_sortedKeys.2 List.mem_cons_self

/-- A section holds the anchor it was selected for. -/
theorem anchor_mem_sectionIndexes (trail : List (Fin items.length)) (contextItems : Nat) :
    anchor ∈ sectionIndexes E items anchor trail contextItems := by
  unfold sectionIndexes
  dsimp only
  split_ifs
  · exact List.mem_cons_self
  · cases sectionHeading E items anchor trail with
    | none => exact List.mem_cons_self
    | some heading => exact List.mem_cons_self

/-- A slice counts its characters, and keeps its budget. -/
theorem buildSlice_characters (mode : MatchMode) (budget : Nat) :
    textTotal (buildSlice E items request anchor mode budget).items =
        (buildSlice E items request anchor mode budget).selectedCharacterCount ∧
      (buildSlice E items request anchor mode budget).selectedCharacterCount ≤ budget := by
  have hused : (acceptFrom E items request anchor mode (min budget maxSliceChars) 0
        (priority E items request anchor)).2 =
      0 + textTotal (acceptFrom E items request anchor mode (min budget maxSliceChars) 0
        (priority E items request anchor)).1 ∧ _ ≤ _ := acceptFrom_used (Nat.zero_le _)
  constructor
  · show textTotal (sortedBy _ _) = _
    rw [textTotal_perm sortedBy_perm]
    exact (hused.1.trans (Nat.zero_add _)).symm
  · exact hused.2.trans (min_le_left _ _)

/-- Its anchor is one of the items of a slice. -/
def Anchored (slice : DocumentEvidenceSlice F) : Prop :=
  ∃ item ∈ slice.items, item.itemIndex = slice.anchorItemIndex ∧ item.relation = .anchor

theorem buildSlice_anchored (mode : MatchMode) (budget : Nat) :
    Anchored (buildSlice E items request anchor mode budget) := by
  have hmem : anchor ∈ priority E items request anchor := anchor_mem_priority
  obtain ⟨item, hitem, hindex⟩ : ∃ item ∈ (acceptFrom E items request anchor mode
      (min budget maxSliceChars) 0 (priority E items request anchor)).1, _ := anchor_accepted hmem
  exact ⟨item, mem_sortedBy.2 hitem, hindex⟩

/-! ## One page -/

variable {maxCharacters : Nat} {anchors : List (Fin items.length × DocumentTextMatch)}

/-- The characters of the slices of a page. -/
def pageTotal (slices : List (DocumentEvidenceSlice F)) : Nat :=
  (slices.map fun slice => textTotal slice.items).sum

/-- The slices of a page keep its budget, count their characters, and are those of its first anchors. -/
structure PageOf (anchors : List (Fin items.length × DocumentTextMatch)) (remaining : Nat)
    (slices : List (DocumentEvidenceSlice F)) : Prop where
  bounded : pageTotal slices ≤ remaining
  counted : pageTotal slices = (slices.map DocumentEvidenceSlice.selectedCharacterCount).sum
  anchored : ∀ slice ∈ slices, Anchored slice
  indexes : slices.map DocumentEvidenceSlice.anchorItemIndex <+: anchors.map fun a => a.1.val
  nonempty : anchors ≠ [] → 0 < remaining → slices ≠ []

theorem slicesFrom_page (used : Nat) :
    PageOf anchors (maxCharacters - used) (slicesFrom E items request maxCharacters used anchors) := by
  induction anchors generalizing used with
  | nil => exact ⟨Nat.zero_le _, rfl, fun _ h => (by cases h), List.prefix_rfl, fun h => absurd rfl h⟩
  | cons a rest ih =>
    obtain ⟨anchor, found⟩ := a
    rw [slicesFrom]
    split_ifs with hfull
    · exact ⟨Nat.zero_le _, rfl, fun _ h => (by cases h), List.nil_prefix, fun _ h => by omega⟩
    · dsimp only
      obtain ⟨slice, hslice⟩ : ∃ slice, slice =
        buildSlice E items request anchor found.mode (maxCharacters - used) := ⟨_, rfl⟩
      have hanchor : Anchored slice := hslice ▸ buildSlice_anchored _ _
      have hindex : slice.anchorItemIndex = anchor := by rw [hslice]; rfl
      obtain ⟨hcount, hle⟩ : textTotal slice.items = slice.selectedCharacterCount ∧
        slice.selectedCharacterCount ≤ maxCharacters - used := hslice ▸ buildSlice_characters _ _
      rw [← hslice]
      have h := ih (used + slice.selectedCharacterCount)
      have hsum := h.bounded
      refine ⟨?_, ?_, ?_, ?_, fun _ _ => List.cons_ne_nil _ _⟩
      · rw [pageTotal, List.map_cons, List.sum_cons, ← pageTotal]
        omega
      · rw [pageTotal, List.map_cons, List.sum_cons, ← pageTotal, List.map_cons, List.sum_cons, h.counted, hcount]
      · intro s hs
        rcases List.mem_cons.1 hs with rfl | hs
        · exact hanchor
        · exact h.anchored s hs
      · rw [List.map_cons, List.map_cons, hindex]
        exact List.cons_prefix_cons.2 ⟨rfl, h.indexes⟩

end

/-! ## Matches -/

theorem count_of_match {T : CharTable} {value : Option Text} {query : Text} {found : DocumentTextMatch}
    (h : T.matchDocumentText value query = some found) : found.count ≠ 0 := by
  unfold CharTable.matchDocumentText at h
  cases value with
  | none => cases h
  | some value =>
    dsimp only at h
    split_ifs at h
    obtain ⟨mode, -, hmode⟩ := List.exists_of_findSome?_eq_some h
    obtain ⟨hnone, -⟩ | ⟨k, first, last, hne, hk, hq, -, -, hsome⟩ :=
      @matchWith_cases T mode value query
    · rw [hnone] at hmode; cases hmode
    · rw [hsome] at hmode
      cases hmode
      exact Nat.pos_iff_ne_zero.1 ((Text.count_pos hne).2 (hq ▸ hk.map _))

section
variable {E : EvidenceContext F} {items : List (NormalizedDocumentItem F)} {query : Text}

/-- The indexes of the items that match. -/
def matchedIndexes (E : EvidenceContext F) (items : List (NormalizedDocumentItem F)) (query : Text) : List Nat :=
  (anchorsOf E items query).map fun a => a.1.val

theorem anchorOf_eq_some {i j : Fin items.length} {found : DocumentTextMatch} :
    anchorOf E items query i = some (j, found) ↔
      i = j ∧ E.matchDocumentText (items.get i).textOrValue query = some found := by
  unfold anchorOf
  cases hmatch : E.matchDocumentText (items.get i).textOrValue query with
  | none => simp
  | some m => simp [count_of_match hmatch]

theorem mem_matchedIndexes {i : Nat} : i ∈ matchedIndexes E items query ↔
    ∃ item, items[i]? = some item ∧ (E.matchDocumentText item.textOrValue query).isSome := by
  constructor
  · intro h
    obtain ⟨⟨j, found⟩, hj, rfl⟩ := List.mem_map.1 h
    obtain ⟨j', -, hfound⟩ := List.mem_filterMap.1 hj
    obtain ⟨rfl, hmatch⟩ := anchorOf_eq_some.1 hfound
    exact ⟨items.get j', List.getElem?_eq_getElem _, by rw [hmatch]; rfl⟩
  · rintro ⟨item, hitem, hmatch⟩
    obtain ⟨hi, rfl⟩ := List.getElem?_eq_some_iff.1 hitem
    obtain ⟨found, hfound⟩ := Option.isSome_iff_exists.1 hmatch
    refine List.mem_map.2 ⟨(⟨i, hi⟩, found), List.mem_filterMap.2 ⟨⟨i, hi⟩, List.mem_finRange _, ?_⟩, rfl⟩
    exact anchorOf_eq_some.2 ⟨rfl, hfound⟩

/-- The matches are in the order of the items, each once. -/
theorem matchedIndexes_increasing : (matchedIndexes E items query).Pairwise (· < ·) := by
  rw [matchedIndexes, List.pairwise_map, anchorsOf, List.pairwise_filterMap]
  refine (List.pairwise_lt_finRange _).imp fun {i j} hij => ?_
  rintro ⟨i', a⟩ hi ⟨j', b⟩ hj
  obtain ⟨rfl, -⟩ := anchorOf_eq_some.1 hi
  obtain ⟨rfl, -⟩ := anchorOf_eq_some.1 hj
  exact hij

end

/-! ## Pages -/

/-- The items that a query looks at. -/
def DocumentObservation.searched (observation : DocumentObservation F) : List (NormalizedDocumentItem F) :=
  if observation.status = txt "COMPLETE" then observation.items else []

/-- The matches of an observation. -/
def matchedAnchors (E : EvidenceContext F) (observation : DocumentObservation F) (request : EvidenceRequest) :
    List Nat := matchedIndexes E observation.searched request.contentQuery

/-- The anchors that a page shows, and the offset it points to. -/
def evidencePage (E : EvidenceContext F) (observation : DocumentObservation F) (request : EvidenceRequest)
    (offset : Nat) : Paging.Page Nat where
  items := (evidenceSelection E observation request offset).slices.map DocumentEvidenceSlice.anchorItemIndex
  next := (evidenceSelection E observation request offset).nextOffset

section
variable (E : EvidenceContext F) (observation : DocumentObservation F) (request : EvidenceRequest) (offset : Nat)

/-- What a page promises: its slices are those of the matches from its offset on, within the budget, and at
least one of them while there is a match. -/
theorem evidenceSelection_page : ∃ anchors : List (Fin observation.searched.length × DocumentTextMatch),
    (anchors.map fun a => a.1.val) <+: (matchedAnchors E observation request).drop offset ∧
      (offset < (matchedAnchors E observation request).length → anchors ≠ []) ∧
      PageOf anchors request.evidenceMaxCharacters (evidenceSelection E observation request offset).slices := by
  by_cases hstatus : observation.status = txt "COMPLETE"
  · have hsearched : observation.searched = observation.items := if_pos hstatus
    unfold matchedAnchors evidenceSelection
    dsimp only
    rw [if_neg (not_not.2 hstatus), hsearched]
    refine ⟨((anchorsOf E observation.items request.contentQuery).drop offset).take request.contentLimit,
      ?_, ?_, ?_⟩
    · rw [matchedIndexes, ← List.map_drop, List.map_take]
      exact List.take_prefix _ _
    · intro hlt hnil
      have hlen := congrArg List.length hnil
      rw [matchedIndexes, List.length_map] at hlt
      rw [List.length_take, List.length_drop, List.length_nil] at hlen
      have hlimit := request.limit_range.1
      omega
    · exact slicesFrom_page 0
  · have hsearched : observation.searched = [] := if_neg hstatus
    have hslices : (evidenceSelection E observation request offset).slices = [] := by
      unfold evidenceSelection
      dsimp only
      rw [if_pos hstatus]
      rfl
    have hmatched : matchedAnchors E observation request = [] := by
      rw [matchedAnchors, hsearched]
      rfl
    rw [hslices, hmatched]
    exact ⟨[], by simp, fun h => absurd h (Nat.not_lt_zero _), Nat.zero_le _, rfl, fun _ h => (by cases h),
      List.prefix_rfl, fun h => absurd rfl h⟩

theorem nextOffset_buildDocumentEvidenceSelection (items : List (NormalizedDocumentItem F))
    (sliceRequest : SliceRequest) (maxCharacters limit : Nat) (searchable : Bool) :
    (buildDocumentEvidenceSelection E items sliceRequest maxCharacters limit offset searchable).nextOffset =
      if offset + (buildDocumentEvidenceSelection E items sliceRequest maxCharacters limit offset
          searchable).slices.length < (matchedIndexes E items sliceRequest.query).length then
        some (offset + (buildDocumentEvidenceSelection E items sliceRequest maxCharacters limit offset
          searchable).slices.length)
      else none := by
  rw [matchedIndexes, List.length_map]
  show (if decide (_ < _) = true then _ else _) = _
  simp only [decide_eq_true_eq]
  rfl

/-- `next_offset if has_more else None` -/
theorem hasMore_buildDocumentEvidenceSelection (items : List (NormalizedDocumentItem F))
    (sliceRequest : SliceRequest) (maxCharacters limit : Nat) (searchable : Bool) :
    (buildDocumentEvidenceSelection E items sliceRequest maxCharacters limit offset searchable).hasMore = true ↔
      ∃ next, (buildDocumentEvidenceSelection E items sliceRequest maxCharacters limit offset
        searchable).nextOffset = some next := by
  show _ ↔ ∃ next, (if (buildDocumentEvidenceSelection E items sliceRequest maxCharacters limit offset
    searchable).hasMore = true then some _ else none) = some next
  generalize (buildDocumentEvidenceSelection E items sliceRequest maxCharacters limit offset searchable).hasMore =
    more
  cases more with
  | true => exact iff_of_true rfl ⟨_, rfl⟩
  | false => exact iff_of_false Bool.false_ne_true (by rintro ⟨next, ⟨⟩⟩)

/-- The next page starts behind the last match shown. -/
theorem nextOffset_evidenceSelection : (evidenceSelection E observation request offset).nextOffset =
    if offset + (evidenceSelection E observation request offset).slices.length <
        (matchedAnchors E observation request).length then
      some (offset + (evidenceSelection E observation request offset).slices.length)
    else none := by
  unfold matchedAnchors DocumentObservation.searched evidenceSelection
  dsimp only
  by_cases hstatus : observation.status = txt "COMPLETE"
  · rw [if_neg (not_not.2 hstatus), if_pos hstatus]
    exact nextOffset_buildDocumentEvidenceSelection E offset _ _ _ _ _
  · rw [if_pos hstatus, if_neg hstatus]
    exact nextOffset_buildDocumentEvidenceSelection E offset _ _ _ _ _

theorem evidencePage_window :
    Paging.Window (matchedAnchors E observation request) offset (evidencePage E observation request offset) := by
  obtain ⟨anchors, hanchors, -, hpage⟩ := evidenceSelection_page E observation request offset
  refine ⟨hpage.indexes.trans hanchors, ?_⟩
  rw [evidencePage, List.length_map]
  exact nextOffset_evidenceSelection E observation request offset

theorem evidencePage_advances : Paging.Advances offset (evidencePage E observation request offset) := by
  intro next hnext
  obtain ⟨anchors, -, hne, hpage⟩ := evidenceSelection_page E observation request offset
  rw [Option.mem_def, evidencePage, nextOffset_evidenceSelection] at hnext
  split_ifs at hnext with hmore
  obtain rfl := Option.some.inj hnext
  have hbudget := request.characters_range.1
  have hslices := List.length_pos_of_ne_nil
    (hpage.nonempty (hne (by omega)) (show 0 < request.evidenceMaxCharacters by omega))
  omega

end

end Steward.Documents
