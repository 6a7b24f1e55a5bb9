import Steward.Documents.Excerpts
import Steward.Py.PurePath

/-!
# The native projection of an EPUB

Every member of the reading order is parsed as XML; one that breaks off is
parsed again as HTML, and what the first parse had collected is dropped. Both
parses draw on one budget. `epubProjection_charges_iff` says when what was
charged is what is published: when no parse that breaks off has offered
anything before.
-/

namespace Steward.Documents

open Py

/-- `MAX_EPUB_NATIVE_READ_TEXT_BYTES` -/
def maxEpubNativeReadTextBytes : Nat := 512 * 1024

/-- `MAX_EPUB_NATIVE_ITEMS` -/
def maxEpubNativeItems : Nat := 3000

/-- `MAX_STREAMING_QUERY_MATCH_ITEMS` -/
def maxStreamingQueryMatchItems : Nat := 512

/-- `MAX_PARSED_ITEMS_OR_BLOCKS` -/
def maxParsedItemsOrBlocks : Nat := 20000

/-- `_EpubNativeBudget` -/
structure EpubBudget where
  structureOnly : Bool
  remainingTextBytes : Nat
  acceptedItems : Nat
  omittedItems : Nat

inductive EpubLocation where
  | document
  | sectionStart (index : Nat) (title : Text)
  | sectionText (index : Nat) (title : Text) (ordinal : Nat)
  deriving DecidableEq

structure EpubItem where
  kind : Text
  nodeId : Option Text
  role : Text
  textOrValue : Option Text
  parent : Option Text
  location : EpubLocation
  /-- `streaming_query_map` instead of `native_epub_projection`. -/
  streaming : Bool
  deriving DecidableEq

/-- The arguments of `_append_epub_projection_item` that describe an item. -/
structure EpubOffer where
  text : Text
  kind : Text
  role : Text
  parent : Text
  location : EpubLocation
  nodeId : Option Text

def EpubOffer.item (o : EpubOffer) (projected : Text) (streaming : Bool) : EpubItem :=
  ⟨o.kind, o.nodeId, o.role, some projected, some o.parent, o.location, streaming⟩

inductive EpubError where
  /-- `MemoryError("EPUB native projection exceeds its item bound")` -/
  | itemBound
  deriving DecidableEq

/-- `" ".join(text.split())` -/
def collapsed (text : Text) : Text := [ch ' '].intercalate ((text.splitOnP isSpace).filter fun w => w ≠ [])

def utf8Bytes (text : Text) : Nat := (Text.utf8 text).length

/-- `structure_only and role not in {"HEADING", "SECTION"}` -/
def skipsRole (structureOnly : Bool) (role : Text) : Bool :=
  structureOnly && !(role = txt "HEADING" || role = txt "SECTION")

def EpubBudget.full (b : EpubBudget) (bytes : Nat) : Bool :=
  decide (maxEpubNativeItems ≤ b.acceptedItems) || decide (b.remainingTextBytes < bytes)

def EpubBudget.omit (b : EpubBudget) : EpubBudget := { b with omittedItems := b.omittedItems + 1 }

def EpubBudget.charge (b : EpubBudget) (bytes : Nat) : EpubBudget :=
  { b with remainingTextBytes := b.remainingTextBytes - bytes, acceptedItems := b.acceptedItems + 1 }

section
variable (T : CharTable) (query : Option Text)

/-- `_append_epub_projection_item` -/
def appendEpubProjectionItem (state : List EpubItem × Option EpubBudget) (o : EpubOffer) :
    Except EpubError (List EpubItem × Option EpubBudget) :=
  let (items, budget) := state
  let normalized := collapsed o.text
  let projection := match query with
    | none => some normalized
    | some query => streamingQueryExcerpt T normalized query
  let push (projected : Text) (budget : Option EpubBudget) :=
    if (if query.isSome then maxStreamingQueryMatchItems else maxParsedItemsOrBlocks) ≤ items.length then
      throw .itemBound
    else pure (items ++ [o.item projected query.isSome], budget)
  if normalized = [] then pure (items, budget)
  else
    match projection with
    | none => pure (items, budget)
    | some projected =>
      match budget with
      | none => push projected none
      | some b =>
        if skipsRole b.structureOnly o.role then pure (items, budget)
        else if b.full (utf8Bytes projected) then pure (items, some b.omit)
        else push projected (some (b.charge (utf8Bytes projected)))

end

/-! ## Members -/

/-- An element at its end: its tag, and the `text` of the nodes of `element.iter()`. -/
structure XmlElement where
  tag : Text
  texts : List (Option Text)

/-- What `HTMLParser` reports. -/
inductive HtmlEvent where
  | startTag (tag : Text)
  | startEndTag (tag : Text)
  | data (data : Text)
  | endTag (tag : Text)

/-- A member of the archive: the elements that end before the parse does, whether it breaks off
there with `ParseError`, and what the HTML parser reports of it. -/
structure EpubMember where
  name : Text
  elements : List XmlElement
  malformed : Bool
  events : List HtmlEvent

/-- `Path(name).name` -/
def EpubMember.title (m : EpubMember) : Text := (PurePath.names m.name).getLast?.getD []

/-- `_xml_local_name` -/
def xmlLocalName (tag : Text) : Text := (tag.reverse.takeWhile fun c => c ≠ ch '}').reverse

/-- `_xml_element_text` -/
def xmlElementText (e : XmlElement) : Text := strip (e.texts.filterMap id).flatten

/-- `accepted` and `_ACCEPTED` -/
def epubAccepted : List Text :=
  [txt "p", txt "h1", txt "h2", txt "h3", txt "h4", txt "h5", txt "h6", txt "li", txt "td", txt "th"]

/-- The text of a tag, in the order in which the tags end. -/
abbrev TagText := Text × Text

def strictTexts (m : EpubMember) : List TagText :=
  (m.elements.map fun e => (xmlLocalName e.tag, xmlElementText e)).filter fun t => t.1 ∈ epubAccepted

section
variable (casefold : Text → Text)

/-- The open tags, the innermost first, with what was read since. -/
abbrev Frames := List TagText

def handleStartTag (frames : Frames) (tag : Text) : Frames :=
  if casefold tag ∈ epubAccepted then (casefold tag, []) :: frames else frames

def handleData (frames : Frames) (data : Text) : Frames := frames.map fun f => (f.1, f.2 ++ data)

/-- The innermost open tag of the name is emitted, and closed with all that is open in it. -/
def handleEndTag (frames : Frames) (tag : Text) : Frames × List TagText :=
  match frames.dropWhile fun f => f.1 ≠ casefold tag with
  | [] => (frames, [])
  | f :: outer => (outer, [f])

def handleEvent (frames : Frames) : HtmlEvent → Frames × List TagText
  | .startTag tag => (handleStartTag casefold frames tag, [])
  | .startEndTag tag => handleEndTag casefold (handleStartTag casefold frames tag) tag
  | .data data => (handleData frames data, [])
  | .endTag tag => handleEndTag casefold frames tag

/-- What `_TolerantEpubHtmlMapParser` emits; `finish` closes the open tags from the outermost on. -/
def tolerantTextsFrom (frames : Frames) : List HtmlEvent → List TagText
  | [] => frames.reverse
  | e :: events => (handleEvent casefold frames e).2 ++ tolerantTextsFrom (handleEvent casefold frames e).1 events

def tolerantTexts (m : EpubMember) : List TagText := tolerantTextsFrom casefold [] m.events

end

/-- `f"section:{section_index}"` -/
def sectionNode (index : Nat) : Text := txt "section:" ++ Text.ofNat index

def sectionOffer (index : Nat) (title : Text) : EpubOffer :=
  ⟨title, txt "epub_section", txt "SECTION", txt "document:root", .sectionStart index title, some (sectionNode index)⟩

/-- `"HEADING" if tag.startswith("h") else "PARAGRAPH"` -/
def tagRole (tag : Text) : Text := if tag.startsWith (txt "h") then txt "HEADING" else txt "PARAGRAPH"

def textOffers (index : Nat) (title : Text) (texts : List TagText) : List EpubOffer :=
  texts.zipIdx.map fun t => ⟨t.1.2, txt "epub_section_text", tagRole t.1.1, sectionNode index,
    .sectionText index title (t.2 + 1), none⟩

/-! ## The projection -/

def epubDocumentItem : EpubItem :=
  ⟨txt "epub_document", some (txt "document:root"), txt "DOCUMENT", none, none, .document, false⟩

structure EpubState where
  items : List EpubItem
  budget : Option EpubBudget
  fallbacks : Nat
  warnings : List Text

structure EpubProjection where
  items : List EpubItem
  containers : Nat
  warnings : List Text
  /-- The budget when the projection ends; it is not returned. -/
  budget : Option EpubBudget

section
variable (T : CharTable) (casefold : Text → Text) (query : Option Text)

def projectMember (s : EpubState) (index : Nat) (m : EpubMember) : Except EpubError EpubState := do
  let (items, budget) ←
    if query = none then appendEpubProjectionItem T query (s.items, s.budget) (sectionOffer index m.title)
    else pure (s.items, s.budget)
  let (strict, budget) ←
    (textOffers index m.title (strictTexts m)).foldlM (appendEpubProjectionItem T query) ([], budget)
  if m.malformed then
    -- what the strict parse collected is dropped, the budget is kept
    let (tolerant, budget) ←
      (textOffers index m.title (tolerantTexts casefold m)).foldlM (appendEpubProjectionItem T query) ([], budget)
    pure ⟨items ++ tolerant, budget, s.fallbacks + 1, s.warnings ++
      [txt "EPUB_HTML_TOLERANT_FALLBACK:" ++ Text.ofNat index ++ txt ":" ++ m.title.take 160]⟩
  else pure ⟨items ++ strict, budget, s.fallbacks, s.warnings⟩

/-- What is reported of the budget. -/
def EpubBudget.report (b : EpubBudget) (nativeView : Text) : List Text :=
  (txt "EPUB_NATIVE_VIEW:" ++ nativeView) ::
    if b.omittedItems = 0 then [] else [txt "EPUB_NATIVE_TEXT_ITEMS_OMITTED:" ++ Text.ofNat b.omittedItems]

def EpubState.finalWarnings (s : EpubState) (nativeView : Text) : List Text :=
  (if s.fallbacks = 0 then [] else [txt "EPUB_HTML_TOLERANT_FALLBACK_COUNT:" ++ Text.ofNat s.fallbacks]) ++
    s.warnings ++ s.budget.elim [] fun b => b.report nativeView

def EpubBudget.fresh (nativeView : Text) : EpubBudget :=
  ⟨nativeView = txt "STRUCTURE", maxEpubNativeReadTextBytes, 0, 0⟩

/-- `_epub_projection` of the members in reading order, with the warnings of `_epub_reading_order`. -/
def epubProjection (warnings : List Text) (nativeView : Text) (members : List EpubMember) :
    Except EpubError EpubProjection := do
  let start : EpubState :=
    if query = none then ⟨[epubDocumentItem], some (.fresh nativeView), 0, warnings⟩ else ⟨[], none, 0, warnings⟩
  let s ← (members.zipIdx 1).foldlM (fun s m => projectMember T casefold query s m.2 m.1) start
  pure ⟨s.items, members.length, s.finalWarnings nativeView, s.budget⟩

end

/-! ## What is charged -/

/-- The offer has a text, and its role is one of the view. -/
def Eligible (structureOnly : Bool) (o : EpubOffer) : Prop :=
  collapsed o.text ≠ [] ∧ skipsRole structureOnly o.role = false

instance (structureOnly : Bool) (o : EpubOffer) : Decidable (Eligible structureOnly o) :=
  inferInstanceAs (Decidable (_ ∧ _))

/-- The item an offer is published as when there is no query. -/
def EpubOffer.native (o : EpubOffer) : EpubItem := o.item (collapsed o.text) false

def eligibleItems (structureOnly : Bool) (offers : List EpubOffer) : List EpubItem :=
  (offers.filter fun o => Eligible structureOnly o).map EpubOffer.native

def EpubItem.bytes (i : EpubItem) : Nat := utf8Bytes (i.textOrValue.getD [])

def itemBytes (items : List EpubItem) : Nat := (items.map EpubItem.bytes).sum

/-- Eligible items are published in their order; one is left out only when those published before it
reach the number of items, or with its text the number of bytes. -/
inductive Publishes : List EpubItem → List EpubItem → Prop where
  | nil : Publishes [] []
  | publish {eligible published : List EpubItem} (i : EpubItem) :
      Publishes eligible published → Publishes (eligible ++ [i]) (published ++ [i])
  | omit {eligible published : List EpubItem} (i : EpubItem) : Publishes eligible published →
      maxEpubNativeItems ≤ published.length ∨ maxEpubNativeReadTextBytes < itemBytes published + i.bytes →
      Publishes (eligible ++ [i]) published

/-- The budget has been charged for the published items, and no others. -/
structure Charged (eligible published : List EpubItem) (b : EpubBudget) : Prop where
  items : b.acceptedItems = published.length
  bytes : b.remainingTextBytes + itemBytes published = maxEpubNativeReadTextBytes
  bounded : Publishes eligible published
  omitted : b.omittedItems + published.length = eligible.length

@[simp] theorem itemBytes_append (xs ys : List EpubItem) : itemBytes (xs ++ ys) = itemBytes xs + itemBytes ys := by
  simp [itemBytes]

@[simp] theorem itemBytes_singleton (i : EpubItem) : itemBytes [i] = i.bytes := by simp [itemBytes]

@[simp] theorem eligibleItems_append (structureOnly : Bool) (xs ys : List EpubOffer) :
    eligibleItems structureOnly (xs ++ ys) = eligibleItems structureOnly xs ++ eligibleItems structureOnly ys := by
  simp [eligibleItems]

/-- What a run of offers does to the budget: the items are kept for which it is charged. -/
structure Spends (b : EpubBudget) (offers : List EpubOffer) (kept : List EpubItem) (b' : EpubBudget) : Prop where
  view : b'.structureOnly = b.structureOnly
  accepted : b'.acceptedItems = b.acceptedItems + kept.length
  counted : b'.omittedItems + kept.length = b.omittedItems + (eligibleItems b.structureOnly offers).length
  charged : ∀ {eligible published : List EpubItem}, Charged eligible published b →
    Charged (eligible ++ eligibleItems b.structureOnly offers) (published ++ kept) b'

theorem Spends.refl (b : EpubBudget) : Spends b [] [] b where
  view := rfl
  accepted := rfl
  counted := rfl
  charged h := by simpa [eligibleItems] using h

theorem Spends.trans {b b' b'' : EpubBudget} {xs ys : List EpubOffer} {kept kept' : List EpubItem}
    (h : Spends b xs kept b') (h' : Spends b' ys kept' b'') : Spends b (xs ++ ys) (kept ++ kept') b'' where
  view := h'.view.trans h.view
  accepted := by rw [h'.accepted, h.accepted, List.length_append, Nat.add_assoc]
  counted := by
    have h1 := h.counted
    have h2 := h'.counted
    rw [h.view] at h2
    rw [eligibleItems_append, List.length_append, List.length_append]
    omega
  charged hc := by
    have := h'.charged (h.charged hc)
    rwa [h.view, List.append_assoc, List.append_assoc, ← eligibleItems_append] at this

section
variable {b : EpubBudget} {o : EpubOffer}

theorem eligibleItems_singleton (h : Eligible b.structureOnly o) : eligibleItems b.structureOnly [o] = [o.native] := by
  rw [eligibleItems, List.filter_cons_of_pos (by simpa using h)]
  rfl

theorem eligibleItems_singleton_of_not (h : ¬ Eligible b.structureOnly o) : eligibleItems b.structureOnly [o] = [] := by
  rw [eligibleItems, List.filter_cons_of_neg (by simpa using h)]
  rfl

theorem native_bytes (o : EpubOffer) : o.native.bytes = utf8Bytes (collapsed o.text) := rfl

theorem spends_skip (h : ¬ Eligible b.structureOnly o) : Spends b [o] [] b where
  view := rfl
  accepted := rfl
  counted := by rw [eligibleItems_singleton_of_not h]
  charged hc := by rwa [eligibleItems_singleton_of_not h, List.append_nil, List.append_nil]

theorem spends_omit (h : Eligible b.structureOnly o) (hfull : b.full o.native.bytes = true) : Spends b [o] [] b.omit where
  view := rfl
  accepted := rfl
  counted := by rw [eligibleItems_singleton h]; rfl
  charged {eligible published} hc := by
    rw [EpubBudget.full, Bool.or_eq_true, decide_eq_true_eq, decide_eq_true_eq] at hfull
    have hitems := hc.items
    have hbytes := hc.bytes
    have homitted := hc.omitted
    rw [eligibleItems_singleton h, List.append_nil]
    refine ⟨hitems, hbytes, .omit _ hc.bounded (hfull.imp (fun h => ?_) fun h => ?_), ?_⟩
    · omega
    · omega
    · rw [List.length_append, List.length_singleton, ← homitted, EpubBudget.omit]
      exact Nat.add_right_comm ..

theorem spends_charge (h : Eligible b.structureOnly o) (hfull : b.full o.native.bytes = false) :
    Spends b [o] [o.native] (b.charge o.native.bytes) where
  view := rfl
  accepted := rfl
  counted := by rw [eligibleItems_singleton h]; rfl
  charged {eligible published} hc := by
    rw [EpubBudget.full, Bool.or_eq_false_iff, decide_eq_false_iff_not, decide_eq_false_iff_not] at hfull
    have hitems := hc.items
    have hbytes := hc.bytes
    have homitted := hc.omitted
    rw [eligibleItems_singleton h]
    refine ⟨?_, ?_, .publish _ hc.bounded, ?_⟩
    · simp [EpubBudget.charge, hitems]
    · rw [itemBytes_append, itemBytes_singleton]
      change b.remainingTextBytes - o.native.bytes + _ = _
      omega
    · simp only [EpubBudget.charge, List.length_append, List.length_singleton]
      omega

theorem append_skip {T : CharTable} {items : List EpubItem} (h : ¬ Eligible b.structureOnly o) :
    appendEpubProjectionItem T none (items, some b) o = .ok (items, some b) := by
  simp only [appendEpubProjectionItem]
  split_ifs with hblank hskip
  · rfl
  · rfl
  all_goals exact absurd ⟨hblank, Bool.eq_false_iff.2 hskip⟩ h

theorem append_omit {T : CharTable} {items : List EpubItem} (h : Eligible b.structureOnly o)
    (hfull : b.full o.native.bytes = true) :
    appendEpubProjectionItem T none (items, some b) o = .ok (items, some b.omit) := by
  rw [native_bytes] at hfull
  simp only [appendEpubProjectionItem]
  rw [if_neg h.1, if_neg (Bool.eq_false_iff.1 h.2), if_pos hfull]
  rfl

theorem append_charge (T : CharTable) {items : List EpubItem} (hitems : items.length ≤ b.acceptedItems + 1)
    (h : Eligible b.structureOnly o) (hfull : b.full o.native.bytes = false) :
    appendEpubProjectionItem T none (items, some b) o =
      .ok (items ++ [o.native], some (b.charge o.native.bytes)) := by
  have hroom : ¬ maxParsedItemsOrBlocks ≤ items.length := by
    have hcount := (Bool.or_eq_false_iff.1 hfull).1
    rw [decide_eq_false_iff_not, maxEpubNativeItems] at hcount
    rw [maxParsedItemsOrBlocks]
    omega
  rw [native_bytes] at hfull
  simp only [appendEpubProjectionItem]
  rw [if_neg h.1, if_neg (Bool.eq_false_iff.1 h.2), if_neg (Bool.eq_false_iff.1 hfull)]
  exact if_neg hroom

/-- One offer: the list is far from its bound as long as the budget pays for it. -/
theorem append_spends (T : CharTable) {items : List EpubItem} (hitems : items.length ≤ b.acceptedItems + 1)
    (o : EpubOffer) : ∃ kept b', appendEpubProjectionItem T none (items, some b) o = .ok (items ++ kept, some b') ∧
      Spends b [o] kept b' := by
  by_cases heligible : Eligible b.structureOnly o
  · by_cases hfull : b.full o.native.bytes = true
    · exact ⟨[], b.omit, by rw [append_omit heligible hfull, List.append_nil], spends_omit heligible hfull⟩
    · have hroom : b.full o.native.bytes = false := Bool.eq_false_iff.2 hfull
      exact ⟨[o.native], b.charge o.native.bytes, append_charge T hitems heligible hroom, spends_charge heligible hroom⟩
  · exact ⟨[], b, by rw [append_skip heligible, List.append_nil], spends_skip heligible⟩

end

/-- A run of offers onto a list that the budget has paid for. -/
theorem offers_spend (T : CharTable) (offers : List EpubOffer) {items : List EpubItem} {b : EpubBudget}
    (hitems : items.length ≤ b.acceptedItems + 1) : ∃ kept b',
      offers.foldlM (appendEpubProjectionItem T none) (items, some b) = .ok (items ++ kept, some b') ∧
        Spends b offers kept b' := by
  induction offers generalizing items b with
  | nil => exact ⟨[], b, by rw [List.append_nil]; rfl, .refl b⟩
  | cons o offers ih =>
    obtain ⟨kept, b₁, hrun, hspend⟩ := append_spends T hitems o
    have hitems₁ : (items ++ kept).length ≤ b₁.acceptedItems + 1 := by
      rw [List.length_append, hspend.accepted]
      omega
    obtain ⟨kept', b₂, hrun', hspend'⟩ := ih hitems₁
    refine ⟨kept ++ kept', b₂, ?_, hspend.trans hspend'⟩
    rw [List.foldlM_cons, hrun, ok_bind_ok, hrun', List.append_assoc]

/-- Offers none of which is eligible leave everything as it is. -/
theorem offers_skip (T : CharTable) {offers : List EpubOffer} {items : List EpubItem} {b : EpubBudget}
    (h : ∀ o ∈ offers, ¬ Eligible b.structureOnly o) :
    offers.foldlM (appendEpubProjectionItem T none) (items, some b) = .ok (items, some b) := by
  induction offers with
  | nil => rfl
  | cons o offers ih =>
    rw [List.foldlM_cons, append_skip (h o List.mem_cons_self), ok_bind_ok]
    exact ih fun o ho => h o (List.mem_cons_of_mem _ ho)

/-! ## Members and their budget -/

/-- What the first parse of the member offers. -/
def strictOffers (index : Nat) (m : EpubMember) : List EpubOffer := textOffers index m.title (strictTexts m)

/-- The offers of the parse that counts. -/
def memberOffers (casefold : Text → Text) (index : Nat) (m : EpubMember) : List EpubOffer :=
  sectionOffer index m.title ::
    if m.malformed then textOffers index m.title (tolerantTexts casefold m) else strictOffers index m

/-- The offers of the parse that is dropped. -/
def droppedOffers (index : Nat) (m : EpubMember) : List EpubOffer := if m.malformed then strictOffers index m else []

/-- What happens to the items and the budget while members are read. -/
structure Reads (b : EpubBudget) (offers dropped : List EpubOffer) (kept : List EpubItem) (b' : EpubBudget) : Prop where
  view : b'.structureOnly = b.structureOnly
  accepted : b.acceptedItems + kept.length ≤ b'.acceptedItems
  /-- What is dropped has been counted. -/
  counted : b'.acceptedItems + b'.omittedItems = b.acceptedItems + b.omittedItems +
    (eligibleItems b.structureOnly offers).length + (eligibleItems b.structureOnly dropped).length
  charged : eligibleItems b.structureOnly dropped = [] → ∀ {eligible published : List EpubItem},
    Charged eligible published b →
      Charged (eligible ++ eligibleItems b.structureOnly offers) (published ++ kept) b'

theorem Spends.reads {b b' : EpubBudget} {offers : List EpubOffer} {kept : List EpubItem} (h : Spends b offers kept b') :
    Reads b offers [] kept b' where
  view := h.view
  accepted := h.accepted.ge
  counted := by
    have haccepted := h.accepted
    have hcounted := h.counted
    simp only [eligibleItems, List.filter_nil, List.map_nil, List.length_nil] at hcounted ⊢
    omega
  charged _ _ _ hc := h.charged hc

theorem Reads.trans {b b' b'' : EpubBudget} {xs ys dropped dropped' : List EpubOffer} {kept kept' : List EpubItem}
    (h : Reads b xs dropped kept b') (h' : Reads b' ys dropped' kept' b'') :
    Reads b (xs ++ ys) (dropped ++ dropped') (kept ++ kept') b'' where
  view := h'.view.trans h.view
  accepted := by
    have h1 := h.accepted
    have h2 := h'.accepted
    rw [List.length_append]
    omega
  counted := by
    have h1 := h.counted
    have h2 := h'.counted
    rw [h.view] at h2
    rw [eligibleItems_append, eligibleItems_append, List.length_append, List.length_append]
    omega
  charged hnone {_ _} hc := by
    rw [eligibleItems_append, List.append_eq_nil_iff] at hnone
    have := h'.charged (by rw [h.view]; exact hnone.2) (h.charged hnone.1 hc)
    rwa [h.view, List.append_assoc, List.append_assoc, ← eligibleItems_append] at this

/-- What a dropped parse offers is counted, and publishes nothing. -/
theorem Spends.dropped {b b' : EpubBudget} {offers : List EpubOffer} {kept : List EpubItem}
    (h : Spends b offers kept b') (hsame : eligibleItems b.structureOnly offers = [] → b' = b) :
    Reads b [] offers [] b' where
  view := h.view
  accepted := by rw [h.accepted]; exact Nat.le_add_right _ _
  counted := by
    have haccepted := h.accepted
    have hcounted := h.counted
    simp only [eligibleItems, List.filter_nil, List.map_nil, List.length_nil] at hcounted ⊢
    omega
  charged hnone {_ _} hc := by
    rw [hsame hnone]
    simpa [eligibleItems] using hc

theorem eligibleItems_eq_nil {structureOnly : Bool} {offers : List EpubOffer} :
    eligibleItems structureOnly offers = [] ↔ ∀ o ∈ offers, ¬ Eligible structureOnly o := by
  simp [eligibleItems, List.filter_eq_nil_iff]

theorem projectMember_reads {T : CharTable} {casefold : Text → Text} {s : EpubState} {b : EpubBudget} (hbudget : s.budget = some b)
    (hitems : s.items.length ≤ b.acceptedItems + 1) (index : Nat) (m : EpubMember) : ∃ s' kept b',
      projectMember T casefold none s index m = .ok s' ∧ s'.items = s.items ++ kept ∧ s'.budget = some b' ∧
        Reads b (memberOffers casefold index m) (droppedOffers index m) kept b' := by
  obtain ⟨section₀, b₀, hsection, hspend₀⟩ := append_spends T hitems (sectionOffer index m.title)
  have hempty {b : EpubBudget} : ([] : List EpubItem).length ≤ b.acceptedItems + 1 := Nat.zero_le _
  obtain ⟨strict, b₁, hstrict, hspend₁⟩ := offers_spend T (strictOffers index m) (b := b₀) hempty
  obtain ⟨tolerant, b₂, htolerant, hspend₂⟩ :=
    offers_spend T (textOffers index m.title (tolerantTexts casefold m)) (b := b₁) hempty
  have hmember : (textOffers index m.title (strictTexts m)).foldlM (appendEpubProjectionItem T none) ([], some b₀) =
      .ok (strict, some b₁) := hstrict
  rw [projectMember, if_pos rfl, hbudget, hsection, ok_bind_ok]
  dsimp only
  rw [hmember, ok_bind_ok]
  dsimp only
  by_cases hmalformed : m.malformed = true
  · rw [if_pos hmalformed, htolerant, ok_bind_ok]
    have hdropped : Reads b₀ [] (strictOffers index m) [] b₁ := hspend₁.dropped fun hnone => by
      have hskip : (strictOffers index m).foldlM (appendEpubProjectionItem T none) ([], some b₀) = .ok ([], some b₀) :=
        offers_skip T (eligibleItems_eq_nil.1 hnone)
      rw [hstrict] at hskip
      exact Option.some.inj (Prod.mk.inj (Except.ok.inj hskip)).2
    refine ⟨_, section₀ ++ tolerant, b₂, rfl, List.append_assoc .., rfl, ?_⟩
    rw [memberOffers, droppedOffers, if_pos hmalformed, if_pos hmalformed]
    simpa using hspend₀.reads.trans (hdropped.trans hspend₂.reads)
  · rw [if_neg hmalformed]
    refine ⟨_, section₀ ++ strict, b₁, rfl, List.append_assoc .., rfl, ?_⟩
    rw [memberOffers, droppedOffers, if_neg hmalformed, if_neg hmalformed]
    simpa using hspend₀.reads.trans hspend₁.reads

theorem members_read (T : CharTable) (casefold : Text → Text) (members : List (EpubMember × Nat)) {s : EpubState}
    {b : EpubBudget} (hbudget : s.budget = some b) (hitems : s.items.length ≤ b.acceptedItems + 1) : ∃ s' kept b',
      members.foldlM (fun s m => projectMember T casefold none s m.2 m.1) s = .ok s' ∧
        s'.items = s.items ++ kept ∧ s'.budget = some b' ∧
        Reads b (members.flatMap fun m => memberOffers casefold m.2 m.1)
          (members.flatMap fun m => droppedOffers m.2 m.1) kept b' := by
  induction members generalizing s b with
  | nil => exact ⟨s, [], b, rfl, (List.append_nil _).symm, hbudget, (Spends.refl b).reads⟩
  | cons m members ih =>
    obtain ⟨s₁, kept₁, b₁, hrun, hkept, hbudget₁, hreads⟩ :=
      projectMember_reads hbudget hitems m.2 m.1
    have hitems₁ : s₁.items.length ≤ b₁.acceptedItems + 1 := by
      have := hreads.accepted
      rw [hkept, List.length_append]
      omega
    obtain ⟨s₂, kept₂, b₂, hrun₂, hkept₂, hbudget₂, hreads₂⟩ := ih hbudget₁ hitems₁
    refine ⟨s₂, kept₁ ++ kept₂, b₂, ?_, ?_, hbudget₂, hreads.trans hreads₂⟩
    · rw [List.foldlM_cons, hrun, ok_bind_ok, hrun₂]
    · rw [hkept₂, hkept, List.append_assoc]

/-! ## The projection and its budget -/

/-- The eligible items of the members, as the parse that counts finds them. -/
def epubEligible (casefold : Text → Text) (nativeView : Text) (members : List EpubMember) : List EpubItem :=
  eligibleItems (nativeView = txt "STRUCTURE") ((members.zipIdx 1).flatMap fun m => memberOffers casefold m.2 m.1)

/-- The text would be published in the view, if there is room. -/
def Offered (nativeView : Text) (t : TagText) : Prop :=
  collapsed t.2 ≠ [] ∧ skipsRole (nativeView = txt "STRUCTURE") (tagRole t.1) = false

theorem charged_fresh (nativeView : Text) : Charged [] [] (.fresh nativeView) :=
  ⟨rfl, rfl, .nil, rfl⟩

theorem textOffers_none {nativeView : Text} {index : Nat} {title : Text} {texts : List TagText} :
    (∀ o ∈ textOffers index title texts, ¬ Eligible (nativeView = txt "STRUCTURE") o) ↔
      ∀ t ∈ texts, ¬ Offered nativeView t := by
  constructor
  · intro h t ht
    rw [← List.zipIdx_map_fst 0 texts] at ht
    obtain ⟨u, hu, rfl⟩ := List.mem_map.1 ht
    exact h _ (List.mem_map.2 ⟨u, hu, rfl⟩)
  · intro h o ho
    obtain ⟨u, hu, rfl⟩ := List.mem_map.1 ho
    exact h _ (List.fst_mem_of_mem_zipIdx hu)

theorem dropped_none {nativeView : Text} {members : List EpubMember} :
    eligibleItems (nativeView = txt "STRUCTURE") ((members.zipIdx 1).flatMap fun m => droppedOffers m.2 m.1) = [] ↔
      ∀ m ∈ members, m.malformed = true → ∀ t ∈ strictTexts m, ¬ Offered nativeView t := by
  rw [eligibleItems_eq_nil]
  constructor
  · intro h m hm hmalformed
    rw [← List.zipIdx_map_fst 1 members] at hm
    obtain ⟨u, hu, rfl⟩ := List.mem_map.1 hm
    have hnone : ∀ o ∈ textOffers u.2 u.1.title (strictTexts u.1), ¬ Eligible (nativeView = txt "STRUCTURE") o := by
      refine fun o ho => h o (List.mem_flatMap.2 ⟨u, hu, ?_⟩)
      rwa [droppedOffers, if_pos hmalformed]
    exact textOffers_none.1 hnone
  · intro h o ho
    obtain ⟨u, hu, ho⟩ := List.mem_flatMap.1 ho
    rw [droppedOffers] at ho
    split_ifs at ho with hmalformed
    · exact textOffers_none.2 (h u.1 (List.fst_mem_of_mem_zipIdx hu) hmalformed) o ho
    · exact absurd ho List.not_mem_nil

/-- The projection returns, and its budget was charged for the published items alone exactly when
no member that breaks off has offered a text before. -/
theorem epubProjection_charges_iff (T : CharTable) (casefold : Text → Text) (warnings : List Text) (nativeView : Text)
    (members : List EpubMember) : ∃ projection published b before,
      epubProjection T casefold none warnings nativeView members = .ok projection ∧
      projection.items = epubDocumentItem :: published ∧ projection.budget = some b ∧
      projection.warnings = before ++ b.report nativeView ∧
      (Charged (epubEligible casefold nativeView members) published b ↔
        ∀ m ∈ members, m.malformed = true → ∀ t ∈ strictTexts m, ¬ Offered nativeView t) := by
  obtain ⟨s, kept, b, hrun, hitems, hbudget, hreads⟩ := members_read T casefold (members.zipIdx 1)
    (s := ⟨[epubDocumentItem], some (.fresh nativeView), 0, warnings⟩) rfl (Nat.le_refl _)
  obtain ⟨before, hbefore⟩ : ∃ before, s.finalWarnings nativeView = before ++ b.report nativeView := by
    rw [EpubState.finalWarnings, hbudget]
    exact ⟨_, rfl⟩
  refine ⟨⟨s.items, members.length, s.finalWarnings nativeView, s.budget⟩, kept, b, before, ?_, hitems, hbudget, hbefore, ?_⟩
  · rw [epubProjection, if_pos rfl, hrun]
    rfl
  · rw [← dropped_none]
    constructor
    · intro hcharged
      have haccepted := hcharged.items
      have homitted := hcharged.omitted
      have hcounted := hreads.counted
      rw [epubEligible] at homitted
      refine List.eq_nil_of_length_eq_zero ?_
      simp only [EpubBudget.fresh] at hcounted
      omega
    · exact fun hnone => hreads.charged hnone (charged_fresh nativeView)

namespace Sample

/-- A paragraph, and a tag that is never closed. -/
def brokenMember : EpubMember :=
  ⟨txt "a.xhtml", [⟨txt "p", [some (txt "x")]⟩], true, [.startTag (txt "p"), .data (txt "x"), .endTag (txt "p")]⟩

/-- Three items are charged, the section and the paragraph are published. -/
theorem brokenMember_charged : ∃ projection published b,
    epubProjection asciiTable id none [] (txt "READ") [brokenMember] = .ok projection ∧
      projection.items = epubDocumentItem :: published ∧ projection.budget = some b ∧
      published.length = 2 ∧ b.acceptedItems = 3 ∧
      ¬ Charged (epubEligible id (txt "READ") [brokenMember]) published b :=
  ⟨_, _, _, rfl, rfl, rfl, rfl, rfl, fun h => absurd h.items (by decide)⟩

end Sample

end Steward.Documents
