import Steward.Documents.TextMatch
import Steward.Py.Grouping

/-!
# Evidence slices

`_build_slice`: the items around one item that matched, its anchor. The anchor
is taken first, then the headings above it, then its neighbours, the nearest
first, while characters of the budget are left. Indexes are those of the items
of one observation.
-/

namespace Steward.Documents

open Py

variable {F : Type}

/-! ## Items -/

structure NormalizedDocumentItem (F : Type) where
  kind : Text
  textOrValue : Option Text
  parent : Option Text
  location : List (Text × Value F)
  extension : Option (List (Text × Value F))
  nodeId : Option Text
  role : Option Text

/-- What the interpreter knows of characters, the digest of a value that has a canonical JSON, and the
locator that is published with an item. -/
structure EvidenceContext (F : Type) extends CharTable where
  /-- `str.lower` -/
  lower : Text → Text
  digest : Value F → Text
  nativeLocation : NormalizedDocumentItem F → Option Text → List Text → Value F

inductive Role where
  | heading
  | tableCell
  | table
  | paragraph
  | figure
  | named (role : Text)
  deriving DecidableEq

def Role.value : Role → Text
  | heading => txt "HEADING"
  | tableCell => txt "TABLE_CELL"
  | table => txt "TABLE"
  | paragraph => txt "PARAGRAPH"
  | figure => txt "FIGURE"
  | named role => role

/-- The role of that name. -/
def Role.ofText (t : Text) : Role :=
  if t = heading.value then heading else if t = tableCell.value then tableCell
  else if t = table.value then table else if t = paragraph.value then paragraph
  else if t = figure.value then figure else named t

/-- An `int` that is no `bool`, and not negative. -/
def levelOf : Value F → Option Int
  | .int n => if 0 ≤ n then some n else none
  | _ => none

/-- An `int` that is no `bool`, or a `str`. -/
def containerValue : Value F → Option (Int ⊕ Text)
  | .int n => some (.inl n)
  | .str t => some (.inr t)
  | _ => none

namespace NormalizedDocumentItem

/-- `_role` -/
def roleOf (E : EvidenceContext F) (item : NormalizedDocumentItem F) : Role :=
  match item.role with
  | some role => Role.ofText role
  | none =>
    let kind := E.lower item.kind
    if Text.hasInfix (txt "heading") kind ∨ kind.endsWith (txt "_title") then .heading
    else if Text.hasInfix (txt "table_cell") kind ∨ kind = txt "xlsx_cell" then .tableCell
    else if Text.hasInfix (txt "table") kind then .table
    else .paragraph

/-- `_heading_level` -/
def headingLevel (item : NormalizedDocumentItem F) : Int :=
  match levelOf (Value.get (item.extension.getD []) (txt "level")) with
  | some level => level
  | none => (levelOf (Value.get item.location (txt "depth"))).getD 1

/-- `_logical_container` -/
def logicalContainer (item : NormalizedDocumentItem F) : Option (Text × (Int ⊕ Text)) :=
  [txt "page", txt "sheet_index", txt "sheet", txt "slide"].findSome? fun key =>
    (containerValue (Value.get item.location key)).map fun value => (key, value)

end NormalizedDocumentItem

/-! ## Indexes -/

section
variable (E : EvidenceContext F) (items : List (NormalizedDocumentItem F))

/-- The indexes before `i`, the last first. -/
def earlier {n : Nat} (i : Fin n) : List (Fin n) := ((List.finRange n).filter (· < i)).reverse

/-- The indexes after `i`. -/
def later {n : Nat} (i : Fin n) : List (Fin n) := (List.finRange n).filter (i < ·)

def isHeading (i : Fin items.length) : Bool := items[i].roleOf E = .heading

/-- The last item of each node id. -/
def nodeIndex (nodeId : Text) : Option (Fin items.length) :=
  (List.finRange items.length).reverse.find? fun i => items[i].nodeId = some nodeId

/-- The node ids that are not in `seen`. -/
def unseen (seen : List Text) : List Text :=
  (items.filterMap NormalizedDocumentItem.nodeId).filter (· ∉ seen)

theorem unseen_lt {seen : List Text} {nodeId : Text} {i : Fin items.length} (hseen : nodeId ∉ seen)
    (h : nodeIndex items nodeId = some i) :
    (unseen items (nodeId :: seen)).length < (unseen items seen).length := by
  have hid : items[i].nodeId = some nodeId := by simpa using List.find?_some h
  have hmem : nodeId ∈ unseen items seen := by
    refine List.mem_filter.2 ⟨List.mem_filterMap.2 ⟨items[i], List.getElem_mem _, hid⟩, ?_⟩
    simpa using hseen
  have hsub : unseen items (nodeId :: seen) = (unseen items seen).filter (· ≠ nodeId) := by
    rw [unseen, unseen, List.filter_filter]
    refine List.filter_congr fun x _ => ?_
    simp [List.mem_cons]
  rw [hsub]
  exact List.length_filter_lt_length_iff_exists.2 ⟨nodeId, hmem, by simp⟩

/-- The headings on the way up from a parent. A parent that was seen, or that no item is, ends it. -/
def parentHeadings (seen : List Text) (parent : Option Text) : List (Fin items.length) :=
  match parent with
  | none => []
  | some nodeId =>
    if hseen : nodeId ∈ seen then []
    else
      match h : nodeIndex items nodeId with
      | none => []
      | some i =>
        have := unseen_lt items hseen h
        let rest := parentHeadings (nodeId :: seen) items[i].parent
        if isHeading E items i then i :: rest else rest
termination_by (unseen items seen).length

/-- The headings of ever smaller levels, from the indexes given on. -/
def outline (threshold : Int) : List (Fin items.length) → List (Fin items.length)
  | [] => []
  | i :: rest =>
    if isHeading E items i ∧ items[i].headingLevel < threshold then
      i :: if items[i].headingLevel ≤ 1 then [] else outline items[i].headingLevel rest
    else outline threshold rest

/-- `_heading_trail` -/
def headingTrail (anchor : Fin items.length) : List (Fin items.length) :=
  sortedKeys (parentHeadings E items [] items[anchor].parent ++ outline E items (1 <<< 30) (earlier anchor))

/-- The items of a window in one direction. Another page or sheet ends it. -/
def retained (container : Option (Text × (Int ⊕ Text))) :
    Nat → List (Fin items.length) → List (Fin items.length)
  | 0, _ => []
  | _, [] => []
  | count + 1, i :: rest =>
    let here := items[i].logicalContainer
    if container.isSome ∧ here.isSome ∧ here ≠ container then []
    else if items[i].textOrValue.isSome ∨ items[i].roleOf E ∈ [Role.heading, .table, .figure] then
      i :: retained container count rest
    else retained container (count + 1) rest

/-- `_window_indexes` -/
def windowIndexes (anchor : Fin items.length) (contextItems : Nat) : List (Fin items.length) :=
  let container := items[anchor].logicalContainer
  anchor :: (retained E items container contextItems (earlier anchor) ++
    retained E items container contextItems (later anchor))

/-- The heading that a section starts with. -/
def sectionHeading (anchor : Fin items.length) (trail : List (Fin items.length)) :
    Option (Fin items.length) :=
  if isHeading E items anchor then some anchor else trail.getLast?

/-- The items under a heading. -/
def sectionItems (heading : Fin items.length) : List (Fin items.length) :=
  heading :: (later heading).takeWhile fun i =>
    !(isHeading E items i && items[i].headingLevel ≤ items[heading].headingLevel)

/-- `_section_indexes` -/
def sectionIndexes (anchor : Fin items.length) (trail : List (Fin items.length)) (contextItems : Nat) :
    List (Fin items.length) :=
  let role := items[anchor].roleOf E
  if (role = .table ∨ role = .tableCell) ∧ items[anchor].parent.isSome then
    anchor :: (List.finRange items.length).filter fun i => items[i].parent = items[anchor].parent
  else
    match sectionHeading E items anchor trail with
    | none => windowIndexes E items anchor contextItems
    | some heading => anchor :: sectionItems E items heading

end

/-! ## Slices -/

inductive EvidenceMode where
  | auto
  | onlyMatch
  | window
  | wholeSection
  deriving DecidableEq, Repr

def EvidenceMode.value : EvidenceMode → Text
  | auto => txt "AUTO"
  | onlyMatch => txt "MATCH"
  | window => txt "WINDOW"
  | wholeSection => txt "SECTION"

inductive Relation where
  | anchor
  | headingTrail
  | context
  deriving DecidableEq, Repr

def Relation.value : Relation → Text
  | anchor => txt "ANCHOR"
  | headingTrail => txt "HEADING_TRAIL"
  | context => txt "CONTEXT"

structure DocumentEvidenceItem (F : Type) where
  itemIndex : Nat
  nodeId : Option Text
  role : Role
  kind : Text
  relation : Relation
  location : List (Text × Value F)
  nativeLocation : Value F
  parent : Option Text
  text : Option Text
  textTruncated : Bool
  matchMode : Option MatchMode

/-- `len(item.text or "")` -/
def DocumentEvidenceItem.textLength (item : DocumentEvidenceItem F) : Nat := (item.text.getD []).length

def DocumentEvidenceItem.payload (item : DocumentEvidenceItem F) : Value F :=
  .dict ([(txt "item_index", .int item.itemIndex), (txt "role", .str item.role.value),
      (txt "kind", .str item.kind), (txt "relation", .str item.relation.value),
      (txt "location", .dict item.location), (txt "native_location", item.nativeLocation),
      (txt "text_truncated", .bool item.textTruncated)] ++
    (item.nodeId.map fun t => (txt "node_id", .str t)).toList ++
    (item.parent.map fun t => (txt "parent", .str t)).toList ++
    (item.text.map fun t => (txt "text", .str t)).toList ++
    (item.matchMode.map fun m => (txt "match_mode", .str (Named.name m))).toList)

structure DocumentEvidenceSlice (F : Type) where
  sliceId : Text
  anchorItemIndex : Nat
  anchorNodeId : Option Text
  selectionMode : EvidenceMode
  headingTrail : List Nat
  pageNumbers : List Int
  items : List (DocumentEvidenceItem F)
  selectedCharacterCount : Nat
  omittedItemCount : Nat
  truncated : Bool

def optionalStr : Option Text → Value F
  | some t => .str t
  | none => .none

def DocumentEvidenceSlice.payload (slice : DocumentEvidenceSlice F) : Value F :=
  .dict ([(txt "slice_id", .str slice.sliceId), (txt "anchor_item_index", .int slice.anchorItemIndex),
      (txt "selection_mode", .str slice.selectionMode.value),
      (txt "heading_trail", .list (slice.headingTrail.map fun i => .int i)),
      (txt "page_numbers", .list (slice.pageNumbers.map .int)),
      (txt "items", .list (slice.items.map DocumentEvidenceItem.payload)),
      (txt "selected_character_count", .int slice.selectedCharacterCount),
      (txt "omitted_item_count", .int slice.omittedItemCount), (txt "truncated", .bool slice.truncated)] ++
    (slice.anchorNodeId.map fun t => (txt "anchor_node_id", .str t)).toList)

/-- `MAX_DOCUMENT_EVIDENCE_ITEM_CHARS` -/
def maxItemChars : Nat := 2048

/-- `MAX_DOCUMENT_EVIDENCE_SLICE_CHARS` -/
def maxSliceChars : Nat := 4096

/-- What a slice is built from. -/
structure SliceRequest where
  sourceFormat : Option Text
  sourceSha256 : Text
  query : Text
  mode : EvidenceMode
  contextItems : Nat

section
variable (E : EvidenceContext F) (items : List (NormalizedDocumentItem F)) (request : SliceRequest)
  (anchor : Fin items.length)

/-- The mode `AUTO` stands for. -/
def selectionMode : EvidenceMode :=
  if request.mode = .auto then
    if headingTrail E items anchor ≠ [] ∨ items[anchor].roleOf E ∈ [Role.heading, .table, .tableCell] then
      .wholeSection
    else .window
  else request.mode

/-- `selected`, in order -/
def selectedIndexes : List (Fin items.length) :=
  let trail := headingTrail E items anchor
  let around := match selectionMode E items request anchor with
    | .window => windowIndexes E items anchor request.contextItems
    | .wholeSection => sectionIndexes E items anchor trail request.contextItems
    | .auto | .onlyMatch => []
  sortedKeys (anchor :: around ++
    if selectionMode E items request anchor = .onlyMatch then [] else trail)

/-- The anchor, then its headings, then the rest, the nearest first. -/
def priorityKey (i : Fin items.length) : Nat ×ₗ Nat ×ₗ Fin items.length :=
  let rank := if i = anchor then 0 else if i ∈ headingTrail E items anchor then 1 else 2
  toLex (rank, toLex ((i.val - anchor.val) + (anchor.val - i.val), i))

def priority : List (Fin items.length) :=
  sortedBy (priorityKey E items anchor) (selectedIndexes E items request anchor)

def relationOf (i : Fin items.length) : Relation :=
  if i = anchor then .anchor else if i ∈ headingTrail E items anchor then .headingTrail else .context

/-- The texts of the headings. -/
def sectionPath : List Text :=
  (headingTrail E items anchor).filterMap fun i =>
    match items[i].textOrValue with
    | some text => if text = [] then none else some text
    | none => none

/-- `_bounded_item` -/
def boundedItem (anchorMatchMode : MatchMode) (i : Fin items.length) (remaining : Nat) :
    DocumentEvidenceItem F :=
  let itemLimit := min maxItemChars remaining
  { itemIndex := i
    nodeId := items[i].nodeId
    role := items[i].roleOf E
    kind := items[i].kind
    relation := relationOf E items anchor i
    location := items[i].location
    nativeLocation := E.nativeLocation items[i] request.sourceFormat (sectionPath E items anchor)
    parent := items[i].parent
    text := items[i].textOrValue.map (List.take itemLimit)
    textTruncated := items[i].textOrValue.any fun text => itemLimit < text.length
    matchMode := if i = anchor then some anchorMatchMode else none }

/-- The loop over the priorities: what is accepted, the latest last, and the characters used. -/
def acceptFrom (anchorMatchMode : MatchMode) (sliceBudget : Nat) (used : Nat) :
    List (Fin items.length) → List (DocumentEvidenceItem F) × Nat
  | [] => ([], used)
  | i :: rest =>
    let bounded := boundedItem E items request anchor anchorMatchMode i (sliceBudget - used)
    if sliceBudget ≤ used ∧ i ≠ anchor ∨
        bounded.textLength = 0 ∧ items[i].textOrValue.getD [] ≠ [] ∧ i ≠ anchor then
      acceptFrom anchorMatchMode sliceBudget used rest
    else
      let after := acceptFrom anchorMatchMode sliceBudget (used + bounded.textLength) rest
      (bounded :: after.1, after.2)

/-- The pages of the items. -/
def pagesOf (projected : List (DocumentEvidenceItem F)) : List Int :=
  sortedKeys (projected.filterMap fun item =>
    match Value.get item.location (txt "page") with
    | .int page => some page
    | _ => none)

/-- `_build_slice` -/
def buildSlice (anchorMatchMode : MatchMode) (characterBudget : Nat) : DocumentEvidenceSlice F :=
  let mode := selectionMode E items request anchor
  let accepted := acceptFrom E items request anchor anchorMatchMode (min characterBudget maxSliceChars) 0
    (priority E items request anchor)
  let projected := sortedBy DocumentEvidenceItem.itemIndex accepted.1
  let identity := .dict [(txt "source_sha256", .str request.sourceSha256), (txt "query", .str request.query),
    (txt "anchor_item_index", .int anchor.val), (txt "anchor_node_id", optionalStr items[anchor].nodeId),
    (txt "selection_mode", .str mode.value), (txt "items", .list (projected.map DocumentEvidenceItem.payload))]
  let omitted := (selectedIndexes E items request anchor).length - projected.length
  { sliceId := txt "slice:" ++ (E.digest identity).take 32
    anchorItemIndex := anchor
    anchorNodeId := items[anchor].nodeId
    selectionMode := mode
    headingTrail := (headingTrail E items anchor).map Fin.val
    pageNumbers := pagesOf projected
    items := projected
    selectedCharacterCount := accepted.2
    omittedItemCount := omitted
    truncated := decide (0 < omitted) || projected.any DocumentEvidenceItem.textTruncated }

end

end Steward.Documents
