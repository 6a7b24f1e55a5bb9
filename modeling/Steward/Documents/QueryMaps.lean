import Steward.Documents.DocxProjection
import Steward.Documents.EpubProjection
import Steward.Documents.NativeItems

/-!
# Query maps and full projections of packages

A query map reads a DOCX, a PPTX or an EPUB again, and returns the items that
match only. Beside it stands the projection of the whole document. What the
parsers of XML report of the members, and what python-pptx and MarkItDown make of
the package, is given.
-/

namespace Steward.Documents

open Py

variable {F : Type}

/-! ## Matches -/

/-- The arguments of `_append_streaming_match` that describe an item. -/
structure StreamingDraft (F : Type) where
  text : Text
  kind : Text
  role : Text
  parent : Text
  location : List (Text × Value F)

inductive QueryMapError where
  /-- `MemoryError("streaming package query map exceeds its result bound")` -/
  | resultBound
  /-- `ParseError` in a member that has to be there. -/
  | malformed
  | epub (e : EpubError)
  deriving DecidableEq

structure QueryMap (F : Type) where
  items : List (NormalizedDocumentItem F)
  containers : Nat
  warnings : List Text

def StreamingDraft.item (d : StreamingDraft F) (excerpt : Text) : NormalizedDocumentItem F where
  kind := d.kind
  textOrValue := some excerpt
  parent := some d.parent
  location := d.location
  extension := some [(txt "streaming_query_map", .bool true)]
  nodeId := none
  role := some d.role

section
variable (T : CharTable) (query : Text)

/-- `_append_streaming_match` -/
def appendStreamingMatch (items : List (NormalizedDocumentItem F)) (d : StreamingDraft F) :
    Except QueryMapError (List (NormalizedDocumentItem F)) :=
  match streamingQueryExcerpt T d.text query with
  | none => pure items
  | some excerpt =>
    if maxStreamingQueryMatchItems ≤ items.length then throw .resultBound else pure (items ++ [d.item excerpt])

/-- The item that a draft becomes when it matches. -/
def StreamingDraft.matched (d : StreamingDraft F) : Option (NormalizedDocumentItem F) :=
  (streamingQueryExcerpt T d.text query).map d.item

end

/-! ## Members -/

structure XmlNode extends XmlElement where
  attributes : List (Text × Text)

/-- What `_streaming_optional_xml_root` finds in a member; of a tree, the root and what is below, as `iter`
goes through it. -/
inductive OptionalPart where
  | oversized
  | malformed
  | root (root : XmlNode) (below : List XmlNode)

namespace OptionalPart

def nodes : OptionalPart → List XmlNode
  | oversized | malformed => []
  | root r below => r :: below

def warnings (component : Text) : OptionalPart → List Text
  | oversized => [txt "STREAMING_COMPONENT_RESOURCE_LIMIT:" ++ component]
  | malformed => [txt "STREAMING_COMPONENT_MALFORMED:" ++ component]
  | root _ _ => []

end OptionalPart

/-- The texts of the elements of that name. -/
def textsNamed (name : String) (elements : List XmlElement) : List Text :=
  (elements.filter fun e => xmlLocalName e.tag = txt name).map xmlElementText

/-! ## DOCX -/

/-- What `project_docx_auxiliary` projects. -/
inductive AuxiliaryKind where
  | comment | footnote | endnote | revision
  deriving DecidableEq

def AuxiliaryKind.name : AuxiliaryKind → Text
  | comment => txt "comment"
  | footnote => txt "footnote"
  | endnote => txt "endnote"
  | revision => txt "revision"

structure AuxiliaryItem (F : Type) where
  kind : AuxiliaryKind
  text : Text
  identifier : Value F
  extension : List (Text × Value F)

structure DocxPackage (F : Type) where
  /-- The elements of `word/document.xml` as they end, and whether it breaks off. -/
  elements : List XmlElement
  malformed : Bool
  comments : Option OptionalPart
  footnotes : Option OptionalPart
  endnotes : Option OptionalPart
  /-- The Markdown of MarkItDown. -/
  markdown : Text
  auxiliary : List (AuxiliaryItem F)

/-- `parent="document:current"` -/
def blockDrafts (elements : List XmlElement) : List (StreamingDraft F) :=
  ((textsNamed "p" elements).zipIdx 1).map fun t =>
    ⟨t.1, txt "docx_paragraph", txt "PARAGRAPH", documentNode, [(txt "block", .int t.2)]⟩

/-- The value of the first attribute that is named `id`. -/
def noteIdentifier (n : XmlNode) : Option Text :=
  (n.attributes.find? fun a => xmlLocalName a.1 = txt "id").map Prod.snd

/-- A note is left out whose identifier is negative. -/
def isNote (name : Text) (n : XmlNode) : Bool :=
  decide (xmlLocalName n.tag = name) && !((noteIdentifier n).any fun i => i.startsWith (txt "-"))

/-- The notes of a member: comments, footnotes or endnotes. -/
def noteDrafts (name : Text) (part : OptionalPart) : List (StreamingDraft F) :=
  ((part.nodes.filter (isNote name)).zipIdx 1).map fun n =>
    ⟨xmlElementText n.1.toXmlElement, txt "docx_" ++ name, txt "NOTE", documentNode,
      [(name, if noteIdentifier n.1 = none ∨ noteIdentifier n.1 = some [] then .int n.2
        else .str ((noteIdentifier n.1).getD []))]⟩

namespace DocxPackage

def parts (d : DocxPackage F) : List (Text × OptionalPart) :=
  [(txt "comment", d.comments), (txt "footnote", d.footnotes), (txt "endnote", d.endnotes)].filterMap fun p =>
    p.2.map fun part => (p.1, part)

def drafts (d : DocxPackage F) : List (StreamingDraft F) :=
  blockDrafts d.elements ++ d.parts.flatMap fun p => noteDrafts p.1 p.2

end DocxPackage

/-- `_streaming_docx_query_map` -/
def streamingDocxQueryMap (T : CharTable) (query : Text) (d : DocxPackage F) : Except QueryMapError (QueryMap F) := do
  let blocks ← (blockDrafts d.elements).foldlM (appendStreamingMatch T query) []
  if d.malformed then throw .malformed
  let items ← (d.parts.flatMap fun p => noteDrafts p.1 p.2).foldlM (appendStreamingMatch T query) blocks
  pure ⟨items, (textsNamed "p" d.elements).length, d.parts.flatMap fun p => p.2.warnings p.1⟩

/-! ## The projection of a DOCX -/

def AuxiliaryItem.native (a : AuxiliaryItem F) : NormalizedDocumentItem F where
  kind := txt "docx_" ++ a.kind.name
  textOrValue := some a.text
  parent := some documentNode
  location := [(a.kind.name, a.identifier)]
  extension := some a.extension
  nodeId := none
  role := some (if a.kind = .revision then txt "REVISION" else txt "NOTE")

def textOf : Value F → Option Text
  | .str t => some t
  | _ => none

def fieldsOf : Value F → Option (List (Text × Value F))
  | .dict fs => some fs
  | _ => none

/-- The record that `_normalized_items` reads. -/
def nativeOf (raw : List (Text × Value F)) : NormalizedDocumentItem F where
  kind := (textOf (Value.get raw (txt "kind"))).getD []
  textOrValue := textOf (Value.get raw (txt "text_or_value"))
  parent := textOf (Value.get raw (txt "parent"))
  location := (fieldsOf (Value.get raw (txt "location"))).getD []
  extension := fieldsOf (Value.get raw (txt "extension"))
  nodeId := textOf (Value.get raw (txt "node_id"))
  role := textOf (Value.get raw (txt "role"))

def DocxItem.native (item : DocxItem) : NormalizedDocumentItem F := nativeOf ((fieldsOf item.value).getD [])

/-- What `_markitdown_docx_worker` returns, if its loop ends. -/
def docxProjection (table : CaseTable) (fuel : Nat) (d : DocxPackage F) : Option (List (NormalizedDocumentItem F)) :=
  (normalizedDocxProjection table fuel d.markdown).map fun projection =>
    projection.1.map DocxItem.native ++ d.auxiliary.map AuxiliaryItem.native

/-! ## PPTX -/

/-- `posixpath.normpath` of a relative path, one component; the innermost name comes first. -/
def enterRelative (names : List Text) (c : Text) : List Text :=
  if c ≠ txt ".." then c :: names
  else
    match names with
    | [] => [c]
    | n :: outer => if n = txt ".." then c :: n :: outer else outer

def normpathRelative (components : List Text) : Text :=
  let names := (components.foldl enterRelative []).reverse
  if names = [] then txt "." else [ch '/'].intercalate names

/-- The member that the target of a relationship of `owner` names. -/
def resolveTarget (owner target : Text) : Text :=
  if target.startsWith (txt "/") then target.dropWhile fun c => c = ch '/'
  else normpathRelative ((PurePath.names owner).dropLast ++ PurePath.names target)

/-- `relationship_type.rsplit("/", 1)[-1]` -/
def relationshipKind (type : Text) : Text := (type.reverse.takeWhile fun c => c ≠ ch '/').reverse

/-- `_internal_relationship_targets`, of the elements of the relationships as they end. -/
def internalRelationshipTargets (owner : Text) (elements : List XmlNode) : List (Text × Text) :=
  elements.filterMap fun e =>
    if xmlLocalName e.tag ≠ txt "Relationship" ∨ lookup e.attributes (txt "TargetMode") = some (txt "External") then none
    else ((lookup e.attributes (txt "Target")).filter (· ≠ [])).map fun target =>
      (relationshipKind ((lookup e.attributes (txt "Type")).getD []), resolveTarget owner target)

/-- A member of the archive, read as a slide and with its relationships. -/
structure SlideMember where
  name : Text
  elements : List XmlElement
  malformed : Bool
  relationships : List XmlNode
  relationshipsMalformed : Bool

/-- A shape as python-pptx gives it. -/
structure PptxShape where
  top : Int
  left : Int
  hasTextFrame : Bool
  /-- The accessibility texts, where there is a title or a description. -/
  accessibility : Option Text
  text : Text
  table : Option (List (List Text))
  chart : Option Text

structure PptxSlide where
  /-- The member that the slide is read from. -/
  member : Text
  shapes : List PptxShape
  notes : Option Text

structure PptxPackage where
  /-- The members in the order in which `set(archive.namelist())` is iterated. -/
  members : List SlideMember
  /-- The other members that are read as XML. -/
  parts : List (Text × OptionalPart)
  /-- The slides in the order of the presentation. -/
  presentation : List PptxSlide

section
variable (decimal : CodePoint → Option Nat)

/-- The number of a name that `ppt/slides/slide\d+\.xml` matches; `decimal` gives the value of a digit. -/
def slideNumber (name : Text) : Option Nat :=
  let stem := name.drop (txt "ppt/slides/slide").length
  let digits := stem.take (stem.length - (txt ".xml").length)
  if name = txt "ppt/slides/slide" ++ digits ++ txt ".xml" ∧ digits ≠ [] then
    (digits.mapM decimal).map fun ds => ds.foldl (fun n d => 10 * n + d) 0
  else none

/-- `slide_names` -/
def PptxPackage.slides (p : PptxPackage) : List SlideMember :=
  sortedBy (fun m => (slideNumber decimal m.name).getD 0) (p.members.filter fun m => (slideNumber decimal m.name).isSome)

end

/-- `f"slide:{slide_index}"` -/
def slideNode (slide : Nat) : Text := txt "slide:" ++ Text.ofNat slide

/-- The drafts of a slide itself. -/
def slideTextDrafts (slide : Nat) (elements : List XmlElement) : List (StreamingDraft F) :=
  ((textsNamed "p" elements).zipIdx 1).map fun t =>
    ⟨t.1, txt "pptx_text", txt "PARAGRAPH", slideNode slide, [(txt "slide", .int slide), (txt "paragraph", .int t.2)]⟩

def notesDrafts (slide : Nat) (part : OptionalPart) : List (StreamingDraft F) :=
  ((textsNamed "p" (part.nodes.map XmlNode.toXmlElement)).zipIdx 1).map fun t =>
    ⟨t.1, txt "pptx_speaker_notes", txt "NOTE", slideNode slide,
      [(txt "slide", .int slide), (txt "notes", .int 1), (txt "paragraph", .int t.2)]⟩

def chartDrafts (slide chart : Nat) (part : OptionalPart) : List (StreamingDraft F) :=
  (part.nodes.take 1).map fun root =>
    ⟨xmlElementText root.toXmlElement, txt "pptx_chart", txt "FIGURE", slideNode slide,
      [(txt "slide", .int slide), (txt "chart", .int chart)]⟩

namespace PptxPackage

/-- The members of a kind that the slide refers to, numbered from one; one that is not in the archive is left out. -/
def related (p : PptxPackage) (m : SlideMember) (kind : String) : List (OptionalPart × Nat) :=
  (((internalRelationshipTargets m.name m.relationships).filter fun r => r.1 = txt kind).zipIdx 1).filterMap fun r =>
    (lookup p.parts r.1.2).map fun part => (part, r.2)

/-- The drafts of what the slide refers to. -/
def relatedDrafts (p : PptxPackage) (slide : Nat) (m : SlideMember) : List (StreamingDraft F) :=
  (p.related m "notesSlide").flatMap (fun part => notesDrafts slide part.1) ++
    (p.related m "chart").flatMap fun part => chartDrafts slide part.2 part.1

def slideDrafts (p : PptxPackage) (slide : Nat) (m : SlideMember) : List (StreamingDraft F) :=
  slideTextDrafts slide m.elements ++ p.relatedDrafts slide m

def slideWarnings (p : PptxPackage) (slide : Nat) (m : SlideMember) : List Text :=
  (p.related m "notesSlide").flatMap (fun part => part.1.warnings (txt "notes:slide:" ++ Text.ofNat slide)) ++
    (p.related m "chart").flatMap fun part =>
      part.1.warnings (txt "chart:slide:" ++ Text.ofNat slide ++ txt ":" ++ Text.ofNat part.2)

end PptxPackage

section
variable (T : CharTable) (query : Text)

/-- One turn of the loop over the slides. -/
def readSlide (p : PptxPackage) (items : List (NormalizedDocumentItem F)) (m : SlideMember) (slide : Nat) :
    Except QueryMapError (List (NormalizedDocumentItem F)) := do
  let items ← (slideTextDrafts slide m.elements).foldlM (appendStreamingMatch T query) items
  if m.malformed ∨ m.relationshipsMalformed then throw .malformed
  (p.relatedDrafts slide m).foldlM (appendStreamingMatch T query) items

/-- `_streaming_pptx_query_map` -/
def streamingPptxQueryMap (decimal : CodePoint → Option Nat) (p : PptxPackage) : Except QueryMapError (QueryMap F) := do
  let slides := p.slides decimal
  let items ← (slides.zipIdx 1).foldlM (fun items m => readSlide T query p items m.1 m.2) []
  pure ⟨items, slides.length, (slides.zipIdx 1).flatMap fun m => p.slideWarnings m.2 m.1⟩

end

/-! ## The projection of a PPTX -/

/-- An item of `_python_pptx_worker`, without its extension. -/
def pptxItem (kind : String) (role : Option Text) (text : Option Text) (parent : Option Text)
    (location : List (Text × Value F)) : NormalizedDocumentItem F :=
  ⟨txt kind, text, parent, location, none, none, role⟩

/-- The items of one shape, the `shape`-th of the slide. -/
def shapeItems (slide shape : Nat) (s : PptxShape) : List (NormalizedDocumentItem F) :=
  let parent := slideNode slide ++ txt ":shape:" ++ Text.ofNat shape
  let location : List (Text × Value F) := [(txt "slide", .int slide), (txt "shape", .int shape)]
  let inTable (more : List (Text × Value F)) := location ++ (txt "table", .int 1) :: more
  [pptxItem "pptx_shape" (some (if s.hasTextFrame then txt "OTHER" else txt "FIGURE")) none (some (slideNode slide)) location] ++
    s.accessibility.toList.map (fun t =>
      pptxItem "pptx_accessibility" (some (txt "CAPTION")) (some t) (some parent) (location ++ [(txt "accessibility", .int 1)])) ++
    (if s.hasTextFrame ∧ s.text ≠ [] then
      [pptxItem "pptx_text" (some (txt "PARAGRAPH")) (some s.text) (some parent) location]
    else []) ++
    s.table.toList.flatMap (fun rows =>
      pptxItem "pptx_table" (some (txt "TABLE")) none (some parent) (inTable []) ::
        (rows.zipIdx 1).flatMap fun row => (row.1.zipIdx 1).map fun cell =>
          pptxItem "pptx_table_cell" (some (txt "TABLE_CELL")) (some cell.1) (some (parent ++ txt ":table:1"))
            (inTable [(txt "row", .int row.2), (txt "column", .int cell.2)])) ++
    s.chart.toList.map fun t =>
      pptxItem "pptx_chart" (some (txt "FIGURE")) (some t) (some parent) (location ++ [(txt "chart", .int 1)])

/-- `ordered_shapes`: from the top down, and from the left to the right. -/
def orderedShapes (s : PptxSlide) : List (PptxShape × Nat) :=
  sortedBy (fun p => toLex (p.1.top, toLex (p.1.left, p.2))) (s.shapes.zipIdx 1)

def slideItems (slide : Nat) (s : PptxSlide) : List (NormalizedDocumentItem F) :=
  pptxItem "pptx_slide" none none (some (txt "presentation:current")) [(txt "slide", .int slide)] ::
    ((orderedShapes s).flatMap fun p => shapeItems slide p.2 p.1) ++
    ((s.notes.map strip).filter (· ≠ [])).toList.map fun t =>
      pptxItem "pptx_speaker_notes" (some (txt "NOTE")) (some t) (some (slideNode slide))
        [(txt "slide", .int slide), (txt "notes", .int 1)]

/-- `_python_pptx_worker` -/
def pptxProjection (p : PptxPackage) : List (NormalizedDocumentItem F) :=
  pptxItem "pptx_presentation" none none none [(txt "presentation", .str (txt "current"))] ::
    (p.presentation.zipIdx 1).flatMap fun s => slideItems s.2 s.1

/-! ## EPUB -/

def EpubLocation.fields : EpubLocation → List (Text × Value F)
  | .document => [(txt "document", .str (txt "current"))]
  | .sectionStart index title => [(txt "section", .int index), (txt "section_title", .str title)]
  | .sectionText index title ordinal =>
    [(txt "section", .int index), (txt "section_title", .str title), (txt "ordinal", .int ordinal)]

def EpubItem.published (i : EpubItem) : NormalizedDocumentItem F where
  kind := i.kind
  textOrValue := i.textOrValue
  parent := i.parent
  location := i.location.fields
  extension := some [(if i.streaming then txt "streaming_query_map" else txt "native_epub_projection", .bool true)]
  nodeId := i.nodeId
  role := some i.role

/-- What `_epub_reading_order` gives of an archive. -/
structure EpubPackage where
  members : List EpubMember
  warnings : List Text

/-- `_streaming_epub_query_map` -/
def streamingEpubQueryMap (T : CharTable) (casefold : Text → Text) (query : Text) (e : EpubPackage) :
    Except QueryMapError (QueryMap F) :=
  match epubProjection T casefold (some query) e.warnings (txt "READ") e.members with
  | .ok p => .ok ⟨p.items.map EpubItem.published, p.containers, p.warnings⟩
  | .error e => .error (.epub e)

/-- The items of `_native_epub_worker`. -/
def nativeEpubProjection (T : CharTable) (casefold : Text → Text) (view : Text) (e : EpubPackage) :
    Option (List (NormalizedDocumentItem F)) :=
  match epubProjection T casefold none e.warnings view e.members with
  | .ok p => some (p.items.map EpubItem.published)
  | .error _ => none

/-! ## Packages -/

inductive Package (F : Type) where
  | docx (d : DocxPackage F)
  | pptx (p : PptxPackage)
  | epub (e : EpubPackage)

def Package.format : Package F → SourceFormat
  | docx _ => .docx
  | pptx _ => .pptx
  | epub _ => .epub

/-- What the interpreter knows of characters. -/
structure PackageTables where
  chars : CharTable
  cases : CaseTable
  casefold : Text → Text
  lower : Text → Text
  decimal : CodePoint → Option Nat

/-- `_streaming_package_query_map` -/
def streamingPackageQueryMap (P : PackageTables) (query : Text) : Package F → Except QueryMapError (QueryMap F)
  | .docx d => streamingDocxQueryMap P.chars query d
  | .pptx p => streamingPptxQueryMap P.chars query P.decimal p
  | .epub e => streamingEpubQueryMap P.chars P.casefold query e

/-- The items of the worker that projects the whole document. -/
def fullProjection (P : PackageTables) (view : Text) (fuel : Nat) : Package F → Option (List (NormalizedDocumentItem F))
  | .docx d => docxProjection P.cases fuel d
  | .pptx p => some (pptxProjection p)
  | .epub e => nativeEpubProjection P.chars P.casefold view e

end Steward.Documents
