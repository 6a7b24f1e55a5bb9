import Steward.Documents.EvidenceSlices
import Steward.Py.Sampling
import Steward.Py.Tally

/-!
# Planning the execution of a parse

The functions of `document_execution.py` that choose the first parser profile and
judge what a parser has extracted, and the records of a plan.
-/

namespace Steward.Documents

open Py

variable {F : Type}

/-! ## Names -/

/-- The source formats that are parsed item by item, the keys of `suffix_by_format`. -/
inductive SourceFormat where
  | pdf | epub | docx | xlsx | pptx | png | jpeg | tiff
  deriving DecidableEq, Repr

/-- `IMAGE_SOURCE_FORMATS` -/
def SourceFormat.isImage : SourceFormat → Bool
  | .png | .jpeg | .tiff => true
  | _ => false

/-- The profile that a request names. -/
inductive ParserProfile where
  | fast | auto | deep | enriched
  deriving DecidableEq, Repr

/-- The profile of an attempt. -/
inductive AttemptProfile where
  | fast | deep | enriched | ocr | map | ocrNative | structureNative | formulaNative
  deriving DecidableEq, Repr

inductive DocumentView where
  | read | structured | tables | formulas
  deriving DecidableEq, Repr

inductive DocumentIntent where
  | read | structured | locate | evidence | tables | formulas
  deriving DecidableEq, Repr

/-- `initial_document_profile` -/
def initialDocumentProfile (sourceFormat : SourceFormat) (requestedProfile : ParserProfile) (view : DocumentView)
    (intent : DocumentIntent) : AttemptProfile :=
  let deepOnly := sourceFormat = .epub ∨ sourceFormat.isImage
  match requestedProfile with
  | .fast => if deepOnly then .deep else .fast
  | .deep => .deep
  | .enriched => .enriched
  | .auto =>
    if view = .formulas ∧ sourceFormat = .xlsx then .formulaNative
    else if view = .formulas then .enriched
    else if deepOnly then .deep
    else if intent = .locate ∨ intent = .evidence then .fast
    else if view = .structured ∧ sourceFormat = .pdf then .structureNative
    else if (view = .structured ∨ view = .tables) ∧ (sourceFormat = .pdf ∨ sourceFormat = .docx) then .deep
    else .fast

/-! ## Quality -/

inductive QualityStatus where
  | sufficient | insufficient
  deriving DecidableEq, Repr

structure DocumentQualityAssessment where
  status : QualityStatus
  reasonCodes : List Text
  textCharacters : Nat
  alphanumericCharacters : Nat
  textItemCount : Nat
  pageCount : Nat
  emptyPageCount : Nat
  structuralRoleCount : Nat
  deriving DecidableEq, Repr

/-- An `int` that is no `bool`. -/
def intValue : Value F → Option Int
  | .int n => some n
  | _ => none

namespace NormalizedDocumentItem

/-- `item.location.get("page")`, where it is an `int` and no `bool`. -/
def page (item : NormalizedDocumentItem F) : Option Int := intValue (Value.get item.location (txt "page"))

end NormalizedDocumentItem

/-- `sum(char.isalnum() for char in value)` -/
def alphanumericCount (T : CharTable) (value : Text) : Nat := value.countP T.isAlnum

/-- `assess_document_quality` -/
def assessDocumentQuality (T : CharTable) (items : List (NormalizedDocumentItem F)) (status : Text)
    (view : DocumentView) : DocumentQualityAssessment :=
  let texts := items.filterMap NormalizedDocumentItem.textOrValue
  let alphanumeric := (texts.map (alphanumericCount T)).sum
  let roles := (items.filterMap NormalizedDocumentItem.role).dedup
  let pageText : List (Int × Nat) := tally 0 (· + ·) <| items.filterMap fun item =>
    item.page.map fun page => (page, alphanumericCount T (item.textOrValue.getD []))
  let emptyPages := pageText.countP fun entry => decide (entry.2 < 4)
  let lacks (expected : List String) : Bool := !expected.any fun role => decide (txt role ∈ roles)
  let reasons :=
    (if status ≠ txt "COMPLETE" then [txt "PARSER_NOT_COMPLETE"]
      else if alphanumeric < 8 then [txt "INSUFFICIENT_EXTRACTABLE_TEXT"] else []) ++
    (if 2 ≤ pageText.length ∧ pageText.length < emptyPages * 2 then [txt "MAJORITY_EMPTY_PAGES"] else []) ++
    (if status = txt "COMPLETE" ∧ view = .structured ∧
        lacks ["DOCUMENT", "SECTION", "HEADING", "SHEET", "SLIDE", "TABLE", "FIGURE"] then
      [txt "REQUESTED_STRUCTURE_NOT_OBSERVED"] else []) ++
    (if status = txt "COMPLETE" ∧ view = .tables ∧ lacks ["TABLE", "TABLE_CELL"] then
      [txt "REQUESTED_TABLE_STRUCTURE_NOT_OBSERVED"] else []) ++
    (if status = txt "COMPLETE" ∧ view = .formulas ∧ lacks ["FORMULA"] then
      [txt "REQUESTED_FORMULA_NOT_OBSERVED"] else [])
  { status := if reasons = [] then .sufficient else .insufficient
    reasonCodes := fromKeys reasons
    textCharacters := (texts.map fun value => (strip value).length).sum
    alphanumericCharacters := alphanumeric
    textItemCount := texts.length
    pageCount := pageText.length
    emptyPageCount := emptyPages
    structuralRoleCount := roles.length }

/-! ## Plans -/

structure DocumentContainerQuality (C : Type) where
  containerId : C
  containerKind : Text
  nativeLabel : Text
  matchedItemCount : Nat
  quality : DocumentQualityAssessment

structure DocumentExecutionSelection (C : Type) where
  strategy : Text
  matchMode : Text
  mapProfile : AttemptProfile
  mappedItemCount : Nat
  matchedItemCount : Nat
  matchedPageNumbers : List Int
  selectedPageStart : Option Int
  selectedPageEnd : Option Int
  omittedMatchedPageNumbers : List Int
  matchedContainerIds : List C
  selectedContainerIds : List C
  omittedMatchedContainerIds : List C
  containerQualities : List (DocumentContainerQuality C)

structure DocumentExecutionAttempt where
  profile : AttemptProfile
  backendName : Option Text
  status : Text
  cacheStatus : Text
  quality : DocumentQualityAssessment
  failureReasonCode : Option Text
  failureExceptionType : Option Text

structure DocumentExecutionTrace (C : Type) where
  requestedProfile : ParserProfile
  requestedIntent : DocumentIntent
  requestedView : DocumentView
  initialProfile : AttemptProfile
  selectedProfile : Option AttemptProfile
  escalationReason : Option Text
  attempts : List DocumentExecutionAttempt
  selection : Option (DocumentExecutionSelection C)

end Steward.Documents
