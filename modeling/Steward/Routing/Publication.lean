import Steward.Routing.Request
import Steward.Py.Grouping
import Steward.Py.Lines

/-!
# Publications

The payload of a publication, its validation, and the fact block that
`render_publication_fact_block` writes for it.
-/

namespace Steward

open Py Lines

/-! ## Models -/

inductive PublicationStatus where
  | ok
  | error
  deriving DecidableEq, Repr

def PublicationStatus.text : PublicationStatus → Text
  | .ok => txt "OK"
  | .error => txt "ERROR"

instance : Named PublicationStatus where
  all := [.ok, .error]
  name := PublicationStatus.text
  nodup := by simp [txt_inj, PublicationStatus.text]

inductive AuthorityBoundary where
  | boundedResult
  | historicalNotCurrent
  | noCurrentFilesystemAuthority
  | noModelDisclosureAuthority
  | noLifecycleAuthority
  | noWriteAuthority
  | noBusinessResult
  deriving DecidableEq, Repr

def AuthorityBoundary.text : AuthorityBoundary → Text
  | .boundedResult => txt "BOUNDED_RESULT"
  | .historicalNotCurrent => txt "HISTORICAL_NOT_CURRENT"
  | .noCurrentFilesystemAuthority => txt "NO_CURRENT_FILESYSTEM_AUTHORITY"
  | .noModelDisclosureAuthority => txt "NO_MODEL_DISCLOSURE_AUTHORITY"
  | .noLifecycleAuthority => txt "NO_LIFECYCLE_AUTHORITY"
  | .noWriteAuthority => txt "NO_WRITE_AUTHORITY"
  | .noBusinessResult => txt "NO_BUSINESS_RESULT"

instance : Named AuthorityBoundary where
  all := [.boundedResult, .historicalNotCurrent, .noCurrentFilesystemAuthority, .noModelDisclosureAuthority,
    .noLifecycleAuthority, .noWriteAuthority, .noBusinessResult]
  name := AuthorityBoundary.text
  nodup := by simp [txt_inj, AuthorityBoundary.text]

structure PublicationFact where
  key : Text
  value : Text
  deriving DecidableEq

structure PublicationSourceProvenance where
  snapshotId : Text
  snapshotDigest : Text
  persistentRunId : Text
  evidenceId : Text
  deriving DecidableEq

structure PublicationExactInteger where
  jsonPointer : Text
  decimalValue : Text
  deriving DecidableEq

structure PublicationAccounting where
  category : Text
  count : Int
  deriving DecidableEq

structure PublicationTypedError where
  code : Text
  message : Text
  deriving DecidableEq

structure PublicationPayload where
  routeDecision : RouteDecision
  operationIdentity : Text
  operationKind : OperationKind
  status : PublicationStatus
  typedError : Option PublicationTypedError
  deterministicFacts : List PublicationFact
  sourceProvenance : List PublicationSourceProvenance
  exactIntegerEncoding : List PublicationExactInteger
  inclusionAccounting : List PublicationAccounting
  omissionAccounting : List PublicationAccounting
  authorityBoundary : List AuthorityBoundary
  deriving DecidableEq

def maxPublicationFacts : Nat := 128

def maxPublicationProvenance : Nat := 64

def maxPublicationAccountingItems : Nat := 64

def maxPublicationBoundaries : Nat := 16

def maxPublicationValueBytes : Nat := 16384

def maxPublicationFactBlockBytes : Nat := 262144

/-! ## Validation -/

def publicationInvalid {α : Type} : Result α := .error (.steward .agentPublicationError)

def isLower (c : CodePoint) : Bool := 97 ≤ c.val && c.val ≤ 122

/-- `^[a-z][a-z0-9_.-]{0,127}$` -/
def publicationKeyPattern : Text → Bool
  | [] => false
  | c :: s => isLower c && s.length ≤ 127 &&
      s.all fun c => isLower c || Text.isDigit c || c ∈ txt "_.-"

/-- `^[A-Z][A-Z0-9_]{0,127}$` -/
def errorCodePattern : Text → Bool
  | [] => false
  | c :: s => isUpper c && s.length ≤ 127 && s.all fun c => isUpper c || Text.isDigit c || c = ch '_'

/-- `0|[1-9][0-9]*` -/
def naturalPattern : Text → Bool
  | [] => false
  | c :: s => if c = ch '0' then s = [] else Text.isDigit c && s.all Text.isDigit

/-- `^-?(0|[1-9][0-9]*)$` -/
def decimalPattern : Text → Bool
  | [] => false
  | c :: s => if c = ch '-' then naturalPattern s else naturalPattern (c :: s)

/-- `^[0-9a-f]{64}$` -/
def digestPattern (t : Text) : Bool := t.length = 64 && t.all isHexDigit

/-- `_validate_publication_key` -/
def validatePublicationKey (value : Text) : Result Unit :=
  if publicationKeyPattern value then .ok () else publicationInvalid

/-- `_validate_publication_value` -/
def validatePublicationValue (value : Text) : Result Unit := do
  let bytes ← encodeStrict value
  if bytes.length > maxPublicationValueBytes then publicationInvalid else .ok ()

/-- One loop of `_validate_publication_collections`: each item passes its check, and its key is
not among the keys seen before it. -/
def validateItems {α : Type} (check : α → Result Unit) (key : α → Text) : List Text → List α → Result Unit
  | _, [] => .ok ()
  | seen, item :: items => do
    check item
    if key item ∈ seen then publicationInvalid else validateItems check key (key item :: seen) items

def validatePublicationFact (fact : PublicationFact) : Result Unit := do
  validatePublicationKey fact.key
  validatePublicationValue fact.value

def validatePublicationSource (source : PublicationSourceProvenance) : Result Unit :=
  if canonicalUuid source.snapshotId ∧ digestPattern source.snapshotDigest ∧
      canonicalUuid source.persistentRunId ∧ canonicalUuid source.evidenceId then .ok ()
  else publicationInvalid

def validatePublicationExactInteger (exactInteger : PublicationExactInteger) : Result Unit :=
  if exactInteger.jsonPointer.startsWith (txt "/") ∧ ¬ Text.hasInfix (txt "//") exactInteger.jsonPointer ∧
      exactInteger.jsonPointer.length ≤ maxRoutePathLength ∧ decimalPattern exactInteger.decimalValue then .ok ()
  else publicationInvalid

def validatePublicationAccounting (item : PublicationAccounting) : Result Unit := do
  validatePublicationKey item.category
  if item.count < 0 then publicationInvalid else .ok ()

/-- `_validate_publication_collections` -/
def validatePublicationCollections (payload : PublicationPayload) : Result Unit :=
  if maxPublicationFacts < payload.deterministicFacts.length ∨
      maxPublicationProvenance < payload.sourceProvenance.length ∨
      maxPublicationAccountingItems < payload.inclusionAccounting.length ∨
      maxPublicationAccountingItems < payload.omissionAccounting.length ∨
      payload.authorityBoundary = [] ∨ maxPublicationBoundaries < payload.authorityBoundary.length then
    publicationInvalid
  else do
    validateItems validatePublicationFact PublicationFact.key [] payload.deterministicFacts
    validateItems validatePublicationSource PublicationSourceProvenance.snapshotId [] payload.sourceProvenance
    validateItems validatePublicationExactInteger PublicationExactInteger.jsonPointer []
      payload.exactIntegerEncoding
    validateItems validatePublicationAccounting PublicationAccounting.category [] payload.inclusionAccounting
    validateItems validatePublicationAccounting PublicationAccounting.category [] payload.omissionAccounting

/-- `_HISTORICAL_OK_PROVENANCE_MINIMUM` -/
def historicalOkProvenanceMinimum : OperationKind → Nat
  | .verifiedSnapshotInventory => 1
  | .exactSnapshotInspection => 1
  | .exactHistoricalEntryResolution => 1
  | .historicalCurrentTruthBoundary => 1
  | .minimalResumableHandoff => 2
  | .boundedChangeReview => 2
  | .boundedStructuralDiagnostic => 1
  | .orderedHistoricalChangeExplanation => 2
  | _ => 0

/-- What an `ERROR` payload must be. -/
def validateTypedFailure (payload : PublicationPayload) : Result Unit :=
  match payload.typedError with
  | none => publicationInvalid
  | some error =>
    if ¬ errorCodePattern error.code then publicationInvalid
    else do
      validatePublicationValue error.message
      if payload.deterministicFacts ≠ [] ∨ payload.sourceProvenance ≠ [] ∨ payload.exactIntegerEncoding ≠ [] ∨
          payload.inclusionAccounting ≠ [] ∨ payload.omissionAccounting ≠ [] then publicationInvalid
      else if AuthorityBoundary.noBusinessResult ∉ payload.authorityBoundary then publicationInvalid
      else .ok ()

/-- What an `OK` payload must be. -/
def validateBusinessResult (payload : PublicationPayload) : Result Unit :=
  let minimum := historicalOkProvenanceMinimum payload.operationKind
  if payload.typedError ≠ none then publicationInvalid
  else if payload.deterministicFacts = [] then publicationInvalid
  else if payload.sourceProvenance.length < minimum then publicationInvalid
  else if minimum ≠ 0 ∧ AuthorityBoundary.historicalNotCurrent ∉ payload.authorityBoundary then publicationInvalid
  else .ok ()

/-- `_validate_publication_payload` -/
def validatePublicationPayload (payload : PublicationPayload) : Result Unit :=
  if payload.routeDecision ∉ [RouteDecision.core, .context] then publicationInvalid
  else if ¬ digestPattern payload.operationIdentity then publicationInvalid
  else do
    validatePublicationCollections payload
    match payload.status with
    | .error => validateTypedFailure payload
    | .ok => validateBusinessResult payload

/-! ## Rendering -/

/-- `s.replace(c, t)` for a single character `c` -/
def replaceChar (c : CodePoint) (t : Text) (s : Text) : Text := s.flatMap fun x => if x = c then t else [x]

/-- `_quoted` -/
def quoted (value : Text) : Text :=
  replaceChar (ch '&') (txt "\\u0026") (replaceChar (ch '>') (txt "\\u003e") (replaceChar (ch '<') (txt "\\u003c")
    (replaceChar backtick (txt "\\u0060") (Json.quote ⟨false, false⟩ value))))

def factLine (item : PublicationFact) : Text :=
  txt "- " ++ codeSpan item.key ++ txt ": " ++ quoted item.value

def sourceLine (item : PublicationSourceProvenance) : Text :=
  txt "- Snapshot " ++ codeSpan item.snapshotId ++ txt "; digest " ++ codeSpan item.snapshotDigest ++
    txt "; persistent Run " ++ codeSpan item.persistentRunId ++ txt "; Evidence " ++ codeSpan item.evidenceId

def exactIntegerLine (item : PublicationExactInteger) : Text :=
  txt "- " ++ codeSpan item.jsonPointer ++ txt ": " ++ codeSpan item.decimalValue

def accountingLine (item : PublicationAccounting) : Text :=
  txt "- " ++ codeSpan item.category ++ txt ": " ++ Text.ofInt item.count

def boundaryLine (item : AuthorityBoundary) : Text := txt "- " ++ codeSpan (Named.name item)

def noneLine : Text := txt "- None"

/-- The lines of the items, or the one line that says there are none. -/
def listed {α : Type} (line : α → Text) (items : List α) : List Text :=
  items.map line ++ if items.isEmpty then [noneLine] else []

def typedErrorLines (error : PublicationTypedError) : List Text :=
  [txt "### Typed error", [], txt "- Code: " ++ codeSpan error.code, txt "- Message: " ++ quoted error.message, []]

def errorLinesOf : PublicationStatus → Option PublicationTypedError → Result (List Text)
  | .ok, _ => .ok []
  | .error, some error => .ok (typedErrorLines error)
  | .error, none => publicationInvalid

/-- The lines of the block, `errorLines` among them. -/
def factBlockLines (payload : PublicationPayload) (errorLines : List Text) : List Text :=
  [txt "## STEWARD Deterministic Fact Block", [],
    txt "- Route decision: " ++ codeSpan (Named.name payload.routeDecision),
    txt "- Operation kind: " ++ codeSpan (Named.name payload.operationKind),
    txt "- Operation identity: " ++ codeSpan payload.operationIdentity,
    txt "- Status: " ++ codeSpan (Named.name payload.status), []] ++ errorLines ++
  [txt "### Deterministic facts", []] ++
    listed factLine (sortedBy PublicationFact.key payload.deterministicFacts) ++
  [[], txt "### Source provenance", []] ++ listed sourceLine payload.sourceProvenance ++
  [[], txt "### Exact integer encoding", []] ++
    listed exactIntegerLine (sortedBy PublicationExactInteger.jsonPointer payload.exactIntegerEncoding) ++
  [[], txt "### Inclusion accounting", []] ++
    listed accountingLine (sortedBy PublicationAccounting.category payload.inclusionAccounting) ++
  [[], txt "### Omission accounting", []] ++
    listed accountingLine (sortedBy PublicationAccounting.category payload.omissionAccounting) ++
  [[], txt "### Authority boundary", []] ++ (sortedBy Named.name payload.authorityBoundary).map boundaryLine ++ [[]]

/-- Render one canonical user-visible fact block without model-authored text. -/
def renderPublicationFactBlock (payload : PublicationPayload) : Result Text := do
  validatePublicationPayload payload
  let errorLines ← errorLinesOf payload.status payload.typedError
  let block := joinLines (factBlockLines payload errorLines)
  let bytes ← encodeStrict block
  if bytes.length > maxPublicationFactBlockBytes then publicationInvalid else .ok block

/-- The payload with its collections in the order they are published. -/
def PublicationPayload.ordered (payload : PublicationPayload) : PublicationPayload :=
  { payload with
    deterministicFacts := sortedBy PublicationFact.key payload.deterministicFacts
    exactIntegerEncoding := sortedBy PublicationExactInteger.jsonPointer payload.exactIntegerEncoding
    inclusionAccounting := sortedBy PublicationAccounting.category payload.inclusionAccounting
    omissionAccounting := sortedBy PublicationAccounting.category payload.omissionAccounting
    authorityBoundary := sortedBy Named.name payload.authorityBoundary }

/-! ## What a field cannot do -/

/-- The text neither closes a code span nor ends a line. -/
def plain (t : Text) : Bool := t.all fun c => c ≠ backtick && !isLineEnd c

/-- The text does not end a line. -/
def oneLine (t : Text) : Bool := t.all fun c => !isLineEnd c

theorem plain_iff {t : Text} : plain t = true ↔ backtick ∉ t ∧ oneLine t = true := by
  simp only [plain, oneLine, List.all_eq_true, Bool.and_eq_true, decide_eq_true_eq]
  constructor
  · exact fun h => ⟨fun hmem => (h _ hmem).1 rfl, fun c hc => (h c hc).2⟩
  · rintro ⟨hspan, hline⟩ c hc
    exact ⟨fun heq => hspan (heq ▸ hc), hline c hc⟩

theorem oneLine_iff {t : Text} : oneLine t = true ↔ ∀ c ∈ t, isLineEnd c = false := by
  simp [oneLine]

@[simp] theorem oneLine_append {s t : Text} : oneLine (s ++ t) = (oneLine s && oneLine t) := List.all_append

@[simp] theorem oneLine_codeSpan {t : Text} : oneLine (codeSpan t) = oneLine t := by
  have hspan : isLineEnd backtick = false := by decide
  simp [oneLine, codeSpan, hspan]

theorem plain_of_graphic {t : Text} (h : ∀ c ∈ t, 32 ≤ c.val ∧ c ≠ backtick) : plain t = true := by
  refine List.all_eq_true.2 fun c hc => ?_
  obtain ⟨hgraphic, hspan⟩ := h c hc
  have hfeed : c ≠ ch '\n' := fun heq => by rw [heq] at hgraphic; exact absurd hgraphic (by decide)
  have hreturn : c ≠ ch '\r' := fun heq => by rw [heq] at hgraphic; exact absurd hgraphic (by decide)
  simp [isLineEnd, hfeed, hreturn, hspan]

/-- The characters of the identifiers, codes, digests and numerals: ASCII letters and digits, and `_.-`. -/
def wordChar (c : CodePoint) : Bool := isLower c || isUpper c || Text.isDigit c || c ∈ txt "_.-"

theorem plain_of_words {t : Text} (h : ∀ c ∈ t, wordChar c = true) : plain t = true := by
  refine plain_of_graphic fun c hc => ?_
  have hword := h c hc
  simp only [wordChar, isLower, isUpper, Text.isDigit, Bool.or_eq_true, Bool.and_eq_true, decide_eq_true_eq] at hword
  rcases hword with ((hc | hc) | hc) | hc
  · exact ⟨by omega, fun heq => by rw [heq] at hc; exact absurd hc (by decide)⟩
  · exact ⟨by omega, fun heq => by rw [heq] at hc; exact absurd hc (by decide)⟩
  · exact ⟨by omega, fun heq => by rw [heq] at hc; exact absurd hc (by decide)⟩
  · have hmarks : ((txt "_.-").all fun c => 32 ≤ c.val ∧ c ≠ backtick) = true := by decide
    exact of_decide_eq_true (List.all_eq_true.1 hmarks c hc)

theorem wordChar_of_isLower {c : CodePoint} (h : isLower c = true) : wordChar c = true := by simp [wordChar, h]

theorem wordChar_of_isUpper {c : CodePoint} (h : isUpper c = true) : wordChar c = true := by simp [wordChar, h]

theorem wordChar_of_isDigit {c : CodePoint} (h : Text.isDigit c = true) : wordChar c = true := by
  simp [wordChar, h]

theorem wordChar_of_isHexDigit {c : CodePoint} (h : isHexDigit c = true) : wordChar c = true := by
  rw [isHexDigit, Bool.or_eq_true] at h
  rcases h with h | h
  · exact wordChar_of_isDigit h
  · refine wordChar_of_isLower ?_
    simp only [isLower, Bool.and_eq_true, decide_eq_true_eq] at h ⊢
    omega

theorem plain_publicationKey {t : Text} (h : publicationKeyPattern t = true) : plain t = true := by
  cases t with
  | nil => rfl
  | cons c s =>
    simp only [publicationKeyPattern, Bool.and_eq_true, List.all_eq_true, Bool.or_eq_true] at h
    refine plain_of_words (List.forall_mem_cons.2 ⟨wordChar_of_isLower h.1.1, fun x hx => ?_⟩)
    rcases h.2 x hx with (hx | hx) | hx
    · exact wordChar_of_isLower hx
    · exact wordChar_of_isDigit hx
    · simp only [wordChar, hx, Bool.or_true]

theorem plain_errorCode {t : Text} (h : errorCodePattern t = true) : plain t = true := by
  cases t with
  | nil => rfl
  | cons c s =>
    simp only [errorCodePattern, Bool.and_eq_true, List.all_eq_true, Bool.or_eq_true] at h
    refine plain_of_words (List.forall_mem_cons.2 ⟨wordChar_of_isUpper h.1.1, fun x hx => ?_⟩)
    rcases h.2 x hx with (hx | hx) | hx
    · exact wordChar_of_isUpper hx
    · exact wordChar_of_isDigit hx
    · rw [of_decide_eq_true hx]
      decide

theorem plain_digest {t : Text} (h : digestPattern t = true) : plain t = true := by
  simp only [digestPattern, Bool.and_eq_true, List.all_eq_true] at h
  exact plain_of_words fun c hc => wordChar_of_isHexDigit (h.2 c hc)

theorem plain_canonicalUuid {t : Text} (h : canonicalUuid t = true) : plain t = true := by
  refine plain_of_words fun c hc => ?_
  rcases hexDigit_or_dash h hc with hc | rfl
  · exact wordChar_of_isHexDigit hc
  · decide

theorem wordChar_of_naturalPattern {t : Text} (h : naturalPattern t = true) : ∀ c ∈ t, wordChar c = true := by
  cases t with
  | nil => exact fun c hc => absurd hc List.not_mem_nil
  | cons c s =>
    rw [naturalPattern] at h
    split_ifs at h with hzero
    · rw [of_decide_eq_true h, hzero]
      exact List.forall_mem_singleton.2 (wordChar_of_isDigit rfl)
    · simp only [Bool.and_eq_true, List.all_eq_true] at h
      exact List.forall_mem_cons.2 ⟨wordChar_of_isDigit h.1, fun x hx => wordChar_of_isDigit (h.2 x hx)⟩

theorem plain_decimal {t : Text} (h : decimalPattern t = true) : plain t = true := by
  cases t with
  | nil => rfl
  | cons c s =>
    rw [decimalPattern] at h
    split_ifs at h with hminus
    · refine plain_of_words (List.forall_mem_cons.2 ⟨?_, wordChar_of_naturalPattern h⟩)
      rw [hminus]
      decide
    · exact plain_of_words (wordChar_of_naturalPattern h)

theorem oneLine_ofInt (n : Int) : oneLine (Text.ofInt n) = true := by
  have hnat (n : Nat) : oneLine (Text.ofNat n) = true :=
    (plain_iff.1 (plain_of_words fun c hc => wordChar_of_isDigit (Text.ofNat_all n c hc))).2
  cases n with
  | ofNat n => exact hnat n
  | negSucc n => exact hnat (n + 1)

/-! ## What validation admits -/

theorem validateItems_eq_ok {α : Type} {check : α → Result Unit} {key : α → Text} {seen : List Text} {items : List α} :
    validateItems check key seen items = .ok () ↔ (∀ item ∈ items, check item = .ok ()) ∧
      (items.map key).Nodup ∧ ∀ item ∈ items, key item ∉ seen := by
  induction items generalizing seen with
  | nil => simp [validateItems]
  | cons item items ih =>
    rw [validateItems, bind_eq_ok]
    constructor
    · rintro ⟨_, hcheck, h⟩
      by_cases hseen : key item ∈ seen
      · rw [if_pos hseen] at h
        cases h
      rw [if_neg hseen] at h
      obtain ⟨hchecks, hnodup, hfresh⟩ := ih.1 h
      refine ⟨List.forall_mem_cons.2 ⟨hcheck, hchecks⟩, ?_, ?_⟩
      · refine List.nodup_cons.2 ⟨fun hmem => ?_, hnodup⟩
        obtain ⟨other, hother, hkey⟩ := List.mem_map.1 hmem
        exact hfresh other hother (hkey ▸ List.mem_cons_self)
      · exact List.forall_mem_cons.2 ⟨hseen, fun other hother hmem =>
          hfresh other hother (List.mem_cons_of_mem _ hmem)⟩
    · rintro ⟨hchecks, hnodup, hfresh⟩
      obtain ⟨hcheck, hchecks⟩ := List.forall_mem_cons.1 hchecks
      obtain ⟨hseen, hfresh⟩ := List.forall_mem_cons.1 hfresh
      obtain ⟨hkey, hnodup⟩ := List.nodup_cons.1 hnodup
      refine ⟨(), hcheck, ?_⟩
      rw [if_neg hseen]
      refine ih.2 ⟨hchecks, hnodup, fun other hother hmem => ?_⟩
      rcases List.mem_cons.1 hmem with heq | hmem
      · exact hkey (heq ▸ List.mem_map_of_mem hother)
      · exact hfresh other hother hmem

theorem of_validatePublicationKey {t : Text} (h : validatePublicationKey t = .ok ()) : plain t = true := by
  rw [validatePublicationKey] at h
  split_ifs at h with hkey
  · exact plain_publicationKey hkey
  · cases h

theorem of_validatePublicationValue {t : Text} (h : validatePublicationValue t = .ok ()) : t.encodable = true := by
  obtain ⟨bytes, hbytes, -⟩ := bind_eq_ok.1 h
  rw [encodeStrict, Text.encode] at hbytes
  by_contra hne
  rw [if_neg hne] at hbytes
  cases hbytes

/-- The fields of an admitted payload that go into the block without escapes. JSON pointers are not
among them. -/
structure PublicationPayload.Admitted (payload : PublicationPayload) : Prop where
  identity : plain payload.operationIdentity = true
  facts : ∀ item ∈ payload.deterministicFacts, plain item.key = true ∧ item.value.encodable = true
  sources : ∀ item ∈ payload.sourceProvenance, plain item.snapshotId = true ∧ plain item.snapshotDigest = true ∧
    plain item.persistentRunId = true ∧ plain item.evidenceId = true
  decimals : ∀ item ∈ payload.exactIntegerEncoding, plain item.decimalValue = true
  included : ∀ item ∈ payload.inclusionAccounting, plain item.category = true
  omitted : ∀ item ∈ payload.omissionAccounting, plain item.category = true
  boundaries : payload.authorityBoundary ≠ []
  error : payload.status = .error → ∃ error, payload.typedError = some error ∧ plain error.code = true ∧
    error.message.encodable = true
  noError : payload.status = .ok → payload.typedError = none

theorem of_validatePublicationFact {item : PublicationFact} (h : validatePublicationFact item = .ok ()) :
    plain item.key = true ∧ item.value.encodable = true := by
  obtain ⟨_, hkey, hvalue⟩ := bind_eq_ok.1 h
  exact ⟨of_validatePublicationKey hkey, of_validatePublicationValue hvalue⟩

theorem of_validatePublicationSource {item : PublicationSourceProvenance}
    (h : validatePublicationSource item = .ok ()) : plain item.snapshotId = true ∧
      plain item.snapshotDigest = true ∧ plain item.persistentRunId = true ∧ plain item.evidenceId = true := by
  rw [validatePublicationSource] at h
  split_ifs at h with hvalid
  · exact ⟨plain_canonicalUuid hvalid.1, plain_digest hvalid.2.1, plain_canonicalUuid hvalid.2.2.1,
      plain_canonicalUuid hvalid.2.2.2⟩
  · cases h

theorem of_validatePublicationExactInteger {item : PublicationExactInteger}
    (h : validatePublicationExactInteger item = .ok ()) : plain item.decimalValue = true := by
  rw [validatePublicationExactInteger] at h
  split_ifs at h with hvalid
  · exact plain_decimal hvalid.2.2.2
  · cases h

theorem of_validatePublicationAccounting {item : PublicationAccounting}
    (h : validatePublicationAccounting item = .ok ()) : plain item.category = true := by
  obtain ⟨_, hkey, -⟩ := bind_eq_ok.1 h
  exact of_validatePublicationKey hkey

theorem of_validateTypedFailure {payload : PublicationPayload} (h : validateTypedFailure payload = .ok ()) :
    ∃ error, payload.typedError = some error ∧ plain error.code = true ∧ error.message.encodable = true := by
  rw [validateTypedFailure] at h
  cases herror : payload.typedError with
  | none =>
    rw [herror] at h
    cases h
  | some error =>
    rw [herror] at h
    simp only at h
    by_cases hcode : errorCodePattern error.code
    · rw [if_neg (not_not.2 hcode)] at h
      obtain ⟨_, hmessage, -⟩ := bind_eq_ok.1 h
      exact ⟨error, rfl, plain_errorCode hcode, of_validatePublicationValue hmessage⟩
    · rw [if_pos hcode] at h
      cases h

theorem of_validateBusinessResult {payload : PublicationPayload} (h : validateBusinessResult payload = .ok ()) :
    payload.typedError = none := by
  by_contra hne
  rw [validateBusinessResult, if_pos hne] at h
  cases h

theorem admitted_of_valid {payload : PublicationPayload} (h : validatePublicationPayload payload = .ok ()) :
    payload.Admitted := by
  rw [validatePublicationPayload] at h
  by_cases hroute : payload.routeDecision ∉ [RouteDecision.core, .context]
  · rw [if_pos hroute] at h
    cases h
  by_cases hidentity : digestPattern payload.operationIdentity
  swap
  · rw [if_neg hroute, if_pos hidentity] at h
    cases h
  rw [if_neg hroute, if_neg (not_not.2 hidentity)] at h
  obtain ⟨_, hcollections, hstatus⟩ := bind_eq_ok.1 h
  rw [validatePublicationCollections] at hcollections
  split_ifs at hcollections with hlimits
  · cases hcollections
  obtain ⟨_, hfacts, hcollections⟩ := bind_eq_ok.1 hcollections
  obtain ⟨_, hsources, hcollections⟩ := bind_eq_ok.1 hcollections
  obtain ⟨_, hexact, hcollections⟩ := bind_eq_ok.1 hcollections
  obtain ⟨_, hincluded, homitted⟩ := bind_eq_ok.1 hcollections
  exact {
    identity := plain_digest hidentity
    facts := fun item hitem => of_validatePublicationFact ((validateItems_eq_ok.1 hfacts).1 item hitem)
    sources := fun item hitem => of_validatePublicationSource ((validateItems_eq_ok.1 hsources).1 item hitem)
    decimals := fun item hitem => of_validatePublicationExactInteger ((validateItems_eq_ok.1 hexact).1 item hitem)
    included := fun item hitem => of_validatePublicationAccounting ((validateItems_eq_ok.1 hincluded).1 item hitem)
    omitted := fun item hitem => of_validatePublicationAccounting ((validateItems_eq_ok.1 homitted).1 item hitem)
    boundaries := fun hnil => hlimits (.inr (.inr (.inr (.inr (.inl hnil)))))
    error := fun herror => of_validateTypedFailure (by rw [herror] at hstatus; exact hstatus)
    noError := fun hok => of_validateBusinessResult (by rw [hok] at hstatus; exact hstatus) }

/-- A rendered block is the lines of an admitted payload, joined. -/
theorem renderPublicationFactBlock_eq_ok {payload : PublicationPayload} {block : Text}
    (h : renderPublicationFactBlock payload = .ok block) : payload.Admitted ∧
      ((payload.status = .ok ∧ block = joinLines (factBlockLines payload [])) ∨
        ∃ error, payload.status = .error ∧ payload.typedError = some error ∧
          block = joinLines (factBlockLines payload (typedErrorLines error))) := by
  rw [renderPublicationFactBlock] at h
  obtain ⟨_, hvalid, h⟩ := bind_eq_ok.1 h
  obtain ⟨errorLines, herror, h⟩ := bind_eq_ok.1 h
  obtain ⟨bytes, -, h⟩ := bind_eq_ok.1 h
  split_ifs at h with hbytes
  · cases h
  have hadmitted := admitted_of_valid hvalid
  refine ⟨hadmitted, ?_⟩
  have hblock := (Except.ok.inj h).symm
  cases hstatus : payload.status with
  | ok =>
    rw [hstatus] at herror
    obtain rfl := Except.ok.inj herror
    exact .inl ⟨rfl, hblock⟩
  | error =>
    obtain ⟨error, hsome, -⟩ := hadmitted.error hstatus
    rw [hstatus, hsome] at herror
    obtain rfl := Except.ok.inj herror
    exact .inr ⟨error, rfl, hsome, hblock⟩

end Steward
