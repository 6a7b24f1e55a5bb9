import Steward.Documents.EvidenceWindows

/-!
# Parser escalation

The part of `_observe_admitted` that parses: a first attempt with the profile that
fits the request, and further attempts where its result is not good enough. What
the workers return is a parameter. `escalate_keeps_answer` says that the result
that is published is the best of the attempts.
-/

namespace Steward.Documents

open Py Agent

variable {F : Type}

/-- `STREAMING_QUERY_MAP_THRESHOLD_BYTES` -/
def streamingQueryMapThresholdBytes : Nat := 32 * 1024 * 1024

/-- `STREAMING_QUERY_MAP_PDF_PAGE_THRESHOLD` -/
def streamingQueryMapPdfPageThreshold : Nat := 128

/-! ## Attempts -/

/-- What `_complete` and `_failure` return; a parse that is not complete has no items. -/
structure ParserObservation (F : Type) where
  status : Text
  backendName : Option Text
  warnings : List Text
  items : List (NormalizedDocumentItem F)
  failureReasonCode : Option Text
  failureExceptionType : Option Text
  incomplete : status ≠ txt "COMPLETE" → items = []

namespace ParserObservation

def complete (o : ParserObservation F) : Bool := o.status = txt "COMPLETE"

/-- `_add_warning` -/
def addWarning (o : ParserObservation F) (warning : Text) : ParserObservation F :=
  { o with warnings := fromKeys (o.warnings ++ [warning]) }

end ParserObservation

/-- The arguments of `_parse_profile` that differ between the attempts. -/
structure ParseRequest where
  profile : AttemptProfile
  pageRange : Option (Int × Int)
  query : Option Text
  nativeView : Option DocumentView

structure Attempt (F : Type) where
  profile : AttemptProfile
  cacheStatus : Text
  observation : ParserObservation F

/-- The request, what is known of the source, and what its parsers return. -/
structure ParseContext (F : Type) extends CharTable where
  sourceFormat : SourceFormat
  profile : ParserProfile
  view : DocumentView
  intent : DocumentIntent
  query : Option Text
  evidencePage : Option Int
  sourceBytes : Nat
  externalRelationshipCount : Nat
  /-- `_pdf_native_text_probe`: the pages of a PDF, and those with little text. -/
  pdfNativeTextProbe : Option (Nat × Nat)
  /-- `_parse_profile`: the observation and its cache status. -/
  parseProfile : ParseRequest → ParserObservation F × Text

namespace ParseContext

variable (C : ParseContext F)

/-- `_attempt`, with the observation it is made of. -/
def attempt (request : ParseRequest) : Attempt F :=
  ⟨request.profile, (C.parseProfile request).2, (C.parseProfile request).1⟩

def qualityView : DocumentView :=
  if C.intent = .locate ∨ C.intent = .evidence then .read else C.view

def quality (a : Attempt F) : DocumentQualityAssessment :=
  assessDocumentQuality C.toCharTable a.observation.items a.observation.status C.qualityView

def executionAttempt (a : Attempt F) : DocumentExecutionAttempt :=
  { profile := a.profile
    backendName := a.observation.backendName
    status := a.observation.status
    cacheStatus := a.cacheStatus
    quality := C.quality a
    failureReasonCode := a.observation.failureReasonCode
    failureExceptionType := a.observation.failureExceptionType }

/-- `_items_contain_query` -/
def itemsContainQuery (items : List (NormalizedDocumentItem F)) (query : Text) : Bool :=
  items.any fun item => (C.matchDocumentText item.textOrValue query).isSome

/-- The kinds of `_items_contain_native_fidelity_query` -/
def nativeKinds : List Text :=
  [txt "pdf_metadata", txt "pdf_outline", txt "pdf_annotation", txt "pdf_form_field", txt "docx_comment",
    txt "docx_footnote", txt "docx_endnote", txt "docx_revision", txt "xlsx_comment", txt "xlsx_chart",
    txt "pptx_speaker_notes", txt "pptx_accessibility", txt "pptx_chart"]

/-- `_items_contain_native_fidelity_query` -/
def itemsContainNativeFidelityQuery (items : List (NormalizedDocumentItem F)) (query : Text) : Bool :=
  items.any fun item => item.kind ∈ nativeKinds && (C.matchDocumentText item.textOrValue query).isSome

/-! ## The first attempt -/

/-- The pages of a PDF and those with little text, where they are looked at. -/
def probe : Option (Nat × Nat) :=
  if C.sourceFormat = .pdf ∧ C.profile = .auto ∧ (C.intent = .read ∨ C.intent = .locate ∨ C.intent = .evidence) then
    C.pdfNativeTextProbe
  else none

def lowTextPages : Nat := (C.probe.map Prod.snd).getD 0

def queried : Prop := C.intent = .locate ∨ C.intent = .evidence

instance : Decidable C.queried := inferInstanceAs (Decidable (_ ∨ _))

/-- `streaming_query_map` -/
def streamingQueryMap : Bool :=
  let queriedPdfMap := decide <| C.sourceFormat = .pdf ∧ C.queried ∧
    (streamingQueryMapThresholdBytes ≤ C.sourceBytes ∨
      streamingQueryMapPdfPageThreshold ≤ (C.probe.map Prod.fst).getD 0 ∨ 0 < C.lowTextPages)
  let thresholdQueryMap := decide <| C.queried ∧
    (C.sourceFormat = .docx ∨ C.sourceFormat = .xlsx ∨ C.sourceFormat = .pptx) ∧
    streamingQueryMapThresholdBytes ≤ C.sourceBytes
  let epubQueryMap := decide <| C.sourceFormat = .epub ∧ C.queried
  C.profile = .auto && C.query.isSome && (queriedPdfMap || thresholdQueryMap || epubQueryMap)

/-- `scanned_pdf_read` -/
def scannedPdfRead : Bool :=
  match C.probe with
  | some (pages, low) => C.sourceFormat = .pdf && C.intent = .read && 0 < pages && pages ≤ low * 2
  | none => false

def initialProfile : AttemptProfile :=
  if C.scannedPdfRead then .ocrNative
  else if C.streamingQueryMap then .map
  else initialDocumentProfile C.sourceFormat C.profile C.view C.intent

def firstAttempt : Attempt F :=
  C.attempt ⟨C.initialProfile, none, if C.streamingQueryMap then C.query else none, none⟩

end ParseContext

/-! ## Escalation -/

/-- The attempts made, the first first, and what is selected so far. -/
structure Escalation (F : Type) where
  attempts : List (Attempt F)
  selected : ParserObservation F
  selectedProfile : Option AttemptProfile
  escalationReason : Option Text
  selection : Option (DocumentExecutionSelection ContainerId)

namespace Escalation

def begin (a : Attempt F) : Escalation F :=
  ⟨[a], a.observation, if a.observation.complete then some a.profile else none, none, none⟩

/-- An attempt for some reason. -/
def add (e : Escalation F) (reason : Option Text) (a : Attempt F) : Escalation F :=
  { e with attempts := e.attempts ++ [a], escalationReason := reason }

/-- The result of an attempt is selected. -/
def select (e : Escalation F) (a : Attempt F) (warning : Text) : Escalation F :=
  { e with selected := a.observation.addWarning warning, selectedProfile := some a.profile }

end Escalation

section
variable (C : ParseContext F)

/-- `(selected_page_start, selected_page_end or selected_page_start)` -/
def selectedPageRange (selection : DocumentExecutionSelection ContainerId) : Option (Int × Int) :=
  selection.selectedPageStart.map fun first =>
    match selection.selectedPageEnd with
    | some last => (first, if last = 0 then first else last)
    | none => (first, first)

/-- The selection from the items of another parser. -/
def reselected (a : Attempt F) (query : Text) (strategy : Text) :
    Except RuntimeFailure (DocumentExecutionSelection ContainerId) := do
  let selection ← targetedEvidenceSelection C.toCharTable a.observation.items query C.sourceFormat .fast none
  return { selection with strategy, mapProfile := a.profile }

/-- The pages of a PDF with a match are parsed again. -/
def targetPages (e : Escalation F) (query : Text) (pageRange : Int × Int) : Escalation F :=
  let deep := C.attempt ⟨.deep, some pageRange, none, none⟩
  let added := e.add (some (txt "EVIDENCE_TARGETED_PAGE_RANGE")) deep
  if deep.observation.complete ∧ C.itemsContainQuery deep.observation.items query then
    added.select deep (txt "EVIDENCE_TARGETED_DEEP_PARSE")
  else if deep.observation.complete then
    { added with selected := C.firstAttempt.observation.addWarning (txt "EVIDENCE_TARGETED_DEEP_QUERY_NOT_RETAINED") }
  else added

/-- A document whose containers with a match are poor is parsed again. -/
def targetContainers (e : Escalation F) (query : Text) : Except RuntimeFailure (Escalation F) :=
  let deep := C.attempt ⟨.deep, none, none, none⟩
  let added := e.add (some (txt "EVIDENCE_QUERY_CONTAINER_INSUFFICIENT")) deep
  if deep.observation.complete ∧ C.itemsContainQuery deep.observation.items query then do
    let selection ← reselected C deep query (txt "FAST_QUERY_MAP_THEN_DEEP_NATIVE_CONTAINER_QUALITY")
    return { added.select deep (txt "EVIDENCE_QUERY_RELEVANT_DEEP_FALLBACK") with selection := some selection }
  else .ok added

/-- What is parsed again for a selection from what `FAST` or `MAP` found. -/
def targetSelected (e : Escalation F) (query : Text) (selection : DocumentExecutionSelection ContainerId) :
    Except RuntimeFailure (Escalation F) :=
  let found := { e with selection := some selection }
  if C.itemsContainNativeFidelityQuery C.firstAttempt.observation.items query ∨ C.initialProfile = .map then .ok found
  else if C.sourceFormat = .pdf then
    match selectedPageRange selection with
    | some pageRange => .ok (targetPages C found query pageRange)
    | none => .ok found
  else if selection.matchedContainerIds = [] ∨
      selection.containerQualities.any (fun container => container.quality.status = .insufficient) then
    targetContainers C found query
  else .ok found

/-- The first step of `AUTO`: the evidence in what `FAST` or `MAP` found. -/
def targetEvidence (e : Escalation F) : Except RuntimeFailure (Escalation F) :=
  let first := C.firstAttempt.observation
  match C.query with
  | none => .ok e
  | some query =>
    if C.intent = .evidence ∧ (C.initialProfile = .fast ∨ C.initialProfile = .map) ∧ first.complete then do
      let selection ← targetedEvidenceSelection C.toCharTable first.items query C.sourceFormat C.initialProfile
        C.evidencePage
      targetSelected C e query selection
    else .ok e

/-- Why, and on which pages, the evidence is looked for by character recognition. -/
def ocrReason (e : Escalation F) : Option (Text × Option (Int × Int)) :=
  let last := e.attempts.getLast?
  if (C.quality C.firstAttempt).status = .insufficient ∧ C.initialProfile ≠ .map then
    some (txt "EVIDENCE_NATIVE_TEXT_INSUFFICIENT",
      if C.sourceFormat = .pdf then C.evidencePage.map fun page => (page, page) else none)
  else if C.sourceFormat = .pdf ∧ (e.selection.bind selectedPageRange).isSome ∧ last.any (fun a => a.profile = .deep) ∧
      last.any (fun a => (C.quality a).status = .insufficient) then
    some (txt "EVIDENCE_TARGETED_PAGE_TEXT_INSUFFICIENT", e.selection.bind selectedPageRange)
  else if C.sourceFormat.isImage ∧ last.any (fun a => (C.quality a).status = .insufficient) then
    some (txt "EVIDENCE_IMAGE_TEXT_INSUFFICIENT", none)
  else none

/-- The second step of `AUTO`: the evidence in pictures of pages. -/
def recognizeEvidence (e : Escalation F) : Except RuntimeFailure (Escalation F) :=
  let first := C.firstAttempt.observation
  match C.query with
  | none => .ok e
  | some query =>
    if C.intent = .evidence ∧ first.complete ∧ (C.sourceFormat = .pdf ∨ C.sourceFormat.isImage) ∧
        ¬ C.itemsContainNativeFidelityQuery first.items query then
      match ocrReason C e with
      | none => .ok e
      | some (reason, pageRange) =>
        let ocr := C.attempt ⟨.ocr, pageRange, none, none⟩
        let added := e.add (some reason) ocr
        if ocr.observation.complete ∧ C.itemsContainQuery ocr.observation.items query then do
          let selection ← reselected C ocr query (txt "QUALITY_GATED_LOCAL_OCR")
          return { added.select ocr (txt "EVIDENCE_QUALITY_GATED_LOCAL_OCR") with selection := some selection }
        else .ok added
    else .ok e

/-- The third step of `AUTO`: a poor first result is parsed again. -/
def deepen (e : Escalation F) : Escalation F :=
  let quality := C.quality C.firstAttempt
  if C.intent ≠ .evidence ∧ C.initialProfile = .fast ∧ quality.status = .insufficient then
    let deep := C.attempt ⟨.deep, none, none, none⟩
    let added := e.add quality.reasonCodes.head? deep
    if deep.observation.complete then added.select deep (txt "AUTO_ESCALATED_TO_DEEP") else added
  else e

/-- The fourth step of `AUTO`: character recognition of what the deep parser finds too little in. -/
def recognize (e : Escalation F) : Escalation F :=
  match e.attempts.getLast? with
  | none => e
  | some last =>
    if C.intent ≠ .evidence ∧ e.selectedProfile = some .deep ∧ (C.quality last).status = .insufficient ∧
        (C.sourceFormat = .pdf ∨ C.sourceFormat.isImage) then
      let ocr := C.attempt ⟨.ocr, none, none, none⟩
      let added := e.add (C.quality last).reasonCodes.head? ocr
      if ocr.observation.complete ∧ ((C.quality ocr).status = .sufficient ∨
          (C.quality last).alphanumericCharacters < (C.quality ocr).alphanumericCharacters) then
        added.select ocr (txt "AUTO_ESCALATED_TO_MACOS_VISION")
      else added
    else e

/-- The last step of `AUTO`: the fast parser where another one did not work. -/
def fallBack (e : Escalation F) : Escalation F :=
  if ¬ e.selected.complete ∧ ¬ C.sourceFormat.isImage ∧
      C.initialProfile ∉ [.fast, .map, .ocrNative, .structureNative] then
    let fast := C.attempt ⟨.fast, none, none, some C.view⟩
    let added := e.add (some (txt "PRIMARY_PARSER_UNAVAILABLE")) fast
    if fast.observation.complete then added.select fast (txt "AUTO_PRIMARY_UNAVAILABLE_FAST_FALLBACK") else added
  else e

/-- Another attempt in place of the first one, whatever comes of it. -/
def replaceBy (e : Escalation F) (reason warning : Text) (a : Attempt F) : Escalation F :=
  { e.add (some reason) a with
    selected := a.observation.addWarning warning
    selectedProfile := if a.observation.complete then some a.profile else none }

/-- The attempts of `_observe_admitted`. -/
def escalate : Except RuntimeFailure (Escalation F) :=
  let e := Escalation.begin C.firstAttempt
  match C.profile with
  | .auto => do
    let targeted ← targetEvidence C e
    let recognized ← recognizeEvidence C targeted
    return fallBack C (recognize C (deepen C recognized))
  | .deep =>
    if (e.selected.status = txt "PARSER_FAILED" ∨ e.selected.status = txt "UNAVAILABLE") ∧ ¬ C.sourceFormat.isImage then
      .ok (replaceBy e (txt "DEEP_PARSER_UNAVAILABLE") (txt "DEEP_PARSER_UNAVAILABLE_FAST_FALLBACK")
        (C.attempt ⟨.fast, none, none, some C.view⟩))
    else .ok e
  | .enriched =>
    if ¬ e.selected.complete then
      .ok (replaceBy e (txt "ENRICHMENT_UNAVAILABLE") (txt "ENRICHMENT_UNAVAILABLE_DEEP_FALLBACK")
        (C.attempt ⟨.deep, none, none, none⟩))
    else .ok e
  | .fast => .ok e

/-- What is published of the attempts. -/
def published (e : Escalation F) : ParserObservation F × DocumentExecutionTrace ContainerId :=
  (if C.externalRelationshipCount = 0 then e.selected
    else e.selected.addWarning (txt "external_relationships_ignored:" ++ Text.ofNat C.externalRelationshipCount),
    { requestedProfile := C.profile
      requestedIntent := C.intent
      requestedView := C.view
      initialProfile := C.initialProfile
      selectedProfile := e.selectedProfile
      escalationReason := e.escalationReason
      attempts := e.attempts.map C.executionAttempt
      selection := e.selection })

end

/-! ## What an attempt keeps -/

/-- The same observation, with more warnings. -/
structure PlusWarnings (o p : ParserObservation F) : Prop where
  status : p.status = o.status
  backendName : p.backendName = o.backendName
  items : p.items = o.items
  failureReasonCode : p.failureReasonCode = o.failureReasonCode
  failureExceptionType : p.failureExceptionType = o.failureExceptionType
  warnings : o.warnings ⊆ p.warnings

theorem PlusWarnings.refl (o : ParserObservation F) : PlusWarnings o o := ⟨rfl, rfl, rfl, rfl, rfl, List.Subset.refl _⟩

theorem PlusWarnings.addWarning {o p : ParserObservation F} (h : PlusWarnings o p) (warning : Text) :
    PlusWarnings o (p.addWarning warning) :=
  ⟨h.status, h.backendName, h.items, h.failureReasonCode, h.failureExceptionType, fun _ hw =>
    mem_fromKeys.2 (List.mem_append_left _ (h.warnings hw))⟩

theorem PlusWarnings.complete {o p : ParserObservation F} (h : PlusWarnings o p) : p.complete = o.complete := by
  unfold ParserObservation.complete
  rw [h.status]

section
variable {C : ParseContext F} {e : Escalation F} {a : Attempt F} {query : Text} {reason : Option Text} {warning : Text}

/-- The request is for evidence of the query, with a profile that may escalate. -/
def SearchesEvidence (C : ParseContext F) (query : Text) : Prop :=
  C.profile = .auto ∧ C.intent = .evidence ∧ C.query = some query

/-- The attempt is what a parser returned for a request. -/
def Parsed (C : ParseContext F) (a : Attempt F) : Prop := ∃ request, a = C.attempt request

/-- What is selected is the best of the attempts. -/
structure SelectsBest (C : ParseContext F) (e : Escalation F) : Prop where
  parsed : ∀ a ∈ e.attempts, Parsed C a
  source : ∃ a ∈ e.attempts, PlusWarnings a.observation e.selected ∧
    e.selectedProfile = if a.observation.complete then some a.profile else none
  complete : ∀ a ∈ e.attempts, a.observation.complete = true → e.selected.complete = true
  retained : ∀ query, SearchesEvidence C query → ∀ a ∈ e.attempts,
    C.itemsContainQuery a.observation.items query = true → C.itemsContainQuery e.selected.items query = true

theorem kept_begin : SelectsBest C (Escalation.begin C.firstAttempt) where
  parsed a ha := ⟨_, List.mem_singleton.1 ha⟩
  source := ⟨_, List.mem_singleton_self _, .refl _, rfl⟩
  complete a ha hcomplete := by rwa [← List.mem_singleton.1 ha]
  retained query _ a ha hcontains := by rwa [← List.mem_singleton.1 ha]

theorem SelectsBest.reselect (h : SelectsBest C e) (selection : Option (DocumentExecutionSelection ContainerId)) :
    SelectsBest C { e with selection } := ⟨h.parsed, h.source, h.complete, h.retained⟩

theorem SelectsBest.warn (h : SelectsBest C e) (warning : Text) :
    SelectsBest C { e with selected := e.selected.addWarning warning } where
  parsed := h.parsed
  source := by
    obtain ⟨a, ha, hplus, hprofile⟩ := h.source
    exact ⟨a, ha, hplus.addWarning warning, hprofile⟩
  complete := h.complete
  retained := h.retained

/-- An attempt that is not better than what is selected. -/
theorem SelectsBest.add (h : SelectsBest C e) (ha : Parsed C a)
    (hcomplete : a.observation.complete = true → e.selected.complete = true)
    (hretained : ∀ query, SearchesEvidence C query → C.itemsContainQuery a.observation.items query = true →
      C.itemsContainQuery e.selected.items query = true) : SelectsBest C (e.add reason a) where
  parsed b hb := (List.mem_append.1 hb).elim (h.parsed b) fun hb => List.mem_singleton.1 hb ▸ ha
  source := by
    obtain ⟨b, hb, hsource⟩ := h.source
    exact ⟨b, List.mem_append_left _ hb, hsource⟩
  complete b hb := (List.mem_append.1 hb).elim (h.complete b) fun hb => List.mem_singleton.1 hb ▸ hcomplete
  retained query hquery b hb := (List.mem_append.1 hb).elim (h.retained query hquery b) fun hb =>
    List.mem_singleton.1 hb ▸ hretained query hquery

/-- A complete attempt that has what is selected is selected. -/
theorem SelectsBest.select (h : SelectsBest C e) (ha : Parsed C a) (hcomplete : a.observation.complete = true)
    (hretained : ∀ query, SearchesEvidence C query → C.itemsContainQuery e.selected.items query = true →
      C.itemsContainQuery a.observation.items query = true) : SelectsBest C ((e.add reason a).select a warning) where
  parsed b hb := (List.mem_append.1 hb).elim (h.parsed b) fun hb => List.mem_singleton.1 hb ▸ ha
  source := ⟨a, List.mem_append_right _ (List.mem_singleton_self _), (PlusWarnings.refl _).addWarning warning, by
    rw [if_pos hcomplete]
    rfl⟩
  complete _ _ _ := hcomplete
  retained query hquery b hb hcontains := (List.mem_append.1 hb).elim
    (fun hb => hretained query hquery (h.retained query hquery b hb hcontains))
    fun hb => List.mem_singleton.1 hb ▸ hcontains

/-- What has no item contains no query. -/
theorem not_contains_of_incomplete {o : ParserObservation F} (h : ¬ o.complete = true) :
    C.itemsContainQuery o.items query = false := by
  have hitems : o.items = [] := o.incomplete fun hstatus => h (decide_eq_true hstatus)
  unfold ParseContext.itemsContainQuery
  rw [hitems]
  rfl

/-! ## The steps -/

/-- The state after some steps: what is selected is kept, and the profiles behind the first one are some of
`later`, the deep one only behind the fast one. -/
structure Escalated (C : ParseContext F) (later : List AttemptProfile) (e : Escalation F) : Prop where
  kept : SelectsBest C e
  first : C.firstAttempt ∈ e.attempts
  profiles : ∃ rest, e.attempts.map Attempt.profile = C.initialProfile :: rest ∧ rest.Sublist later ∧
    (.deep ∈ rest → C.initialProfile = .fast)

theorem escalated_begin : Escalated C [] (Escalation.begin C.firstAttempt) :=
  ⟨kept_begin, List.mem_singleton_self _, [], rfl, .slnil, nofun⟩

variable {later : List AttemptProfile} {p : AttemptProfile} {e' : Escalation F}

theorem Escalated.widen (h : Escalated C later e) (p : AttemptProfile) : Escalated C (later ++ [p]) e := by
  obtain ⟨rest, hprofiles, hsub, hdeep⟩ := h.profiles
  exact ⟨h.kept, h.first, rest, hprofiles, hsub.trans (List.sublist_append_left _ _), hdeep⟩

theorem Escalated.step (h : Escalated C later e) (hkept : SelectsBest C e')
    (hattempts : e'.attempts = e.attempts ++ [a])
    (hdeep : a.profile = .deep → C.initialProfile = .fast) : Escalated C (later ++ [a.profile]) e' := by
  obtain ⟨rest, hprofiles, hsub, hrest⟩ := h.profiles
  refine ⟨hkept, hattempts ▸ List.mem_append_left _ h.first, rest ++ [a.profile], ?_, hsub.append (.refl _),
    fun hmem => ?_⟩
  · rw [hattempts, List.map_append, hprofiles]
    rfl
  · exact (List.mem_append.1 hmem).elim hrest fun hmem => hdeep (List.mem_singleton.1 hmem).symm

/-- Of one request, the query is one. -/
theorem SearchesEvidence.unique {query' : Text} (h : SearchesEvidence C query') (hquery : C.query = some query) :
    query' = query := Option.some.inj (h.2.2.symm.trans hquery)

theorem parsed_attempt (request : ParseRequest) : Parsed C (C.attempt request) := ⟨request, rfl⟩

theorem targetPages_escalated (h : Escalated C later e) (hquery : C.query = some query)
    (hselected : e.selected = C.firstAttempt.observation) (hfirst : C.firstAttempt.observation.complete = true)
    (hfast : C.initialProfile = .fast) (pageRange : Int × Int) :
    Escalated C (later ++ [.deep]) (targetPages C e query pageRange) := by
  have hparsed := parsed_attempt (C := C) ⟨.deep, some pageRange, none, none⟩
  unfold targetPages
  dsimp only
  split_ifs with hfound hcomplete
  · refine h.step (h.kept.select hparsed hfound.1 fun query' hsearches _ => ?_) rfl fun _ => hfast
    rw [hsearches.unique hquery]
    exact hfound.2
  · have hkept : SelectsBest C (e.add (some (txt "EVIDENCE_TARGETED_PAGE_RANGE"))
        (C.attempt ⟨.deep, some pageRange, none, none⟩)) := by
      refine h.kept.add hparsed (fun _ => by rw [hselected]; exact hfirst) fun query' hsearches hcontains => ?_
      rw [hsearches.unique hquery] at hcontains
      exact absurd ⟨hcomplete, hcontains⟩ hfound
    have hwarned := hkept.warn (txt "EVIDENCE_TARGETED_DEEP_QUERY_NOT_RETAINED")
    have hsame : (e.add (some (txt "EVIDENCE_TARGETED_PAGE_RANGE"))
        (C.attempt ⟨.deep, some pageRange, none, none⟩)).selected = C.firstAttempt.observation := hselected
    rw [hsame] at hwarned
    exact h.step hwarned rfl fun _ => hfast
  · refine h.step (h.kept.add hparsed (fun hc => absurd hc hcomplete) fun query' _ hcontains => ?_) rfl fun _ => hfast
    rw [not_contains_of_incomplete hcomplete] at hcontains
    cases hcontains

/-- Without a requested page the selection does not fail. -/
theorem ok_reselected (a : Attempt F) (query strategy : Text) :
    ∃ selection, reselected C a query strategy = .ok selection :=
  ⟨_, rfl⟩

theorem targetContainers_escalated (h : Escalated C later e) (hquery : C.query = some query)
    (hselected : e.selected.complete = true) (hfast : C.initialProfile = .fast) :
    ∃ e', targetContainers C e query = .ok e' ∧ Escalated C (later ++ [.deep]) e' := by
  have hparsed := parsed_attempt (C := C) ⟨.deep, none, none, none⟩
  unfold targetContainers
  dsimp only
  split_ifs with hfound
  · obtain ⟨selection, hselection⟩ := ok_reselected (C := C) (C.attempt ⟨.deep, none, none, none⟩) query
      (txt "FAST_QUERY_MAP_THEN_DEEP_NATIVE_CONTAINER_QUALITY")
    rw [hselection]
    refine ⟨_, rfl, h.step ((h.kept.select hparsed hfound.1 fun query' hsearches _ => ?_).reselect _) rfl
      fun _ => hfast⟩
    rw [hsearches.unique hquery]
    exact hfound.2
  · refine ⟨_, rfl, h.step (h.kept.add hparsed (fun _ => hselected) fun query' hsearches hcontains => ?_) rfl
      fun _ => hfast⟩
    by_cases hcomplete : (C.attempt ⟨.deep, none, none, none⟩).observation.complete = true
    · rw [hsearches.unique hquery] at hcontains
      exact absurd ⟨hcomplete, hcontains⟩ hfound
    · rw [not_contains_of_incomplete hcomplete] at hcontains
      cases hcontains

theorem targetSelected_escalated (h : Escalated C [] e) (hquery : C.query = some query)
    (hselected : e.selected = C.firstAttempt.observation) (hfirst : C.firstAttempt.observation.complete = true)
    (hprofile : C.initialProfile = .fast ∨ C.initialProfile = .map)
    (selection : DocumentExecutionSelection ContainerId) :
    ∃ e', targetSelected C e query selection = .ok e' ∧ Escalated C [.deep] e' := by
  have hfound : Escalated C [] { e with selection := some selection } := ⟨h.kept.reselect _, h.first, h.profiles⟩
  unfold targetSelected
  dsimp only
  split_ifs with hnative hpdf hpoor
  · exact ⟨_, rfl, hfound.widen _⟩
  · have hfast := hprofile.resolve_right fun hmap => hnative (.inr hmap)
    cases selectedPageRange selection with
    | none => exact ⟨_, rfl, hfound.widen _⟩
    | some pageRange => exact ⟨_, rfl, targetPages_escalated hfound hquery hselected hfirst hfast pageRange⟩
  · refine targetContainers_escalated hfound hquery ?_ (hprofile.resolve_right fun hmap => hnative (.inr hmap))
    show e.selected.complete = true
    rw [hselected]
    exact hfirst
  · exact ⟨_, rfl, hfound.widen _⟩

/-- The page that is asked for has no match in the first result. -/
def PageMissed (C : ParseContext F) : Prop := ∃ query page, C.query = some query ∧ C.evidencePage = some page ∧
  page ∉ matchedPages C.toCharTable C.firstAttempt.observation.items query

theorem targetEvidence_escalated :
    (∃ e', targetEvidence C (.begin C.firstAttempt) = .ok e' ∧ Escalated C [.deep] e') ∨
      targetEvidence C (.begin C.firstAttempt) = .error evidencePageMismatch ∧ PageMissed C := by
  have hbegin : Escalated C [] (.begin C.firstAttempt) := escalated_begin
  unfold targetEvidence
  cases hquery : C.query with
  | none => exact .inl ⟨_, rfl, hbegin.widen .deep⟩
  | some query =>
    dsimp only
    by_cases hsearch : C.intent = .evidence ∧ (C.initialProfile = .fast ∨ C.initialProfile = .map) ∧
        C.firstAttempt.observation.complete = true
    · rw [if_pos hsearch]
      cases hselect : targetedEvidenceSelection C.toCharTable C.firstAttempt.observation.items query C.sourceFormat
          C.initialProfile C.evidencePage with
      | ok selection => exact .inl (targetSelected_escalated hbegin hquery rfl hsearch.2.2 hsearch.2.1 selection)
      | error failure =>
        obtain ⟨rfl, page, hpage, hmissed⟩ := targetedEvidenceSelection_error hselect
        exact .inr ⟨rfl, query, page, hquery, hpage, hmissed⟩
    · rw [if_neg hsearch]
      exact .inl ⟨_, rfl, hbegin.widen .deep⟩

/-- Outside of a search for evidence the first two steps do nothing. -/
theorem targetEvidence_of_not_evidence (h : C.intent ≠ .evidence) (e : Escalation F) : targetEvidence C e = .ok e := by
  unfold targetEvidence
  dsimp only
  cases C.query with
  | none => rfl
  | some query => exact if_neg fun hsearch => h hsearch.1

theorem recognizeEvidence_of_not_evidence (h : C.intent ≠ .evidence) (e : Escalation F) :
    recognizeEvidence C e = .ok e := by
  unfold recognizeEvidence
  dsimp only
  cases C.query with
  | none => rfl
  | some query => exact if_neg fun hsearch => h hsearch.1

theorem recognizeEvidence_escalated (h : Escalated C later e) :
    ∃ e', recognizeEvidence C e = .ok e' ∧ Escalated C (later ++ [.ocr]) e' := by
  unfold recognizeEvidence
  cases hquery : C.query with
  | none => exact ⟨_, rfl, h.widen _⟩
  | some query =>
    dsimp only
    split_ifs with hsearch
    · cases ocrReason C e with
      | none => exact ⟨_, rfl, h.widen _⟩
      | some found =>
        obtain ⟨reason, pageRange⟩ := found
        have hparsed := parsed_attempt (C := C) ⟨.ocr, pageRange, none, none⟩
        dsimp only
        split_ifs with hfound
        · obtain ⟨selection, hselection⟩ := ok_reselected (C := C) (C.attempt ⟨.ocr, pageRange, none, none⟩) query
            (txt "QUALITY_GATED_LOCAL_OCR")
          rw [hselection]
          refine ⟨_, rfl, h.step ((h.kept.select hparsed hfound.1 fun query' hsearches _ => ?_).reselect _) rfl nofun⟩
          rw [hsearches.unique hquery]
          exact hfound.2
        · refine ⟨_, rfl, h.step (h.kept.add hparsed (fun _ => h.kept.complete _ h.first hsearch.2.1)
            fun query' hsearches hcontains => ?_) rfl nofun⟩
          by_cases hcomplete : (C.attempt ⟨.ocr, pageRange, none, none⟩).observation.complete = true
          · rw [hsearches.unique hquery] at hcontains
            exact absurd ⟨hcomplete, hcontains⟩ hfound
          · rw [not_contains_of_incomplete hcomplete] at hcontains
            cases hcontains
    · exact ⟨_, rfl, h.widen _⟩

theorem deepen_of_evidence (h : C.intent = .evidence) (e : Escalation F) : deepen C e = e :=
  if_neg fun hsearch => hsearch.1 h

theorem recognize_of_evidence (h : C.intent = .evidence) (e : Escalation F) : recognize C e = e := by
  unfold recognize
  cases e.attempts.getLast? with
  | none => rfl
  | some last => exact if_neg fun hsearch => hsearch.1 h

/-- Nothing is asked of an attempt outside of a search for evidence. -/
theorem not_searches (h : C.intent ≠ .evidence) {P : Text → Prop} (query : Text)
    (hsearches : SearchesEvidence C query) : P query :=
  absurd hsearches.2.1 h

theorem deepen_escalated (h : Escalated C later e) (hintent : C.intent ≠ .evidence) :
    Escalated C (later ++ [.deep]) (deepen C e) := by
  have hparsed := parsed_attempt (C := C) ⟨.deep, none, none, none⟩
  unfold deepen
  dsimp only
  split_ifs with hpoor hcomplete
  · exact h.step (h.kept.select hparsed hcomplete (not_searches hintent)) rfl fun _ => hpoor.2.1
  · exact h.step (h.kept.add hparsed (fun hc => absurd hc hcomplete) (not_searches hintent)) rfl fun _ => hpoor.2.1
  · exact h.widen _

/-- What is selected under a profile is complete. -/
theorem SelectsBest.complete_of_profile (h : SelectsBest C e) (hp : e.selectedProfile = some p) :
    e.selected.complete = true := by
  obtain ⟨a, -, hplus, hprofile⟩ := h.source
  rw [hplus.complete]
  by_contra hincomplete
  rw [hp, if_neg hincomplete] at hprofile
  cases hprofile

theorem recognize_escalated (h : Escalated C later e) (hintent : C.intent ≠ .evidence) :
    Escalated C (later ++ [.ocr]) (recognize C e) := by
  have hparsed := parsed_attempt (C := C) ⟨.ocr, none, none, none⟩
  unfold recognize
  cases e.attempts.getLast? with
  | none => exact h.widen _
  | some last =>
    dsimp only
    split_ifs with hpoor hbetter
    · exact h.step (h.kept.select hparsed hbetter.1 (not_searches hintent)) rfl nofun
    · exact h.step (h.kept.add hparsed (fun _ => h.kept.complete_of_profile hpoor.2.1) (not_searches hintent)) rfl nofun
    · exact h.widen _

/-! ## The result -/

/-- At most three attempts, each with a profile of its own. -/
def FewAttempts (e : Escalation F) : Prop := e.attempts.length ≤ 3 ∧ (e.attempts.map Attempt.profile).Nodup

theorem initialProfile_ne_ocr (C : ParseContext F) : C.initialProfile ≠ .ocr := by
  unfold ParseContext.initialProfile initialDocumentProfile
  dsimp only
  cases C.profile <;> dsimp only <;> split_ifs <;> decide

/-- The profiles behind the first one: no one is the first, and few are left where the first is not the fast one. -/
theorem Escalated.rest (h : Escalated C [.deep, .ocr] e) : ∃ rest,
    e.attempts.map Attempt.profile = C.initialProfile :: rest ∧ (C.initialProfile :: rest).Nodup ∧ .fast ∉ rest ∧
      rest.length ≤ 2 ∧ (C.initialProfile ≠ .fast → rest.length ≤ 1) := by
  obtain ⟨rest, hprofiles, hsub, hdeep⟩ := h.profiles
  have hmem : ∀ p ∈ rest, p = .deep ∨ p = .ocr := fun p hp => by simpa using hsub.subset hp
  refine ⟨rest, hprofiles, List.nodup_cons.2 ⟨fun hin => ?_, hsub.nodup (by decide)⟩, fun hfast => ?_, hsub.length_le,
    fun hne => ?_⟩
  · rcases hmem _ hin with hinitial | hinitial
    · rw [hinitial] at hin
      rw [hdeep hin] at hinitial
      cases hinitial
    · exact initialProfile_ne_ocr C hinitial
  · rcases hmem _ hfast with h | h <;> cases h
  · rcases List.sublist_cons_iff.1 hsub with hocr | ⟨rest', rfl, -⟩
    · exact hocr.length_le
    · exact absurd (hdeep List.mem_cons_self) hne

theorem Escalated.few (h : Escalated C [.deep, .ocr] e) : FewAttempts e := by
  obtain ⟨rest, hprofiles, hnodup, -, hlength, -⟩ := h.rest
  have hcount := congrArg List.length hprofiles
  rw [List.length_map, List.length_cons] at hcount
  exact ⟨by omega, hprofiles ▸ hnodup⟩

theorem fallBack_kept (h : Escalated C [.deep, .ocr] e) :
    SelectsBest C (fallBack C e) ∧ FewAttempts (fallBack C e) := by
  have hparsed := parsed_attempt (C := C) ⟨.fast, none, none, some C.view⟩
  by_cases hfail : ¬ e.selected.complete = true ∧ ¬ C.sourceFormat.isImage = true ∧
      C.initialProfile ∉ [.fast, .map, .ocrNative, .structureNative]
  · have hnone : ∀ query, C.itemsContainQuery e.selected.items query = false := fun _ =>
      not_contains_of_incomplete hfail.1
    have hfew : ∀ e' : Escalation F, e'.attempts = e.attempts ++ [C.attempt ⟨.fast, none, none, some C.view⟩] →
        FewAttempts e' := by
      intro e' hattempts
      obtain ⟨rest, hprofiles, hnodup, hfast, -, hlength⟩ := h.rest
      have hinitial : C.initialProfile ≠ .fast := fun heq => hfail.2.2 (heq ▸ List.mem_cons_self)
      have hcount := congrArg List.length hprofiles
      rw [List.length_map, List.length_cons] at hcount
      have hshort := hlength hinitial
      refine ⟨by rw [hattempts, List.length_append, List.length_singleton]; omega, ?_⟩
      rw [hattempts, List.map_append, hprofiles]
      refine List.nodup_append'.2 ⟨hnodup, List.nodup_singleton _, List.disjoint_singleton.2 fun hmem => ?_⟩
      rcases List.mem_cons.1 hmem with heq | hmem
      · exact hinitial heq.symm
      · exact hfast hmem
    unfold fallBack
    rw [if_pos hfail]
    dsimp only
    split_ifs with hcomplete
    · refine ⟨h.kept.select hparsed hcomplete fun query _ hcontains => ?_, hfew _ rfl⟩
      rw [hnone] at hcontains
      cases hcontains
    · refine ⟨h.kept.add hparsed (fun hc => absurd hc hcomplete) fun query _ hcontains => ?_, hfew _ rfl⟩
      rw [not_contains_of_incomplete hcomplete] at hcontains
      cases hcontains
  · unfold fallBack
    rw [if_neg hfail]
    exact ⟨h.kept, h.few⟩

/-- Where the first attempt fails, another one replaces it. -/
theorem replaceBy_kept (hauto : C.profile ≠ .auto) (hfirst : ¬ C.firstAttempt.observation.complete = true)
    (ha : Parsed C a) (hprofile : a.profile ≠ C.initialProfile) (reason warning : Text) :
    SelectsBest C (replaceBy (.begin C.firstAttempt) reason warning a) ∧
      FewAttempts (replaceBy (.begin C.firstAttempt) reason warning a) := by
  refine ⟨⟨fun b hb => ?_, ⟨a, List.mem_append_right _ (List.mem_singleton_self _),
    (PlusWarnings.refl _).addWarning warning, rfl⟩, fun b hb hcomplete => ?_,
    fun query hsearches => absurd hsearches.1 hauto⟩, Nat.le_succ 2, ?_⟩
  · exact (List.mem_append.1 hb).elim (kept_begin.parsed b) fun hb => List.mem_singleton.1 hb ▸ ha
  · rcases List.mem_append.1 hb with hb | hb
    · rw [List.mem_singleton.1 hb] at hcomplete
      exact absurd hcomplete hfirst
    · rwa [List.mem_singleton.1 hb] at hcomplete
  · exact List.nodup_cons.2 ⟨fun h => hprofile (List.mem_singleton.1 h).symm, List.nodup_singleton _⟩

theorem initialProfile_of_not_auto (h : C.profile ≠ .auto) :
    C.initialProfile = initialDocumentProfile C.sourceFormat C.profile C.view C.intent := by
  have hmap : ¬ C.streamingQueryMap = true := by
    unfold ParseContext.streamingQueryMap
    dsimp only
    rw [decide_eq_false h, Bool.false_and, Bool.false_and]
    exact Bool.false_ne_true
  have hscanned : ¬ C.scannedPdfRead = true := by
    have hprobe : C.probe = none := if_neg fun hlook => h hlook.2.1
    unfold ParseContext.scannedPdfRead
    rw [hprobe]
    exact Bool.false_ne_true
  unfold ParseContext.initialProfile
  rw [if_neg hscanned, if_neg hmap]

/-- The escalation comes to an end with the best of a few attempts, unless a page is asked for that has no match. -/
theorem escalate_kept : (∃ e, escalate C = .ok e ∧ SelectsBest C e ∧ FewAttempts e) ∨
    escalate C = .error evidencePageMismatch ∧ PageMissed C := by
  have hbegin : Escalated C [] (.begin C.firstAttempt) := escalated_begin
  have hone : FewAttempts (Escalation.begin C.firstAttempt) := ⟨show 1 ≤ 3 by decide, List.nodup_singleton _⟩
  unfold escalate
  cases hprofile : C.profile with
  | auto =>
    dsimp only
    by_cases hintent : C.intent = .evidence
    · rcases targetEvidence_escalated (C := C) with ⟨targeted, htargeted, hkept⟩ | ⟨hmismatch, hmissed⟩
      · obtain ⟨recognized, hrecognized, hkept'⟩ := recognizeEvidence_escalated hkept
        rw [htargeted, ok_bind_ok, hrecognized, ok_bind_ok, deepen_of_evidence hintent, recognize_of_evidence hintent]
        exact .inl ⟨_, rfl, fallBack_kept hkept'⟩
      · rw [hmismatch]
        exact .inr ⟨rfl, hmissed⟩
    · rw [targetEvidence_of_not_evidence hintent, ok_bind_ok, recognizeEvidence_of_not_evidence hintent, ok_bind_ok]
      exact .inl ⟨_, rfl, fallBack_kept (recognize_escalated (deepen_escalated hbegin hintent) hintent)⟩
  | deep =>
    have hauto : C.profile ≠ .auto := by rw [hprofile]; decide
    have hinitial : C.initialProfile = .deep := by rw [initialProfile_of_not_auto hauto, hprofile]; rfl
    dsimp only
    split_ifs with hfail
    · have hfirst : ¬ C.firstAttempt.observation.complete = true := by
        have hstatus : C.firstAttempt.observation.status = txt "PARSER_FAILED" ∨
          C.firstAttempt.observation.status = txt "UNAVAILABLE" := hfail.1
        unfold ParserObservation.complete
        rcases hstatus with h | h <;> rw [h] <;> decide
      exact .inl ⟨_, rfl, replaceBy_kept hauto hfirst (parsed_attempt _)
        (by rw [hinitial]; exact AttemptProfile.noConfusion) _ _⟩
    · exact .inl ⟨_, rfl, hbegin.kept, hone⟩
  | enriched =>
    have hauto : C.profile ≠ .auto := by rw [hprofile]; decide
    have hinitial : C.initialProfile = .enriched := by rw [initialProfile_of_not_auto hauto, hprofile]; rfl
    dsimp only
    split_ifs with hfail
    · exact .inl ⟨_, rfl, hbegin.kept, hone⟩
    · exact .inl ⟨_, rfl, replaceBy_kept hauto hfail (parsed_attempt _)
        (by rw [hinitial]; exact AttemptProfile.noConfusion) _ _⟩
  | fast => exact .inl ⟨_, rfl, hbegin.kept, hone⟩

end

/-- What is published, read against the attempts. -/
structure KeepsAnswer (C : ParseContext F) (e : Escalation F)
    (result : ParserObservation F × DocumentExecutionTrace ContainerId) : Prop where
  /-- Every attempt is what a parser returned. -/
  parsed : ∀ a ∈ e.attempts, Parsed C a
  attempts : result.2.attempts = e.attempts.map C.executionAttempt
  few : e.attempts.length ≤ 3
  distinct : (e.attempts.map Attempt.profile).Nodup
  source : ∃ a ∈ e.attempts, PlusWarnings a.observation result.1 ∧
    (result.1.complete = true → result.2.selectedProfile = some a.profile)
  complete : result.1.complete = true ↔ ∃ a ∈ e.attempts, a.observation.complete = true
  absent : result.2.selectedProfile = none ↔ ∀ a ∈ e.attempts, ¬ a.observation.complete = true
  retained : C.profile = .auto → C.intent = .evidence → ∀ query, C.query = some query →
    (C.itemsContainQuery result.1.items query = true ↔ ∃ a ∈ e.attempts, a.observation.complete = true ∧
      C.itemsContainQuery a.observation.items query = true)

theorem keepsAnswer_of_kept {C : ParseContext F} {e : Escalation F} (h : SelectsBest C e) (hfew : FewAttempts e) :
    KeepsAnswer C e (published C e) := by
  obtain ⟨a, ha, hplus, hprofile⟩ := h.source
  have hpublished : PlusWarnings a.observation (published C e).1 := by
    unfold published
    dsimp only
    split_ifs
    · exact hplus
    · exact hplus.addWarning _
  have hsame : (published C e).1.complete = e.selected.complete := by rw [hpublished.complete, hplus.complete]
  have hitems : (published C e).1.items = e.selected.items := by rw [hpublished.items, hplus.items]
  have hcomplete : (published C e).1.complete = true ↔ ∃ b ∈ e.attempts, b.observation.complete = true := by
    refine ⟨fun hc => ⟨a, ha, by rwa [← hpublished.complete]⟩, fun ⟨b, hb, hc⟩ => ?_⟩
    rw [hsame]
    exact h.complete b hb hc
  have hselected : (published C e).2.selectedProfile = if a.observation.complete then some a.profile else none :=
    hprofile
  refine ⟨h.parsed, rfl, hfew.1, hfew.2, ⟨a, ha, hpublished, fun hc => ?_⟩, hcomplete, ?_,
    fun hauto hintent query hquery => ?_⟩
  · rw [hselected, ← hpublished.complete, if_pos hc]
  · rw [hselected, ← hpublished.complete]
    by_cases hc : (published C e).1.complete = true
    · rw [if_pos hc]
      refine iff_of_false (Option.some_ne_none _) fun hnone => ?_
      obtain ⟨b, hb, hb'⟩ := hcomplete.1 hc
      exact hnone b hb hb'
    · rw [if_neg hc]
      exact iff_of_true rfl fun b hb hb' => hc (hcomplete.2 ⟨b, hb, hb'⟩)
  · rw [hitems]
    refine ⟨fun hcontains => ⟨a, ha, ?_, by rwa [← hplus.items]⟩, fun ⟨b, hb, _, hcontains⟩ =>
      h.retained query ⟨hauto, hintent, hquery⟩ b hb hcontains⟩
    by_contra hincomplete
    rw [← hplus.complete] at hincomplete
    rw [not_contains_of_incomplete hincomplete] at hcontains
    cases hcontains

end Steward.Documents
