import Steward.Routing.Publication

/-!
# Fact blocks read back

`readFactBlock` reads a fact block the way Markdown delimits it. It returns the
facts of a rendered payload unless a JSON pointer can end its code span or its
line; then no reader can.
-/

namespace Steward

open Py Lines

/-! ## Reading a line -/

def readEnd (s : Text) : Option Unit := if s = [] then some () else none

/-- A JSON string and nothing after it. -/
def readQuoted : Text → Option Text
  | [] => none
  | c :: s => if c = ch '"' then (Json.parseBody (s.length + 1) s).bind fun r =>
      if r.2 = [] then some r.1 else none
    else none

/-- An integer and nothing after it. -/
def readCount (s : Text) : Option Int :=
  (Text.scanNumber s).bind fun r => if r.2 = [] then some r.1.toInt else none

/-- A label and the code span after it, which ends the line. -/
def readField (label : Text) (line : Text) : Option Text := do
  let s ← Json.literal label line
  let value ← readSpan s
  readEnd value.2
  pure value.1

def readNamed {α : Type} [Named α] (label : Text) (line : Text) : Option α :=
  (readField label line).bind Named.ofName?

def readFact (line : Text) : Option PublicationFact := do
  let s ← Json.literal (txt "- ") line
  let key ← readSpan s
  let s ← Json.literal (txt ": ") key.2
  let value ← readQuoted s
  pure ⟨key.1, value⟩

def readSource (line : Text) : Option PublicationSourceProvenance := do
  let s ← Json.literal (txt "- Snapshot ") line
  let snapshotId ← readSpan s
  let s ← Json.literal (txt "; digest ") snapshotId.2
  let snapshotDigest ← readSpan s
  let s ← Json.literal (txt "; persistent Run ") snapshotDigest.2
  let persistentRunId ← readSpan s
  let evidenceId ← readField (txt "; Evidence ") persistentRunId.2
  pure ⟨snapshotId.1, snapshotDigest.1, persistentRunId.1, evidenceId⟩

def readExactInteger (line : Text) : Option PublicationExactInteger := do
  let s ← Json.literal (txt "- ") line
  let jsonPointer ← readSpan s
  let decimalValue ← readField (txt ": ") jsonPointer.2
  pure ⟨jsonPointer.1, decimalValue⟩

def readAccounting (line : Text) : Option PublicationAccounting := do
  let s ← Json.literal (txt "- ") line
  let category ← readSpan s
  let s ← Json.literal (txt ": ") category.2
  let count ← readCount s
  pure ⟨category.1, count⟩

def readBoundary (line : Text) : Option AuthorityBoundary := readNamed (txt "- ") line

def readMessage (line : Text) : Option Text := (Json.literal (txt "- Message: ") line).bind readQuoted

/-! ## Reading a block -/

def readListed {α : Type} (read : Text → Option α) (ls : List Text) : Option (List α) :=
  if ls = [noneLine] then some [] else ls.mapM read

/-- A heading, the lines under it, and the paragraphs that follow. -/
def readSection {α : Type} (heading : Text) (read : Text → Option α) :
    List (List Text) → Option (List α × List (List Text))
  | title :: ls :: ps => if title = [heading] then (readListed read ls).map (·, ps) else none
  | _ => none

def readTypedError : PublicationStatus → List (List Text) →
    Option (Option PublicationTypedError × List (List Text))
  | .ok, ps => some (none, ps)
  | .error, [title] :: [code, message] :: ps =>
    if title = txt "### Typed error" then do
      let code ← readField (txt "- Code: ") code
      let message ← readMessage message
      pure (some ⟨code, message⟩, ps)
    else none
  | .error, _ => none

/-- The sections of the block after its head. -/
def readSections (routeDecision : RouteDecision) (operationKind : OperationKind) (operationIdentity : Text)
    (status : PublicationStatus) (ps : List (List Text)) : Option PublicationPayload := do
  let error ← readTypedError status ps
  let facts ← readSection (txt "### Deterministic facts") readFact error.2
  let sources ← readSection (txt "### Source provenance") readSource facts.2
  let exact ← readSection (txt "### Exact integer encoding") readExactInteger sources.2
  let included ← readSection (txt "### Inclusion accounting") readAccounting exact.2
  let omitted ← readSection (txt "### Omission accounting") readAccounting included.2
  let boundaries ← readSection (txt "### Authority boundary") readBoundary omitted.2
  if boundaries.2 = [[]] then
    some ⟨routeDecision, operationIdentity, operationKind, status, error.1, facts.1, sources.1, exact.1,
      included.1, omitted.1, boundaries.1⟩
  else none

def readFactBlock (block : Text) : Option PublicationPayload :=
  match paragraphs (lines block) with
  | [title] :: [decision, kind, identity, status] :: ps =>
    if title = txt "## STEWARD Deterministic Fact Block" then do
      let decision ← readNamed (txt "- Route decision: ") decision
      let kind ← readNamed (txt "- Operation kind: ") kind
      let identity ← readField (txt "- Operation identity: ") identity
      let status ← readNamed (txt "- Status: ") status
      readSections decision kind identity status ps
    else none
  | _ => none

/-! ## Quoted values -/

/-- The four characters that `_quoted` escapes beyond JSON. -/
def isMarkup (c : CodePoint) : Bool := c = backtick || c = ch '<' || c = ch '>' || c = ch '&'

def escapeMarkup (t : Text) : Text :=
  replaceChar (ch '&') (txt "\\u0026") (replaceChar (ch '>') (txt "\\u003e") (replaceChar (ch '<') (txt "\\u003c")
    (replaceChar backtick (txt "\\u0060") t)))

def quotedPoint (c : CodePoint) : Text := escapeMarkup (Json.escapePoint false c)

theorem replaceChar_append (c : CodePoint) (u s t : Text) :
    replaceChar c u (s ++ t) = replaceChar c u s ++ replaceChar c u t := List.flatMap_append

theorem escapeMarkup_append (s t : Text) : escapeMarkup (s ++ t) = escapeMarkup s ++ escapeMarkup t := by
  simp only [escapeMarkup, replaceChar_append]

theorem replaceChar_of_not_mem {c : CodePoint} {u t : Text} (h : c ∉ t) : replaceChar c u t = t := by
  induction t with
  | nil => rfl
  | cons x t ih =>
    rw [List.mem_cons, not_or] at h
    rw [replaceChar, List.flatMap_cons, if_neg (Ne.symm h.1)]
    exact congrArg (x :: ·) (ih h.2)

theorem escapeMarkup_of_none {t : Text} (h : ∀ c ∈ t, isMarkup c = false) : escapeMarkup t = t := by
  have habsent {c : CodePoint} (hc : isMarkup c = true) : c ∉ t := fun hmem => by
    rw [h c hmem] at hc
    cases hc
  rw [escapeMarkup, replaceChar_of_not_mem (habsent rfl), replaceChar_of_not_mem (habsent rfl),
    replaceChar_of_not_mem (habsent rfl), replaceChar_of_not_mem (habsent rfl)]

theorem escapeMarkup_flatMap (f : CodePoint → Text) (s : Text) :
    escapeMarkup (s.flatMap f) = s.flatMap fun c => escapeMarkup (f c) := by
  induction s with
  | nil => rfl
  | cons c s ih => rw [List.flatMap_cons, List.flatMap_cons, escapeMarkup_append, ih]

theorem quoted_eq (value : Text) : quoted value = ch '"' :: (value.flatMap quotedPoint ++ [ch '"']) := by
  have hquote : escapeMarkup [ch '"'] = [ch '"'] := by decide
  have happ : Json.quote ⟨false, false⟩ value =
      [ch '"'] ++ (value.flatMap (Json.escapePoint false) ++ [ch '"']) := rfl
  show escapeMarkup (Json.quote ⟨false, false⟩ value) = _
  rw [happ, escapeMarkup_append, escapeMarkup_append, escapeMarkup_flatMap, hquote]
  rfl

theorem hexDigit_plain (n : Nat) : 48 ≤ (Json.hexDigit n).val ∧ isMarkup (Json.hexDigit n) = false := by
  have hlt := Nat.mod_lt n (by decide : 16 > 0)
  have hmarks : isMarkup (Json.hexDigit n) = true → (Json.hexDigit n).val ∈ [0x60, 60, 62, 38] := by
    simp only [isMarkup, Bool.or_eq_true, decide_eq_true_eq]
    rintro (((h | h) | h) | h) <;> rw [h] <;> decide
  have hval : 48 ≤ (Json.hexDigit n).val ∧ (Json.hexDigit n).val ≤ 57 ∨
      97 ≤ (Json.hexDigit n).val ∧ (Json.hexDigit n).val ≤ 102 := by
    rw [Json.hexDigit]
    split_ifs <;> simp only <;> omega
  refine ⟨by omega, Bool.eq_false_iff.2 fun h => ?_⟩
  have hmem := hmarks h
  simp only [List.mem_cons, List.not_mem_nil, or_false] at hmem
  omega

theorem unicodeEscape_graphic (n : Nat) :
    ((Json.unicodeEscape n).all fun x => 32 ≤ x.val && !isMarkup x) = true := by
  have hhex (n : Nat) : (decide (32 ≤ (Json.hexDigit n).val) && !isMarkup (Json.hexDigit n)) = true := by
    have h := hexDigit_plain n
    rw [h.2, decide_eq_true (by omega)]
    rfl
  rw [Json.unicodeEscape, List.all_cons, List.all_cons, List.all_cons, List.all_cons, List.all_cons, List.all_cons,
    hhex, hhex, hhex, hhex]
  decide

/-- Printable, and markup only where `c` is. -/
def Graphic (c : CodePoint) (s : Text) : Prop := ∀ x ∈ s, 32 ≤ x.val ∧ (isMarkup x = true → isMarkup c = true)

theorem graphic_of_all {c : CodePoint} {s : Text} (hs : (s.all fun x => 32 ≤ x.val && !isMarkup x) = true) :
    Graphic c s := by
  intro x hx
  have h := List.all_eq_true.1 hs x hx
  simp only [Bool.and_eq_true, decide_eq_true_eq, Bool.not_eq_true'] at h
  exact ⟨h.1, fun hmark => by rw [h.2] at hmark; cases hmark⟩

/-- A JSON escape is printable and free of markup; a character printed as itself is what it is. -/
theorem escapePoint_graphic (c : CodePoint) : Graphic c (Json.escapePoint false c) := by
  unfold Json.escapePoint
  iterate 7 refine iteInduction (fun _ => graphic_of_all (by decide)) fun _ => ?_
  refine iteInduction (fun _ => graphic_of_all (unicodeEscape_graphic _)) fun hlow => ?_
  rw [if_neg fun h => absurd h.1 Bool.false_ne_true]
  intro x hx
  rw [List.mem_singleton.1 hx]
  exact ⟨Nat.not_lt.1 hlow, id⟩

theorem quotedPoint_of_markup {c : CodePoint} (h : isMarkup c = true) :
    quotedPoint c = Json.unicodeEscape c.val := by
  simp only [isMarkup, Bool.or_eq_true, decide_eq_true_eq] at h
  rcases h with ((rfl | rfl) | rfl) | rfl <;> decide

theorem quotedPoint_of_not_markup {c : CodePoint} (h : isMarkup c = false) :
    quotedPoint c = Json.escapePoint false c :=
  escapeMarkup_of_none fun x hx => Bool.eq_false_iff.2 fun hmark => by
    rw [(escapePoint_graphic c x hx).2 hmark] at h
    cases h

theorem prints_quotedPoint {c : CodePoint} (h : Text.isSurrogate c = false) : Json.Prints (quotedPoint c) c := by
  by_cases hmark : isMarkup c = true
  · have hsmall : c.val < 128 := by
      simp only [isMarkup, Bool.or_eq_true, decide_eq_true_eq] at hmark
      rcases hmark with ((rfl | rfl) | rfl) | rfl <;> decide
    rw [quotedPoint_of_markup hmark]
    refine .inr ⟨_, Json.unicodeEscape_eq _, fun s => ?_⟩
    rw [Json.scanEscape_unicode (by omega) (by omega), Json.point_val]
  · rw [quotedPoint_of_not_markup (Bool.eq_false_iff.2 hmark)]
    exact Json.prints_escapePoint false h

theorem quotedPoint_graphic (c : CodePoint) : ∀ x ∈ quotedPoint c, 32 ≤ x.val ∧ isMarkup x = false := by
  intro x hx
  by_cases hmark : isMarkup c = true
  · have hall : (quotedPoint c).all (fun x => 32 ≤ x.val && !isMarkup x) = true := by
      simp only [isMarkup, Bool.or_eq_true, decide_eq_true_eq] at hmark
      rcases hmark with ((rfl | rfl) | rfl) | rfl <;> decide
    simpa using List.all_eq_true.1 hall x hx
  · rw [quotedPoint_of_not_markup (Bool.eq_false_iff.2 hmark)] at hx
    obtain ⟨hgraphic, hsame⟩ := escapePoint_graphic c x hx
    exact ⟨hgraphic, Bool.eq_false_iff.2 fun h => hmark (hsame h)⟩

/-- No value closes a code span or ends a line. -/
theorem plain_quoted (value : Text) : plain (quoted value) = true := by
  have hquote : 32 ≤ (ch '"').val ∧ ch '"' ≠ backtick := by decide
  rw [quoted_eq]
  refine plain_of_graphic (List.forall_mem_cons.2 ⟨hquote, fun c hc => ?_⟩)
  rcases List.mem_append.1 hc with hc | hc
  · obtain ⟨x, -, hx⟩ := List.mem_flatMap.1 hc
    obtain ⟨hgraphic, hmark⟩ := quotedPoint_graphic x c hx
    exact ⟨hgraphic, fun heq => by rw [heq] at hmark; exact absurd hmark (by decide)⟩
  · rw [List.mem_singleton.1 hc]
    exact hquote

theorem readQuoted_quoted {value : Text} (h : value.encodable = true) : readQuoted (quoted value) = some value := by
  have hprints : ∀ c ∈ value, Json.Prints (quotedPoint c) c := fun c hc =>
    prints_quotedPoint (by simpa using List.all_eq_true.1 h c hc)
  have hlength : value.length < (value.flatMap quotedPoint ++ [ch '"']).length + 1 := by
    have hne : ∀ c ∈ value, quotedPoint c ≠ [] := fun c hc => by
      rcases hprints c hc with ⟨heq, -⟩ | ⟨t, heq, -⟩ <;> rw [heq] <;> exact List.cons_ne_nil _ _
    have hle := Json.length_le_flatMap hne
    rw [List.length_append]
    omega
  rw [quoted_eq, readQuoted, if_pos rfl, Json.parseBody_flatMap hprints [] hlength]
  rfl

/-! ## Lines read back -/

theorem readField_codeSpan {label value : Text} (h : plain value = true) :
    readField label (label ++ codeSpan value) = some value := by
  have hspan := readSpan_codeSpan (plain_iff.1 h).1 []
  rw [List.append_nil] at hspan
  rw [readField, Json.literal_self, Option.bind_eq_bind, Option.bind_some, hspan]
  rfl

theorem plain_name {α : Type} [Named α] (h : ∀ a : α, plain (Named.name a) = true) (label : Text) (a : α) :
    readNamed label (label ++ codeSpan (Named.name a)) = some a := by
  rw [readNamed, readField_codeSpan (h a), Option.bind_some, Named.ofName?_name]

theorem readFact_factLine {item : PublicationFact} (hkey : plain item.key = true)
    (hvalue : item.value.encodable = true) : readFact (factLine item) = some item := by
  rw [readFact, factLine]
  simp only [List.append_assoc, Json.literal_self, Option.bind_eq_bind, Option.bind_some,
    readSpan_codeSpan (plain_iff.1 hkey).1, readQuoted_quoted hvalue]
  rfl

theorem readSource_sourceLine {item : PublicationSourceProvenance} (hsnapshot : plain item.snapshotId = true)
    (hdigest : plain item.snapshotDigest = true) (hrun : plain item.persistentRunId = true)
    (hevidence : plain item.evidenceId = true) : readSource (sourceLine item) = some item := by
  rw [readSource, sourceLine]
  simp only [List.append_assoc, Json.literal_self, Option.bind_eq_bind, Option.bind_some,
    readSpan_codeSpan (plain_iff.1 hsnapshot).1, readSpan_codeSpan (plain_iff.1 hdigest).1,
    readSpan_codeSpan (plain_iff.1 hrun).1, readField_codeSpan hevidence]
  rfl

theorem readExactInteger_exactIntegerLine {item : PublicationExactInteger} (hpointer : plain item.jsonPointer = true)
    (hdecimal : plain item.decimalValue = true) : readExactInteger (exactIntegerLine item) = some item := by
  rw [readExactInteger, exactIntegerLine]
  simp only [List.append_assoc, Json.literal_self, Option.bind_eq_bind, Option.bind_some,
    readSpan_codeSpan (plain_iff.1 hpointer).1, readField_codeSpan hdecimal]
  rfl

theorem readCount_ofInt (n : Int) : readCount (Text.ofInt n) = some n := by
  obtain ⟨number, hscan, -, hvalue⟩ := Text.scanNumber_ofInt n
  rw [readCount, hscan, Option.bind_some, if_pos rfl, hvalue]

theorem readAccounting_accountingLine {item : PublicationAccounting} (hcategory : plain item.category = true) :
    readAccounting (accountingLine item) = some item := by
  rw [readAccounting, accountingLine]
  simp only [List.append_assoc, Json.literal_self, Option.bind_eq_bind, Option.bind_some,
    readSpan_codeSpan (plain_iff.1 hcategory).1, readCount_ofInt]
  rfl

theorem plain_boundary (item : AuthorityBoundary) : plain (Named.name item) = true := by
  revert item
  decide +kernel

theorem readBoundary_boundaryLine (item : AuthorityBoundary) : readBoundary (boundaryLine item) = some item :=
  plain_name plain_boundary (txt "- ") item

theorem readListed_listed {α : Type} {read : Text → Option α} (line : α → Text) (items : List α)
    (h : ∀ item ∈ items, read (line item) = some item) (hnone : read noneLine = none) :
    readListed read (listed line items) = some items := by
  cases items with
  | nil => rfl
  | cons item items =>
    have hlisted : listed line (item :: items) = (item :: items).map line := by simp [listed]
    have hne : (item :: items).map line ≠ [noneLine] := fun heq => by
      have hline : line item = noneLine := by simpa using (List.cons.inj heq).1
      have hread := h item List.mem_cons_self
      rw [hline, hnone] at hread
      cases hread
    rw [hlisted, readListed, if_neg hne]
    exact mapM_map_eq_some h

/-! ## Blocks read back -/

def headLines (payload : PublicationPayload) : List Text :=
  [txt "- Route decision: " ++ codeSpan (Named.name payload.routeDecision),
    txt "- Operation kind: " ++ codeSpan (Named.name payload.operationKind),
    txt "- Operation identity: " ++ codeSpan payload.operationIdentity,
    txt "- Status: " ++ codeSpan (Named.name payload.status)]

/-- The paragraphs of the sections, which are ordered already. -/
def sectionParagraphs (payload : PublicationPayload) : List (List Text) :=
  [[txt "### Deterministic facts"], listed factLine payload.deterministicFacts,
    [txt "### Source provenance"], listed sourceLine payload.sourceProvenance,
    [txt "### Exact integer encoding"], listed exactIntegerLine payload.exactIntegerEncoding,
    [txt "### Inclusion accounting"], listed accountingLine payload.inclusionAccounting,
    [txt "### Omission accounting"], listed accountingLine payload.omissionAccounting,
    [txt "### Authority boundary"], listed boundaryLine payload.authorityBoundary, []]

def errorParagraphs (error : PublicationTypedError) : List (List Text) :=
  [[txt "### Typed error"],
    [txt "- Code: " ++ codeSpan error.code, txt "- Message: " ++ quoted error.message]]

def blockParagraphs (payload : PublicationPayload) (error : List (List Text)) : List (List Text) :=
  [txt "## STEWARD Deterministic Fact Block"] :: headLines payload :: (error ++ sectionParagraphs payload)

theorem listed_of_ne_nil {α : Type} {line : α → Text} {items : List α} (h : items ≠ []) :
    listed line items = items.map line := by
  cases items with
  | nil => exact absurd rfl h
  | cons item items => simp [listed]

variable {payload : PublicationPayload}

theorem factBlockLines_eq (h : payload.Admitted) :
    factBlockLines payload [] = [[]].intercalate (blockParagraphs payload.ordered []) := by
  have hboundaries : payload.ordered.authorityBoundary ≠ [] := fun hnil => h.boundaries (sortedBy_eq_nil.1 hnil)
  simp only [blockParagraphs, sectionParagraphs, headLines, List.nil_append, List.cons_append,
    List.intercalate_cons_cons, List.intercalate_singleton, listed_of_ne_nil hboundaries, factBlockLines,
    List.append_assoc]
  rfl

theorem factBlockLines_error_eq (h : payload.Admitted) (error : PublicationTypedError) :
    factBlockLines payload (typedErrorLines error) =
      [[]].intercalate (blockParagraphs payload.ordered (errorParagraphs error)) := by
  have hboundaries : payload.ordered.authorityBoundary ≠ [] := fun hnil => h.boundaries (sortedBy_eq_nil.1 hnil)
  simp only [blockParagraphs, sectionParagraphs, headLines, errorParagraphs, List.nil_append, List.cons_append,
    List.intercalate_cons_cons, List.intercalate_singleton, listed_of_ne_nil hboundaries, factBlockLines,
    typedErrorLines, List.append_assoc]
  rfl

/-- A line that can stand in a paragraph: not empty, and one line. -/
def Solid (l : Text) : Prop := l ≠ [] ∧ ∀ c ∈ l, isLineEnd c = false

theorem solid_append {label rest : Text} (hlabel : Solid label) (hrest : oneLine rest = true) :
    Solid (label ++ rest) :=
  ⟨fun h => hlabel.1 (List.append_eq_nil_iff.1 h).1, fun c hc => (List.mem_append.1 hc).elim (hlabel.2 c)
    (oneLine_iff.1 hrest c)⟩

theorem solid_txt {label : Text} (h : (decide (label ≠ []) && oneLine label) = true) : Solid label := by
  rw [Bool.and_eq_true] at h
  exact ⟨of_decide_eq_true h.1, oneLine_iff.1 h.2⟩

theorem solid_field {label value : Text} (hlabel : (decide (label ≠ []) && oneLine label) = true)
    (h : plain value = true) : Solid (label ++ codeSpan value) :=
  solid_append (solid_txt hlabel) (by rw [oneLine_codeSpan]; exact (plain_iff.1 h).2)

theorem solid_listed {α : Type} {line : α → Text} {items : List α} (h : ∀ item ∈ items, Solid (line item)) :
    ∀ l ∈ listed line items, Solid l := by
  intro l hl
  rcases List.mem_append.1 hl with hl | hl
  · obtain ⟨item, hitem, rfl⟩ := List.mem_map.1 hl
    exact h item hitem
  · split_ifs at hl
    · rw [List.mem_singleton.1 hl]
      exact solid_txt (by decide)
    · cases hl

theorem solid_factLine {item : PublicationFact} (h : plain item.key = true) : Solid (factLine item) := by
  rw [factLine, List.append_assoc, List.append_assoc]
  refine solid_append (solid_txt (by decide)) ?_
  simp only [oneLine_append, oneLine_codeSpan, (plain_iff.1 h).2, (plain_iff.1 (plain_quoted item.value)).2]
  rfl

theorem solid_sourceLine {item : PublicationSourceProvenance} (hsnapshot : plain item.snapshotId = true)
    (hdigest : plain item.snapshotDigest = true) (hrun : plain item.persistentRunId = true)
    (hevidence : plain item.evidenceId = true) : Solid (sourceLine item) := by
  simp only [sourceLine, List.append_assoc]
  refine solid_append (solid_txt (by decide)) ?_
  simp only [oneLine_append, oneLine_codeSpan, (plain_iff.1 hsnapshot).2, (plain_iff.1 hdigest).2,
    (plain_iff.1 hrun).2, (plain_iff.1 hevidence).2]
  decide

theorem solid_exactIntegerLine {item : PublicationExactInteger} (hpointer : plain item.jsonPointer = true)
    (hdecimal : plain item.decimalValue = true) : Solid (exactIntegerLine item) := by
  simp only [exactIntegerLine, List.append_assoc]
  refine solid_append (solid_txt (by decide)) ?_
  simp only [oneLine_append, oneLine_codeSpan, (plain_iff.1 hpointer).2, (plain_iff.1 hdecimal).2]
  decide

theorem solid_accountingLine {item : PublicationAccounting} (h : plain item.category = true) :
    Solid (accountingLine item) := by
  simp only [accountingLine, List.append_assoc]
  refine solid_append (solid_txt (by decide)) ?_
  simp only [oneLine_append, oneLine_codeSpan, (plain_iff.1 h).2, oneLine_ofInt]
  decide

theorem plain_decision (decision : RouteDecision) : plain (Named.name decision) = true := by
  revert decision
  decide

theorem plain_operation (operation : OperationKind) : plain (Named.name operation) = true := by
  revert operation
  decide

theorem plain_status (status : PublicationStatus) : plain (Named.name status) = true := by
  revert status
  decide

/-- No JSON pointer of the payload closes its code span or ends its line. -/
def PublicationPayload.PointersPlain (payload : PublicationPayload) : Prop :=
  ∀ item ∈ payload.exactIntegerEncoding, plain item.jsonPointer = true

theorem solid_title {t : Text} (h : (decide (t ≠ []) && oneLine t) = true) :
    Solid t ∧ ∀ l ∈ ([] : List Text), Solid l :=
  ⟨solid_txt h, fun _ hl => absurd hl List.not_mem_nil⟩

theorem solid_sectionParagraphs (h : payload.Admitted) (hpointers : payload.PointersPlain) :
    ∀ p ∈ sectionParagraphs payload, ∀ l ∈ p, Solid l := by
  simp only [sectionParagraphs, List.forall_mem_cons]
  refine ⟨solid_title (by decide), solid_listed fun item hitem => solid_factLine (h.facts item hitem).1,
    solid_title (by decide), solid_listed fun item hitem => ?_,
    solid_title (by decide), solid_listed fun item hitem => solid_exactIntegerLine (hpointers item hitem)
      (h.decimals item hitem),
    solid_title (by decide), solid_listed fun item hitem => solid_accountingLine (h.included item hitem),
    solid_title (by decide), solid_listed fun item hitem => solid_accountingLine (h.omitted item hitem),
    solid_title (by decide), solid_listed fun item _ => solid_field (by decide) (plain_boundary item), ?_⟩
  · obtain ⟨hsnapshot, hdigest, hrun, hevidence⟩ := h.sources item hitem
    exact solid_sourceLine hsnapshot hdigest hrun hevidence
  · exact ⟨fun l hl => absurd hl List.not_mem_nil, fun p hp => absurd hp List.not_mem_nil⟩

theorem solid_blockParagraphs (h : payload.Admitted) (hpointers : payload.PointersPlain) {error : List (List Text)}
    (herror : ∀ p ∈ error, ∀ l ∈ p, Solid l) : ∀ p ∈ blockParagraphs payload error, ∀ l ∈ p, Solid l := by
  have htitle : ∀ l ∈ [txt "## STEWARD Deterministic Fact Block"], Solid l :=
    List.forall_mem_cons.2 (solid_title (by decide))
  have hhead : ∀ l ∈ headLines payload, Solid l := by
    simp only [headLines, List.forall_mem_cons]
    exact ⟨solid_field (by decide) (plain_decision _), solid_field (by decide) (plain_operation _),
      solid_field (by decide) h.identity, solid_field (by decide) (plain_status _),
      fun l hl => absurd hl List.not_mem_nil⟩
  exact List.forall_mem_cons.2 ⟨htitle, List.forall_mem_cons.2 ⟨hhead,
    List.forall_mem_append.2 ⟨herror, solid_sectionParagraphs h hpointers⟩⟩⟩

theorem solid_errorParagraphs {error : PublicationTypedError} (h : plain error.code = true) :
    ∀ p ∈ errorParagraphs error, ∀ l ∈ p, Solid l := by
  simp only [errorParagraphs, List.forall_mem_cons]
  exact ⟨solid_title (by decide), ⟨solid_field (by decide) h, solid_append (solid_txt (by decide)) (plain_iff.1 (plain_quoted _)).2,
      fun l hl => absurd hl List.not_mem_nil⟩, fun p hp => absurd hp List.not_mem_nil⟩

/-! ### The sections -/

theorem readSection_cons {α : Type} {heading : Text} {read : Text → Option α} {ls : List Text} {items : List α}
    (h : readListed read ls = some items) (ps : List (List Text)) :
    readSection heading read ([heading] :: ls :: ps) = some (items, ps) := by
  rw [readSection, if_pos rfl, h]
  rfl

theorem readSections_sectionParagraphs (h : payload.Admitted) (hpointers : payload.PointersPlain)
    {ps : List (List Text)}
    (herror : readTypedError payload.status ps = some (payload.typedError, sectionParagraphs payload)) :
    readSections payload.routeDecision payload.operationKind payload.operationIdentity payload.status ps =
      some payload := by
  have hfacts := readListed_listed factLine payload.deterministicFacts
    (fun item hitem => readFact_factLine (h.facts item hitem).1 (h.facts item hitem).2) (by decide)
  have hsources := readListed_listed sourceLine payload.sourceProvenance
    (fun item hitem => by
      obtain ⟨hsnapshot, hdigest, hrun, hevidence⟩ := h.sources item hitem
      exact readSource_sourceLine hsnapshot hdigest hrun hevidence) (by decide)
  have hexact := readListed_listed exactIntegerLine payload.exactIntegerEncoding
    (fun item hitem => readExactInteger_exactIntegerLine (hpointers item hitem) (h.decimals item hitem)) (by decide)
  have hincluded := readListed_listed accountingLine payload.inclusionAccounting
    (fun item hitem => readAccounting_accountingLine (h.included item hitem)) (by decide)
  have homitted := readListed_listed accountingLine payload.omissionAccounting
    (fun item hitem => readAccounting_accountingLine (h.omitted item hitem)) (by decide)
  have hboundaries := readListed_listed boundaryLine payload.authorityBoundary
    (fun item _ => readBoundary_boundaryLine item) (by decide)
  rw [readSections, herror]
  simp only [Option.bind_eq_bind, Option.bind_some, sectionParagraphs, readSection_cons hfacts,
    readSection_cons hsources, readSection_cons hexact, readSection_cons hincluded, readSection_cons homitted,
    readSection_cons hboundaries]
  rfl

theorem readFactBlock_blockParagraphs (h : payload.Admitted) (hpointers : payload.PointersPlain)
    {error : List (List Text)} (hsolid : ∀ p ∈ error, ∀ l ∈ p, Solid l)
    (herror : readTypedError payload.status (error ++ sectionParagraphs payload) =
      some (payload.typedError, sectionParagraphs payload)) :
    readFactBlock (joinLines ([[]].intercalate (blockParagraphs payload error))) = some payload := by
  have hne : [[]].intercalate (blockParagraphs payload error) ≠ [] := fun h => by
    rw [blockParagraphs, List.intercalate_cons_cons] at h
    cases h
  have hread := readSections_sectionParagraphs h hpointers herror
  rw [readFactBlock, paragraphs_lines hne (solid_blockParagraphs h hpointers hsolid), blockParagraphs, headLines]
  simp only [if_pos, plain_name plain_decision, plain_name plain_operation, plain_name plain_status,
    readField_codeSpan h.identity, Option.bind_eq_bind, Option.bind_some, hread]

theorem readTypedError_errorParagraphs {error : PublicationTypedError} (hcode : plain error.code = true)
    (hmessage : error.message.encodable = true) (ps : List (List Text)) :
    readTypedError .error (errorParagraphs error ++ ps) = some (some error, ps) := by
  rw [errorParagraphs, List.cons_append, List.cons_append, List.nil_append, readTypedError, if_pos rfl,
    readField_codeSpan hcode, readMessage, Json.literal_self]
  simp only [Option.bind_eq_bind, Option.bind_some, readQuoted_quoted hmessage]
  rfl

theorem PublicationPayload.Admitted.ordered (h : payload.Admitted) : payload.ordered.Admitted where
  identity := h.identity
  facts item hitem := h.facts item (mem_sortedBy.1 hitem)
  sources := h.sources
  decimals item hitem := h.decimals item (mem_sortedBy.1 hitem)
  included item hitem := h.included item (mem_sortedBy.1 hitem)
  omitted item hitem := h.omitted item (mem_sortedBy.1 hitem)
  boundaries hnil := h.boundaries (sortedBy_eq_nil.1 hnil)
  error := h.error
  noError := h.noError

/-- A payload whose pointers are plain is read back from its block. -/
theorem readFactBlock_of_plain {block : Text} (h : renderPublicationFactBlock payload = .ok block)
    (hpointers : payload.PointersPlain) : readFactBlock block = some payload.ordered := by
  obtain ⟨hadmitted, hblock⟩ := renderPublicationFactBlock_eq_ok h
  have hordered : payload.ordered.PointersPlain := fun item hitem => hpointers item (mem_sortedBy.1 hitem)
  rcases hblock with ⟨hok, hblock⟩ | ⟨error, herror, hsome, hblock⟩
  · rw [hblock, factBlockLines_eq hadmitted]
    refine readFactBlock_blockParagraphs hadmitted.ordered hordered (fun p hp => absurd hp List.not_mem_nil) ?_
    have hnone := hadmitted.noError hok
    show readTypedError payload.status _ = some (payload.typedError, _)
    rw [hok, hnone]
    rfl
  · obtain ⟨_, hsome', hcode, hmessage⟩ := hadmitted.error herror
    obtain rfl := Option.some.inj (hsome.symm.trans hsome')
    rw [hblock, factBlockLines_error_eq hadmitted]
    refine readFactBlock_blockParagraphs hadmitted.ordered hordered (solid_errorParagraphs hcode) ?_
    show readTypedError payload.status _ = some (payload.typedError, _)
    rw [herror, hsome]
    exact readTypedError_errorParagraphs hcode hmessage _

/-! ## What is read is plain -/

theorem plain_of_readExactInteger {line : Text} {item : PublicationExactInteger}
    (h : readExactInteger line = some item) (hline : ∀ c ∈ line, isLineEnd c = false) :
    plain item.jsonPointer = true := by
  simp only [readExactInteger, Option.bind_eq_bind, Option.bind_eq_some_iff] at h
  obtain ⟨s, hlabel, pointer, hpointer, decimal, -, h⟩ := h
  obtain rfl := Option.some.inj h
  obtain ⟨hspan, hsub⟩ := readSpan_spec hpointer
  exact plain_iff.2 ⟨hspan, oneLine_iff.2 fun c hc => hline c (literal_spec hlabel c (hsub c (.inl hc)))⟩

theorem plain_of_readListed {ls : List Text} {items : List PublicationExactInteger}
    (h : readListed readExactInteger ls = some items) (hls : ∀ l ∈ ls, ∀ c ∈ l, isLineEnd c = false) :
    ∀ item ∈ items, plain item.jsonPointer = true := by
  intro item hitem
  rw [readListed] at h
  split_ifs at h
  · obtain rfl := Option.some.inj h
    cases hitem
  · obtain ⟨l, hl, hread⟩ := exists_of_mem_mapM_some h hitem
    exact plain_of_readExactInteger hread (hls l hl)

/-- A section is read from a paragraph, and leaves paragraphs that stood after it. -/
theorem readSection_spec {α : Type} {heading : Text} {read : Text → Option α} {ps : List (List Text)}
    {r : List α × List (List Text)} (h : readSection heading read ps = some r) :
    (∃ ls ∈ ps, readListed read ls = some r.1) ∧ r.2 ⊆ ps := by
  cases ps with
  | nil => cases h
  | cons title ps =>
    cases ps with
    | nil => cases h
    | cons ls ps =>
      rw [readSection] at h
      split_ifs at h
      obtain ⟨items, hread, rfl⟩ := Option.map_eq_some_iff.1 h
      exact ⟨⟨ls, List.mem_cons_of_mem _ List.mem_cons_self, hread⟩,
        fun p hp => List.mem_cons_of_mem _ (List.mem_cons_of_mem _ hp)⟩

theorem readTypedError_spec {status : PublicationStatus} {ps : List (List Text)}
    {r : Option PublicationTypedError × List (List Text)} (h : readTypedError status ps = some r) : r.2 ⊆ ps := by
  unfold readTypedError at h
  split at h
  · obtain rfl := Option.some.inj h
    exact fun p hp => hp
  · split_ifs at h
    simp only [Option.bind_eq_bind, Option.bind_eq_some_iff] at h
    obtain ⟨code, -, message, -, h⟩ := h
    obtain rfl := Option.some.inj h
    exact fun p hp => List.mem_cons_of_mem _ (List.mem_cons_of_mem _ hp)
  · cases h

theorem plain_of_readSections {decision : RouteDecision} {kind : OperationKind} {identity : Text}
    {status : PublicationStatus} {ps : List (List Text)} (h : readSections decision kind identity status ps = some payload)
    (hps : ∀ p ∈ ps, ∀ l ∈ p, ∀ c ∈ l, isLineEnd c = false) : payload.PointersPlain := by
  simp only [readSections, Option.bind_eq_bind, Option.bind_eq_some_iff] at h
  obtain ⟨error, herror, facts, hfacts, sources, hsources, exact, hexact, included, -, omitted, -, boundaries, -,
    h⟩ := h
  split_ifs at h
  obtain rfl := Option.some.inj h
  obtain ⟨⟨ls, hls, hread⟩, -⟩ := readSection_spec hexact
  have hmem : ls ∈ ps :=
    readTypedError_spec herror ((readSection_spec hfacts).2 ((readSection_spec hsources).2 hls))
  exact plain_of_readListed hread (hps ls hmem)

theorem plain_of_readFactBlock {block : Text} (h : readFactBlock block = some payload) : payload.PointersPlain := by
  have hlines : ∀ p ∈ paragraphs (lines block), ∀ l ∈ p, ∀ c ∈ l, isLineEnd c = false := fun p hp l hl =>
    not_isLineEnd_of_mem_lines (mem_of_mem_paragraphs hp l hl)
  unfold readFactBlock at h
  split at h
  · next title decision kind identity status ps hparagraphs =>
    split_ifs at h
    simp only [Option.bind_eq_bind, Option.bind_eq_some_iff] at h
    obtain ⟨_, -, _, -, _, -, _, -, h⟩ := h
    refine plain_of_readSections h fun p hp => hlines p ?_
    rw [hparagraphs]
    exact List.mem_cons_of_mem _ (List.mem_cons_of_mem _ hp)
  · cases h

/-- The block of a payload is read back as exactly its facts, in the published order, if and only if no
JSON pointer contains a backtick or the end of a line. -/
theorem factBlock_read_iff (payload : PublicationPayload) (block : Text)
    (h : renderPublicationFactBlock payload = .ok block) :
    readFactBlock block = some payload.ordered ↔ payload.PointersPlain := by
  constructor
  · intro hread item hitem
    exact plain_of_readFactBlock hread item (mem_sortedBy.2 hitem)
  · exact readFactBlock_of_plain h

/-! ### A pointer that adds a fact -/

/-- Two exact integers. -/
def twoIntegers : PublicationPayload where
  routeDecision := .core
  operationIdentity := List.replicate 64 (ch '0')
  operationKind := .configurationOrHealth
  status := .ok
  typedError := none
  deterministicFacts := [⟨txt "health", txt "OK"⟩]
  sourceProvenance := []
  exactIntegerEncoding := [⟨txt "/a", txt "1"⟩, ⟨txt "/b", txt "2"⟩]
  inclusionAccounting := []
  omissionAccounting := []
  authorityBoundary := [.boundedResult]

/-- One exact integer, whose pointer closes its code span, ends its line and starts the next fact. -/
def oneForgedInteger : PublicationPayload :=
  { twoIntegers with exactIntegerEncoding := [⟨txt "/a" ++ [backtick] ++ txt ": " ++ codeSpan (txt "1") ++
      txt "\n- " ++ [backtick] ++ txt "/b", txt "2"⟩] }

theorem factBlock_read_twoIntegers : renderPublicationFactBlock twoIntegers =
      .ok (joinLines (factBlockLines twoIntegers [])) ∧
    (readFactBlock (joinLines (factBlockLines twoIntegers [])) = some twoIntegers.ordered ↔
      twoIntegers.PointersPlain) := by
  have h : renderPublicationFactBlock twoIntegers = .ok (joinLines (factBlockLines twoIntegers [])) := by
    decide +kernel
  exact ⟨h, factBlock_read_iff twoIntegers _ h⟩

/-- Both payloads are rendered, to one text: no reader returns the facts of each. -/
theorem factBlock_forged : ¬ ∃ read : Text → Option PublicationPayload, ∀ payload block,
    renderPublicationFactBlock payload = .ok block → read block = some payload.ordered := by
  rintro ⟨read, hread⟩
  have hplain : renderPublicationFactBlock twoIntegers = .ok (joinLines (factBlockLines twoIntegers [])) := by
    decide +kernel
  have hforged : renderPublicationFactBlock oneForgedInteger =
      .ok (joinLines (factBlockLines twoIntegers [])) := by
    decide +kernel
  have hsame := Option.some.inj ((hread _ _ hplain).symm.trans (hread _ _ hforged))
  have hne : twoIntegers.ordered ≠ oneForgedInteger.ordered := by decide +kernel
  exact hne hsame

end Steward
