import Steward.Py.Matching
import Steward.Py.Pattern
import Steward.Runs.Coordinator

/-!
# The projection of a Word document

The converted document is read line by line: embedded payloads are cut out of a
line, which is then an image reference only, noise, a heading, a paragraph or
the start of a table. A table is read over the lines as they were converted.
`Stuck` is the line on which the two forms disagree and nothing is read;
`normalizedDocxProjection_faithful` says what the items are of a document
without one.
-/

namespace Steward.Documents

open Py

/-- A line break of `str.splitlines`. -/
def isLineBreak (c : CodePoint) : Bool :=
  (10 ≤ c.val && c.val ≤ 13) || (28 ≤ c.val && c.val ≤ 30) || c.val = 0x85 || c.val = 0x2028 || c.val = 0x2029

/-- The lines from the begun one on; `"\r\n"` is one break. -/
def splitlinesFrom (afterReturn : Bool) (begun : Text) : Text → List Text
  | [] => if begun = [] then [] else [begun]
  | c :: s =>
    if afterReturn && c = ch '\n' then splitlinesFrom false begun s
    else if isLineBreak c then begun :: splitlinesFrom (c = ch '\r') [] s
    else splitlinesFrom false (begun ++ [c]) s

/-- `text.splitlines()` -/
def splitlines (t : Text) : List Text := splitlinesFrom false [] t

/-! ## Lines -/

section
variable (table : CaseTable)

/-- `[A-Za-z0-9.+-]` -/
def urlCharacter (c : CodePoint) : Bool :=
  (txt "ABCDEFGHIJKLMNOPQRSTUVWXYZabcdefghijklmnopqrstuvwxyz0123456789.+-").any fun d => table.same d c

/-- `[^\s)]` -/
def payloadCharacter (c : CodePoint) : Bool := !(isSpace c || table.same (ch ')') c)

/-- `_DOCX_DATA_URL_PATTERN` -/
def docxDataUrlPattern : Matcher :=
  let word := Matcher.some (urlCharacter table)
  let text (s : String) := Matcher.literal table.same (txt s)
  (text "data:").seq (word.seq ((text "/").seq (word.seq
    (((text ";").seq word).star.seq
      (((text ",").seq (.many (payloadCharacter table))).either (text "...")).optional))))

/-- The line without its payloads; the line itself where there is none. -/
def sanitized (line : Text) : Text := ((docxDataUrlPattern table).subn [] line).1

/-- How many payloads were cut out of the line. -/
def replacements (line : Text) : Nat := ((docxDataUrlPattern table).subn [] line).2

end

/-- `_looks_like_docx_raw_base64` -/
def looksLikeDocxRawBase64 (value : Text) : Bool :=
  let letter (c : CodePoint) : Bool :=
    c ∈ txt "ABCDEFGHIJKLMNOPQRSTUVWXYZabcdefghijklmnopqrstuvwxyz0123456789+/"
  let padding := value.dropWhile letter
  decide (128 ≤ value.length) && value.length % 4 = 0 && decide (128 ≤ (value.takeWhile letter).length) &&
    padding.length ≤ 2 && padding.all fun c => c = ch '='

/-- `line.strip().startswith("|") and line.strip().endswith("|")` -/
def isTableLine (line : Text) : Bool := (strip line).startsWith (txt "|") && (strip line).endsWith (txt "|")

/-- `_DOCX_HEADING_PATTERN` on a stripped line, in which no break is left: the level and the title. -/
def docxHeading (line : Text) : Option (Nat × Text) :=
  let level := (line.takeWhile fun c => c = ch '#').length
  let rest := line.dropWhile fun c => c = ch '#'
  let title := rest.dropWhile isSpace
  if 1 ≤ level ∧ level ≤ 6 ∧ title.length < rest.length ∧ title ≠ [] then some (level, title) else none

/-- `line.strip("|")` -/
def stripBars (line : Text) : Text :=
  ((line.dropWhile fun c => c = ch '|').reverse.dropWhile fun c => c = ch '|').reverse

/-- `[value.strip() for value in line.strip("|").split("|")]` -/
def docxCells (line : Text) : List Text := ((stripBars line).splitOn (ch '|')).map strip

/-- The separator of a heading row, or a row without a value. -/
def isDocxSeparator (values : List Text) : Bool :=
  values.all (fun value => value = []) ||
    values.all fun value => value ≠ [] && value.all fun c => c = ch '-' || c = ch ':'

/-- `_docx_table_rows` -/
def docxTableRows (lines : List Text) : List (List Text) :=
  (lines.map docxCells).filter fun values => !isDocxSeparator values

/-! ## Items -/

inductive DocxItem where
  | document
  | imageReference (block : Nat)
  | table (parent : Text) (block rows columns : Nat)
  | tableCell (value : Text) (block row column : Nat)
  | heading (title : Text) (parent : Text) (block level : Nat)
  | paragraph (text : Text) (parent : Text) (block : Nat)
  deriving DecidableEq, Repr

def documentNode : Text := txt "document:current"

/-- `f"document:block:{block_index}:heading:{level}"` -/
def headingNode (block level : Nat) : Text :=
  txt "document:block:" ++ Text.ofNat block ++ txt ":heading:" ++ Text.ofNat level

/-- `f"document:block:{block_index}:table:1"` -/
def tableNode (block : Nat) : Text := txt "document:block:" ++ Text.ofNat block ++ txt ":table:1"

namespace DocxItem

variable {F : Type}

/-- The field `text_or_value`. -/
def text : DocxItem → Option Text
  | document | imageReference _ | table .. => none
  | tableCell value .. => some value
  | heading title .. => some title
  | paragraph text .. => some text

/-- The item as it is returned. -/
def value (item : DocxItem) : Value F :=
  let nat (n : Nat) : Value F := .int n
  let content : Text × Value F := (txt "text_or_value", item.text.elim .none .str)
  match item with
  | document => .dict [(txt "kind", .str (txt "docx_document")), content, (txt "parent", .none),
      (txt "location", .dict [(txt "document", .str (txt "current"))]),
      (txt "extension", .dict [(txt "projection", .str (txt "restricted"))])]
  | imageReference block => .dict [(txt "kind", .str (txt "docx_image_reference")), content,
      (txt "parent", .str documentNode), (txt "location", .dict [(txt "block", nat block)]),
      (txt "extension", .dict [(txt "embedded_payload_stripped", .bool true)])]
  | table parent block rows columns => .dict [(txt "kind", .str (txt "docx_table")),
      (txt "node_id", .str (tableNode block)), (txt "role", .str (txt "TABLE")), content, (txt "parent", .str parent),
      (txt "location", .dict [(txt "block", nat block), (txt "table", nat 1)]),
      (txt "extension", .dict [(txt "rows", nat rows), (txt "columns", nat columns)])]
  | tableCell _ block row column => .dict [(txt "kind", .str (txt "docx_table_cell")),
      (txt "role", .str (txt "TABLE_CELL")), content, (txt "parent", .str (tableNode block)),
      (txt "location", .dict [(txt "block", nat block), (txt "table", nat 1), (txt "row", nat row),
        (txt "column", nat column)]),
      (txt "extension", .none)]
  | heading _ parent block level => .dict [(txt "kind", .str (txt "docx_heading")),
      (txt "node_id", .str (headingNode block level)), (txt "role", .str (txt "HEADING")), content,
      (txt "parent", .str parent), (txt "location", .dict [(txt "block", nat block)]),
      (txt "extension", .dict [(txt "level", nat level)])]
  | paragraph _ parent block => .dict [(txt "kind", .str (txt "docx_paragraph")),
      (txt "role", .str (txt "PARAGRAPH")), content, (txt "parent", .str parent),
      (txt "location", .dict [(txt "block", nat block)]), (txt "extension", .none)]

end DocxItem

/-- The node of the innermost heading above every level. -/
abbrev HeadingStack := List (Nat × Text)

namespace HeadingStack

/-- `heading_stack[max(candidates)]` -/
def nodeOf (stack : HeadingStack) (candidates : List Nat) : Text :=
  match candidates.max? with
  | none => documentNode
  | some level => (stack.lookup level).getD documentNode

/-- `current_parent` -/
def currentParent (stack : HeadingStack) : Text := stack.nodeOf (stack.map Prod.fst)

def parentOf (stack : HeadingStack) (level : Nat) : Text :=
  stack.nodeOf ((stack.map Prod.fst).filter fun candidate => candidate < level)

def push (stack : HeadingStack) (level : Nat) (node : Text) : HeadingStack :=
  (stack.filter fun entry => entry.1 < level) ++ [(level, node)]

end HeadingStack

/-! ## The loop -/

structure DocxDraft where
  items : List DocxItem
  dataUrlCount : Nat
  binaryLineCount : Nat
  blockIndex : Nat
  headingStack : HeadingStack

/-- The table of the rows and its cells. -/
def tableItems (parent : Text) (block : Nat) (rows : List (List Text)) : List DocxItem :=
  if rows = [] then []
  else .table parent block rows.length ((rows.map List.length).max?.getD 0) ::
    rows.zipIdx.flatMap fun row => row.1.zipIdx.map fun cell => .tableCell cell.1 block (row.2 + 1) (cell.2 + 1)

namespace DocxDraft

def initial : DocxDraft := ⟨[.document], 0, 0, 0, []⟩

/-- What is noted of the payloads that were cut out of a line. -/
def addReference (replacements : Nat) (d : DocxDraft) : DocxDraft :=
  if replacements = 0 then d
  else
    { d with
      items := d.items ++ [.imageReference (d.blockIndex + 1)]
      dataUrlCount := d.dataUrlCount + replacements
      blockIndex := d.blockIndex + 1 }

def addTable (tableLines : List Text) (d : DocxDraft) : DocxDraft :=
  let rows := docxTableRows (tableLines.map strip)
  if rows = [] then d
  else
    { d with
      items := d.items ++ tableItems d.headingStack.currentParent (d.blockIndex + 1) rows
      blockIndex := d.blockIndex + 1 }

def addText (line : Text) (d : DocxDraft) : DocxDraft :=
  match docxHeading line with
  | some (level, title) =>
    { d with
      items := d.items ++ [.heading title (d.headingStack.parentOf level) (d.blockIndex + 1) level]
      blockIndex := d.blockIndex + 1
      headingStack := d.headingStack.push level (headingNode (d.blockIndex + 1) level) }
  | none =>
    { d with
      items := d.items ++ [.paragraph line d.headingStack.currentParent (d.blockIndex + 1)]
      blockIndex := d.blockIndex + 1 }

def warnings (d : DocxDraft) : List Text :=
  (if d.dataUrlCount = 0 then [] else [txt "embedded_data_urls_stripped:" ++ Text.ofNat d.dataUrlCount]) ++
    if d.binaryLineCount = 0 then []
    else [txt "binary_like_projection_lines_stripped:" ++ Text.ofNat d.binaryLineCount]

end DocxDraft

section
variable (table : CaseTable)

/-- One turn of the loop: the draft, and the lines from the next index on. -/
def docxStep (d : DocxDraft) (line : Text) (rest : List Text) : DocxDraft × List Text :=
  let d := d.addReference (replacements table line)
  let text := strip (sanitized table line)
  if replacements table line ≠ 0 ∧ (text = [] ∨ text.startsWith (txt "![](") = true) then (d, rest)
  else if text = [] then (d, rest)
  else if looksLikeDocxRawBase64 text then ({ d with binaryLineCount := d.binaryLineCount + 1 }, rest)
  else if isTableLine (sanitized table line) then
    -- the table is read over the lines as they stand, this one included
    (d.addTable ((line :: rest).takeWhile isTableLine), (line :: rest).dropWhile isTableLine)
  else (d.addText text, rest)

/-- The loop over the lines, for a number of turns at most. -/
def docxLoop : Nat → DocxDraft → List Text → Option DocxDraft
  | _, d, [] => some d
  | 0, _, _ :: _ => none
  | fuel + 1, d, line :: rest => docxLoop fuel (docxStep table d line rest).1 (docxStep table d line rest).2

/-- `_normalized_docx_projection`; `none` when the loop did not end in so many turns. -/
def normalizedDocxProjection (fuel : Nat) (markdown : Text) : Option (List DocxItem × List Text) :=
  (docxLoop table fuel .initial (splitlines markdown)).map fun d => (d.items, d.warnings)

end

/-! ## What a line is read as -/

section
variable (table : CaseTable)

/-- The text matches `_DOCX_DATA_URL_PATTERN` somewhere. -/
def HoldsPayload (t : Text) : Prop := (docxDataUrlPattern table).search t = true

/-- The line is a table row once its payloads are cut out, and is none as it stands. -/
def Stuck (line : Text) : Prop := isTableLine (sanitized table line) = true ∧ isTableLine line = false

instance (t : Text) : Decidable (HoldsPayload table t) := inferInstanceAs (Decidable (_ = _))

instance (line : Text) : Decidable (Stuck table line) := inferInstanceAs (Decidable (_ ∧ _))

/-- A payload leaves one image reference. -/
inductive References : Text → List DocxItem → Prop where
  | absent {line : Text} : ¬ HoldsPayload table line → References line []
  | payload {line : Text} (block : Nat) : HoldsPayload table line → References line [.imageReference block]

/-- What is left of the line when its payloads are cut out. -/
abbrev remainder (line : Text) : Text := strip (sanitized table line)

/-- The lines are read together, and the items are all that comes of them. -/
inductive Piece : List Text → List DocxItem → Prop where
  | blank {line : Text} : ¬ HoldsPayload table line → strip line = [] → Piece [line] []
  | payload {line : Text} (block : Nat) : HoldsPayload table line →
      remainder table line = [] ∨ (remainder table line).startsWith (txt "![](") = true →
      Piece [line] [.imageReference block]
  | noise {line : Text} {references : List DocxItem} : References table line references →
      looksLikeDocxRawBase64 (remainder table line) = true → Piece [line] references
  | heading {line title : Text} {references : List DocxItem} {level : Nat} (parent : Text) (block : Nat) :
      References table line references → docxHeading (remainder table line) = some (level, title) →
      Piece [line] (references ++ [.heading title parent block level])
  | paragraph {line : Text} {references : List DocxItem} (parent : Text) (block : Nat) :
      References table line references → remainder table line ≠ [] → docxHeading (remainder table line) = none →
      Piece [line] (references ++ [.paragraph (remainder table line) parent block])
  | rows {line : Text} {lines : List Text} {references : List DocxItem} (parent : Text) (block : Nat) :
      References table line references → (∀ l ∈ line :: lines, isTableLine l = true) →
      Piece (line :: lines) (references ++ tableItems parent block (docxTableRows ((line :: lines).map strip)))

end

variable {table : CaseTable} {d : DocxDraft} {line : Text} {rest : List Text}

theorem extends_docxDataUrlPattern : (docxDataUrlPattern table).Extends := by
  have hword : (Matcher.some (urlCharacter table)).Extends := Matcher.extends_some
  have htext (s : String) : (Matcher.literal table.same (txt s)).Extends := Matcher.extends_literal _
  exact Matcher.extends_seq (htext _) (Matcher.extends_seq hword (Matcher.extends_seq (htext _)
    (Matcher.extends_seq hword (Matcher.extends_seq (Matcher.extends_star (Matcher.extends_seq (htext _) hword))
      (Matcher.extends_optional (Matcher.extends_either (Matcher.extends_seq (htext _) Matcher.extends_many)
        (htext _)))))))

theorem docxDataUrlPattern_nil : docxDataUrlPattern table [] = [] := rfl

theorem HoldsPayload.of_infix {s t : Text} (hs : s <:+: t) (h : HoldsPayload table s) : HoldsPayload table t :=
  Matcher.search_of_infix extends_docxDataUrlPattern hs h

/-- Between two payloads of a line there is no other. -/
theorem not_holdsPayload_of_mem_split {stretch : Text} (h : stretch ∈ (docxDataUrlPattern table).split line) :
    ¬ HoldsPayload table stretch :=
  Bool.eq_false_iff.1 (Matcher.search_of_mem_split extends_docxDataUrlPattern docxDataUrlPattern_nil h)

theorem replacements_eq_zero : replacements table line = 0 ↔ ¬ HoldsPayload table line :=
  (Matcher.subn_snd_eq_zero docxDataUrlPattern_nil).trans Bool.eq_false_iff

theorem sanitized_of_not (h : ¬ HoldsPayload table line) : sanitized table line = line := by
  rw [sanitized, Matcher.subn_of_search [] (Bool.eq_false_iff.2 h)]

/-! ## One turn -/

theorem addReference_items (table : CaseTable) (d : DocxDraft) (line : Text) : ∃ references, References table line references ∧
    (d.addReference (replacements table line)).items = d.items ++ references := by
  by_cases h : HoldsPayload table line
  · refine ⟨[.imageReference (d.blockIndex + 1)], .payload _ h, ?_⟩
    rw [DocxDraft.addReference, if_neg (replacements_eq_zero.not.2 (not_not.2 h))]
  · exact ⟨[], .absent h, by rw [DocxDraft.addReference, if_pos (replacements_eq_zero.2 h), List.append_nil]⟩

theorem addTable_items (tableLines : List Text) : ∃ parent block, (d.addTable tableLines).items =
    d.items ++ tableItems parent block (docxTableRows (tableLines.map strip)) := by
  refine ⟨d.headingStack.currentParent, d.blockIndex + 1, ?_⟩
  rw [DocxDraft.addTable]
  split_ifs with h
  · rw [tableItems, if_pos h, List.append_nil]
  · rfl

/-- A turn on a line that is not stuck reads that line, or the table that starts there, and goes on behind it. -/
theorem docxStep_reads (h : ¬ Stuck table line) (d : DocxDraft) (rest : List Text) : ∃ lines items,
    Piece table (line :: lines) items ∧ rest = lines ++ (docxStep table d line rest).2 ∧
      (docxStep table d line rest).1.items = d.items ++ items := by
  obtain ⟨references, hrefs, hitems⟩ := addReference_items table d line
  simp only [docxStep]
  split_ifs with hpayload hblank hnoise htable
  · have hheld : HoldsPayload table line := not_not.1 (replacements_eq_zero.not.1 hpayload.1)
    cases hrefs with
    | absent hno => exact absurd hheld hno
    | payload block _ => exact ⟨[], _, .payload block hheld hpayload.2, rfl, hitems⟩
  · cases hrefs with
    | absent hno =>
      refine ⟨[], _, .blank hno ?_, rfl, hitems⟩
      rwa [sanitized_of_not hno] at hblank
    | payload block hheld => exact ⟨[], _, .payload block hheld (.inl hblank), rfl, hitems⟩
  · exact ⟨[], _, .noise hrefs hnoise, rfl, hitems⟩
  · have hline : isTableLine line = true := Bool.not_eq_false _ ▸ fun hno => h ⟨htable, hno⟩
    obtain ⟨parent, block, hadded⟩ := addTable_items (d := d.addReference (replacements table line))
      ((line :: rest).takeWhile isTableLine)
    rw [List.takeWhile_cons_of_pos hline] at hadded ⊢
    rw [List.dropWhile_cons_of_pos hline]
    refine ⟨rest.takeWhile isTableLine, _, .rows parent block hrefs ?_, List.takeWhile_append_dropWhile.symm, ?_⟩
    · rintro l (_ | ⟨_, hl⟩)
      · exact hline
      · exact List.mem_takeWhile_imp hl
    · rw [hadded, hitems, List.append_assoc]
  · simp only [DocxDraft.addText]
    split
    · rename_i level title hheading
      exact ⟨[], _, .heading _ _ hrefs hheading, rfl, by rw [hitems, List.append_assoc]⟩
    · rename_i hheading
      exact ⟨[], _, .paragraph _ _ hrefs hblank hheading, rfl, by rw [hitems, List.append_assoc]⟩

/-- Nothing is read of a stuck line. -/
theorem docxStep_stuck (h : Stuck table line) (d : DocxDraft) (rest : List Text) :
    (docxStep table d line rest).2 = line :: rest := by
  obtain ⟨htable, hraw⟩ := h
  have hbar : (remainder table line).startsWith (txt "|") = true := (Bool.and_eq_true_iff.1 htable).1
  obtain ⟨tail, htail⟩ : ∃ tail, remainder table line = ch '|' :: tail := by
    obtain ⟨tail, h⟩ := List.isPrefixOf_iff_prefix.1 hbar
    exact ⟨tail, h.symm⟩
  have hblank : ¬ remainder table line = [] := by simp [htail]
  have himage : ¬ (remainder table line).startsWith (txt "![](") = true := by
    rw [htail]; simp [Text.startsWith, txt, ch]
  have hnoise : ¬ looksLikeDocxRawBase64 (remainder table line) = true := by
    rw [htail, looksLikeDocxRawBase64, List.takeWhile_cons_of_neg (by decide)]
    simp
  simp only [docxStep]
  rw [if_neg (fun hp => hp.2.elim hblank himage), if_neg hblank, if_neg hnoise, if_pos htable]
  exact List.dropWhile_cons_of_neg (Bool.eq_false_iff.1 hraw)

/-! ## The whole run -/

theorem docxLoop_ends {lines : List Text} (h : ∀ line ∈ lines, ¬ Stuck table line) {fuel : Nat}
    (hfuel : lines.length ≤ fuel) (d : DocxDraft) : ∃ d', docxLoop table fuel d lines = some d' := by
  induction fuel generalizing lines d with
  | zero =>
    rw [List.length_eq_zero_iff.1 (Nat.le_zero.1 hfuel)]
    exact ⟨d, by simp [docxLoop]⟩
  | succ fuel ih =>
    cases lines with
    | nil => exact ⟨d, by simp [docxLoop]⟩
    | cons line rest =>
      obtain ⟨lines, items, -, hrest, -⟩ := docxStep_reads (h line List.mem_cons_self) d rest
      have hsuffix : (docxStep table d line rest).2 <:+ rest := ⟨lines, hrest.symm⟩
      rw [docxLoop]
      refine ih (fun l hl => h l (List.mem_cons_of_mem _ (hsuffix.subset hl))) ?_ _
      have := hsuffix.length_le
      rw [List.length_cons] at hfuel
      omega

/-- A stuck line is never left behind. -/
theorem docxLoop_stuck {lines : List Text} (h : ∃ line ∈ lines, Stuck table line) (fuel : Nat) (d : DocxDraft) :
    docxLoop table fuel d lines = none := by
  induction fuel generalizing lines d with
  | zero =>
    obtain ⟨line, hline, -⟩ := h
    cases lines with
    | nil => exact absurd hline List.not_mem_nil
    | cons line rest => rfl
  | succ fuel ih =>
    obtain ⟨stuck, hmem, hstuck⟩ := h
    cases lines with
    | nil => exact absurd hmem List.not_mem_nil
    | cons line rest =>
      rw [docxLoop]
      by_cases hhead : Stuck table line
      · rw [docxStep_stuck hhead]
        exact ih ⟨line, List.mem_cons_self, hhead⟩ _
      · obtain ⟨lines, items, hpiece, hrest, -⟩ := docxStep_reads hhead d rest
        refine ih ⟨stuck, ?_, hstuck⟩ _
        have hlater : stuck ∈ rest := (List.mem_cons.1 hmem).resolve_left fun he => hhead (he ▸ hstuck)
        rw [hrest] at hlater
        refine (List.mem_append.1 hlater).resolve_left fun hin => ?_
        -- the lines of a table are rows as they stand
        cases hpiece with
        | rows _ _ _ hrows => exact absurd (hrows stuck (List.mem_cons_of_mem _ hin)) (Bool.eq_false_iff.1 hstuck.2)
        | _ => exact absurd hin List.not_mem_nil

theorem not_stuck_of_docxLoop {lines : List Text} {fuel : Nat} {d d' : DocxDraft}
    (h : docxLoop table fuel d lines = some d') : ∀ line ∈ lines, ¬ Stuck table line := by
  intro line hline hstuck
  rw [docxLoop_stuck ⟨line, hline, hstuck⟩] at h
  cases h

/-- The loop reads the lines piece by piece. -/
theorem docxLoop_reads {lines : List Text} {fuel : Nat} {d d' : DocxDraft}
    (h : docxLoop table fuel d lines = some d') : ∃ pieces : List (List Text × List DocxItem),
      (∀ p ∈ pieces, Piece table p.1 p.2) ∧ pieces.flatMap Prod.fst = lines ∧
        d'.items = d.items ++ pieces.flatMap Prod.snd := by
  induction fuel generalizing lines d with
  | zero =>
    cases lines with
    | nil => obtain rfl := Option.some.inj h; exact ⟨[], by simp⟩
    | cons => cases h
  | succ fuel ih =>
    cases lines with
    | nil => obtain rfl := Option.some.inj h; exact ⟨[], by simp⟩
    | cons line rest =>
      obtain ⟨lines, items, hpiece, hrest, hitems⟩ :=
        docxStep_reads (not_stuck_of_docxLoop h line List.mem_cons_self) d rest
      rw [docxLoop] at h
      obtain ⟨pieces, hpieces, hlines, hall⟩ := ih h
      refine ⟨(line :: lines, items) :: pieces, List.forall_mem_cons.2 ⟨hpiece, hpieces⟩, ?_, ?_⟩
      · rw [List.flatMap_cons, hlines, List.cons_append, ← hrest]
      · rw [hall, hitems, List.flatMap_cons, List.append_assoc]

/-! ## The parents of headings -/

/-- The level and the node of a heading. -/
def DocxItem.headingEntry : DocxItem → Option (Nat × Text)
  | .heading _ _ block level => some (level, headingNode block level)
  | _ => none

/-- The node of the last heading of a smaller level. -/
def nearestHeading (before : List DocxItem) (level : Nat) : Text :=
  (((before.filterMap DocxItem.headingEntry).filter fun entry => entry.1 < level).getLast?.map Prod.snd).getD documentNode

/-- Every heading hangs under the last one before it of a smaller level. -/
def Nested (items : List DocxItem) : Prop :=
  ∀ ⦃before : List DocxItem⦄ ⦃title parent : Text⦄ ⦃block level : Nat⦄,
    before ++ [.heading title parent block level] <+: items → parent = nearestHeading before level

/-- The stack answers for the headings so far, and they are nested. -/
structure Tracks (d : DocxDraft) : Prop where
  stack : ∀ level, d.headingStack.parentOf level = nearestHeading d.items level
  nested : Nested d.items

theorem nearestHeading_append_of_none {before items : List DocxItem} (h : ∀ i ∈ items, i.headingEntry = none)
    (level : Nat) : nearestHeading (before ++ items) level = nearestHeading before level := by
  rw [nearestHeading, List.filterMap_append, List.filterMap_eq_nil_iff.2 h, List.append_nil, nearestHeading]

theorem nearestHeading_append_heading (before : List DocxItem) (title parent : Text) (block top level : Nat) :
    nearestHeading (before ++ [.heading title parent block top]) level =
      if top < level then headingNode block top else nearestHeading before level := by
  rw [nearestHeading, List.filterMap_append, List.filter_append]
  split_ifs with h <;> simp [DocxItem.headingEntry, h, nearestHeading]

theorem Nested.append_of_none {before items : List DocxItem} (h : Nested before)
    (hnone : ∀ i ∈ items, i.headingEntry = none) : Nested (before ++ items) := by
  induction items using List.reverseRecOn with
  | nil => simpa using h
  | append_singleton items last ih =>
    intro front title parent block level hfront
    rw [← List.append_assoc, List.prefix_concat_iff] at hfront
    rcases hfront with heq | hfront
    · obtain ⟨-, hlast⟩ := List.append_inj' heq rfl
      have := hnone last (by simp)
      rw [← List.singleton_inj.1 hlast] at this
      cases this
    · exact ih (fun i hi => hnone i (List.mem_append_left _ hi)) hfront

theorem Nested.append_heading {before : List DocxItem} (h : Nested before) (title : Text) (block level : Nat) :
    Nested (before ++ [.heading title (nearestHeading before level) block level]) := by
  intro front title' parent block' level' hfront
  rw [List.prefix_concat_iff] at hfront
  rcases hfront with heq | hfront
  · obtain ⟨rfl, hlast⟩ := List.append_inj' heq rfl
    injection List.singleton_inj.1 hlast with _ hparent _ hlevel
    rw [hparent, hlevel]
  · exact h hfront

theorem nested_nil : Nested [] := fun _ _ _ _ _ h => absurd (List.prefix_nil.1 h) (by simp)

theorem Tracks.initial : Tracks .initial where
  stack _ := rfl
  nested := nested_nil.append_of_none (show ∀ i ∈ [DocxItem.document], i.headingEntry = none by simp [DocxItem.headingEntry])

/-- What is added has no heading in it, and the stack is left as it is. -/
theorem Tracks.append_of_none {d d' : DocxDraft} {items : List DocxItem} (h : Tracks d)
    (hitems : d'.items = d.items ++ items) (hnone : ∀ i ∈ items, i.headingEntry = none)
    (hstack : d'.headingStack = d.headingStack) : Tracks d' where
  stack level := by rw [hstack, h.stack, hitems, nearestHeading_append_of_none hnone]
  nested := by rw [hitems]; exact h.nested.append_of_none hnone

section
variable (stack : HeadingStack) (node : Text)

theorem lookup_filter_below {c top : Nat} (h : c < top) :
    (stack.filter fun entry => entry.1 < top).lookup c = stack.lookup c := by
  induction stack with
  | nil => rfl
  | cons entry stack ih =>
    by_cases hc : c = entry.1
    · rw [List.filter_cons_of_pos (by simpa [← hc] using h), List.lookup_cons, List.lookup_cons, beq_iff_eq.2 hc]
    · rw [List.lookup_cons, beq_false_of_ne hc]
      by_cases htop : entry.1 < top
      · rw [List.filter_cons_of_pos (by simpa using htop), List.lookup_cons, beq_false_of_ne hc]
        exact ih
      · rw [List.filter_cons_of_neg (by simpa using htop)]
        exact ih

theorem HeadingStack.lookup_push_below {c top : Nat} (h : c < top) :
    (stack.push top node).lookup c = stack.lookup c := by
  rw [push, List.lookup_append, lookup_filter_below stack h]
  simp [List.lookup_cons, beq_false_of_ne (Nat.ne_of_lt h)]

theorem HeadingStack.lookup_push_self (top : Nat) : (stack.push top node).lookup top = some node := by
  have hnone : (stack.filter fun entry => entry.1 < top).lookup top = none := by
    rw [List.lookup_eq_none_iff]
    intro entry hentry
    have hlt : entry.1 < top := by simpa using (List.mem_filter.1 hentry).2
    exact bne_iff_ne.2 (Nat.ne_of_gt hlt)
  rw [push, List.lookup_append, hnone]
  simp

theorem HeadingStack.keys_push (top : Nat) :
    (stack.push top node).map Prod.fst = ((stack.map Prod.fst).filter fun c => c < top) ++ [top] := by
  rw [push, List.map_append, List.filter_map]
  rfl

/-- A new heading is the parent of what is below its level, and hides nothing above it. -/
theorem HeadingStack.parentOf_push (top level : Nat) :
    (stack.push top node).parentOf level = if top < level then node else stack.parentOf level := by
  rw [parentOf, keys_push, List.filter_append, List.filter_filter]
  split_ifs with h
  · have hmax : (((stack.map Prod.fst).filter fun c => decide (c < level) && decide (c < top)) ++
        [top].filter fun c => decide (c < level)).max? = some top := by
      rw [List.max?_eq_some_iff]
      simp only [List.mem_append, List.mem_filter, List.mem_singleton]
      exact ⟨by simp [h], fun c hc => by rcases hc with hc | hc <;> simp at hc <;> omega⟩
    rw [nodeOf, hmax]
    simp [lookup_push_self]
  · have hsame : ((stack.map Prod.fst).filter fun c => decide (c < level) && decide (c < top)) =
        (stack.map Prod.fst).filter fun c => c < level := by
      refine List.filter_congr fun c _ => ?_
      by_cases hc : c < level
      · simp [hc, hc.trans_le (Nat.le_of_not_lt h)]
      · simp [hc]
    rw [hsame, List.filter_cons_of_neg (by simpa using h), List.filter_nil, List.append_nil, parentOf, nodeOf, nodeOf]
    cases hmax : ((stack.map Prod.fst).filter fun c => decide (c < level)).max? with
    | none => rfl
    | some c =>
      have hc : c < level := by simpa using (List.mem_filter.1 (List.max?_mem hmax)).2
      simp only [lookup_push_below stack node (hc.trans_le (Nat.le_of_not_lt h))]

end

theorem Tracks.addText (h : Tracks d) (line : Text) : Tracks (d.addText line) := by
  rw [DocxDraft.addText]
  split
  · rename_i level title _
    refine ⟨fun l => ?_, ?_⟩
    · simp only
      rw [HeadingStack.parentOf_push, nearestHeading_append_heading, h.stack]
    · simp only
      rw [h.stack]
      exact h.nested.append_heading _ _ _
  · exact h.append_of_none rfl (by simp [DocxItem.headingEntry]) rfl

theorem headingEntry_of_mem_tableItems {parent : Text} {block : Nat} {rows : List (List Text)} {item : DocxItem}
    (h : item ∈ tableItems parent block rows) : item.headingEntry = none := by
  rw [tableItems] at h
  split_ifs at h
  · exact absurd h List.not_mem_nil
  · rcases List.mem_cons.1 h with rfl | h
    · rfl
    · obtain ⟨row, -, h⟩ := List.mem_flatMap.1 h
      obtain ⟨cell, -, rfl⟩ := List.mem_map.1 h
      rfl

theorem Tracks.addReference (h : Tracks d) (n : Nat) : Tracks (d.addReference n) := by
  rw [DocxDraft.addReference]
  split_ifs
  · exact h
  · exact h.append_of_none rfl (by simp [DocxItem.headingEntry]) rfl

theorem Tracks.addTable (h : Tracks d) (tableLines : List Text) : Tracks (d.addTable tableLines) := by
  rw [DocxDraft.addTable]
  split_ifs
  · exact h
  · exact h.append_of_none rfl (fun _ => headingEntry_of_mem_tableItems) rfl

theorem Tracks.docxStep (h : Tracks d) (line : Text) (rest : List Text) : Tracks (docxStep table d line rest).1 := by
  have h := h.addReference (replacements table line)
  simp only [Documents.docxStep]
  split_ifs
  · exact h
  · exact h
  · exact ⟨h.stack, h.nested⟩
  · exact h.addTable _
  · exact h.addText _

theorem Tracks.docxLoop (h : Tracks d) {lines : List Text} {fuel : Nat} {d' : DocxDraft}
    (hrun : docxLoop table fuel d lines = some d') : Tracks d' := by
  induction fuel generalizing lines d with
  | zero =>
    cases lines with
    | nil => obtain rfl := Option.some.inj hrun; exact h
    | cons => cases hrun
  | succ fuel ih =>
    cases lines with
    | nil => obtain rfl := Option.some.inj hrun; exact h
    | cons line rest => exact ih (h.docxStep line rest) hrun

/-! ## The texts of a piece -/

theorem dropWhile_within (p : CodePoint → Bool) (t : Text) : t.dropWhile p <:+: t := (List.dropWhile_suffix p).isInfix

theorem strip_within (t : Text) : strip t <:+: t := by
  have h := List.reverse_infix.2 (dropWhile_within isSpace (t.dropWhile isSpace).reverse)
  rw [List.reverse_reverse] at h
  exact h.trans (dropWhile_within _ _)

theorem stripBars_within (t : Text) : stripBars t <:+: t := by
  have h := List.reverse_infix.2
    (dropWhile_within (fun c => c = ch '|') (t.dropWhile fun c => c = ch '|').reverse)
  rw [List.reverse_reverse] at h
  exact h.trans (dropWhile_within _ _)

theorem infix_intercalate {separator u : Text} {parts : List Text} (h : u ∈ parts) :
    u <:+: separator.intercalate parts := by
  induction parts with
  | nil => exact absurd h List.not_mem_nil
  | cons part parts ih =>
    cases parts with
    | nil => rw [List.intercalate_singleton, List.mem_singleton.1 h]
    | cons next parts =>
      rw [List.intercalate_cons_cons]
      rcases List.mem_cons.1 h with rfl | h
      · exact (List.prefix_append u _).isInfix.trans (List.prefix_append _ _).isInfix
      · exact (ih h).trans (List.suffix_append _ _).isInfix

theorem infix_of_mem_splitOn {t u : Text} {c : CodePoint} (h : u ∈ t.splitOn c) : u <:+: t := by
  have hinfix : u <:+: [c].intercalate (t.splitOn c) := infix_intercalate h
  rwa [List.intercalate_splitOn] at hinfix

theorem docxCells_within {line value : Text} (h : value ∈ docxCells line) : value <:+: line := by
  obtain ⟨part, hpart, rfl⟩ := List.mem_map.1 h
  exact (strip_within _).trans ((infix_of_mem_splitOn hpart).trans (stripBars_within _))

theorem docxHeading_within {line title : Text} {level : Nat} (h : docxHeading line = some (level, title)) :
    title <:+: line := by
  simp only [docxHeading] at h
  split_ifs at h
  obtain ⟨-, rfl⟩ := Prod.mk.inj (Option.some.inj h)
  exact (dropWhile_within _ _).trans (dropWhile_within _ _)

/-- A cell is part of a line of its table. -/
theorem text_of_mem_tableItems {parent text : Text} {block : Nat} {lines : List Text} {item : DocxItem}
    (h : item ∈ tableItems parent block (docxTableRows (lines.map strip))) (htext : item.text = some text) :
    ∃ line ∈ lines, text <:+: line := by
  rw [tableItems] at h
  split_ifs at h
  · exact absurd h List.not_mem_nil
  · rcases List.mem_cons.1 h with rfl | h
    · cases htext
    · obtain ⟨row, hrow, h⟩ := List.mem_flatMap.1 h
      obtain ⟨cell, hcell, rfl⟩ := List.mem_map.1 h
      obtain rfl := Option.some.inj htext
      have hvalues : row.1 ∈ docxTableRows (lines.map strip) := List.fst_mem_of_mem_zipIdx hrow
      obtain ⟨stripped, hstripped, hcells⟩ := List.mem_map.1 (List.mem_filter.1 hvalues).1
      obtain ⟨line, hline, rfl⟩ := List.mem_map.1 hstripped
      refine ⟨line, hline, (docxCells_within ?_).trans (strip_within line)⟩
      rw [hcells]
      exact List.fst_mem_of_mem_zipIdx hcell

theorem References.text {line : Text} {references : List DocxItem} (h : References table line references)
    {item : DocxItem} (hi : item ∈ references) : item.text = none := by
  cases h with
  | absent => exact absurd hi List.not_mem_nil
  | payload => rw [List.mem_singleton.1 hi]; rfl

/-- The text of an item is part of a line without its payloads, or of a row as it stands. -/
theorem Piece.text {lines : List Text} {items : List DocxItem} (h : Piece table lines items) {item : DocxItem}
    {text : Text} (hi : item ∈ items) (htext : item.text = some text) :
    (∃ line ∈ lines, isTableLine line = true ∧ text <:+: line) ∨ ∃ line ∈ lines, text <:+: sanitized table line := by
  have hnone {line : Text} {references : List DocxItem} (hrefs : References table line references)
      (hin : item ∈ references) : False := by rw [hrefs.text hin] at htext; cases htext
  cases h with
  | blank => exact absurd hi List.not_mem_nil
  | payload => rw [List.mem_singleton.1 hi] at htext; cases htext
  | noise hrefs => exact (hnone hrefs hi).elim
  | heading _ _ hrefs hheading =>
    rcases List.mem_append.1 hi with hi | hi
    · exact (hnone hrefs hi).elim
    · rw [List.mem_singleton.1 hi] at htext
      obtain rfl := Option.some.inj htext
      exact .inr ⟨_, List.mem_singleton_self _, (docxHeading_within hheading).trans (strip_within _)⟩
  | paragraph _ _ hrefs =>
    rcases List.mem_append.1 hi with hi | hi
    · exact (hnone hrefs hi).elim
    · rw [List.mem_singleton.1 hi] at htext
      obtain rfl := Option.some.inj htext
      exact .inr ⟨_, List.mem_singleton_self _, strip_within _⟩
  | rows _ _ hrefs hrows =>
    rcases List.mem_append.1 hi with hi | hi
    · exact (hnone hrefs hi).elim
    · obtain ⟨line, hline, hinfix⟩ := text_of_mem_tableItems hi htext
      exact .inl ⟨line, hline, hrows line hline, hinfix⟩

/-! ## The projection -/

/-- The pieces cover the lines in their order, and their items are the items in theirs. -/
def Covers (table : CaseTable) (pieces : List (List Text × List DocxItem)) (lines : List Text)
    (items : List DocxItem) : Prop :=
  (∀ p ∈ pieces, Piece table p.1 p.2) ∧ pieces.flatMap Prod.fst = lines ∧
    items = .document :: pieces.flatMap Prod.snd

theorem normalizedDocxProjection_ends {markdown : Text} (h : ∀ line ∈ splitlines markdown, ¬ Stuck table line)
    {fuel : Nat} (hfuel : (splitlines markdown).length ≤ fuel) :
    ∃ result, normalizedDocxProjection table fuel markdown = some result := by
  obtain ⟨d, hd⟩ := docxLoop_ends h hfuel .initial
  exact ⟨(d.items, d.warnings), by rw [normalizedDocxProjection, hd]; rfl⟩

/-- A document in which no line becomes a row only by the loss of its payloads is read to its end.
Whatever is returned reads every line in one piece, holds no payload but where a row of the piece
does or the two sides of a payload make one, and hangs every heading under the last one above it. -/
theorem normalizedDocxProjection_faithful (table : CaseTable) (markdown : Text) :
    ((∀ line ∈ splitlines markdown, ¬ Stuck table line) → ∀ fuel, (splitlines markdown).length ≤ fuel →
      ∃ result, normalizedDocxProjection table fuel markdown = some result) ∧
    ∀ fuel items warnings, normalizedDocxProjection table fuel markdown = some (items, warnings) →
      (∃ pieces, Covers table pieces (splitlines markdown) items ∧
        ∀ p ∈ pieces, ∀ item ∈ p.2, ∀ text, item.text = some text → HoldsPayload table text →
          (∃ line ∈ p.1, isTableLine line = true ∧ HoldsPayload table line) ∨
            ∃ line ∈ p.1, HoldsPayload table (sanitized table line) ∧
              ∀ stretch ∈ (docxDataUrlPattern table).split line, ¬ HoldsPayload table stretch) ∧
      Nested items := by
  refine ⟨fun h fuel hfuel => normalizedDocxProjection_ends h hfuel, fun fuel items warnings hrun => ?_⟩
  obtain ⟨d, hd, hresult⟩ := Option.map_eq_some_iff.1 hrun
  obtain ⟨rfl, -⟩ := Prod.mk.inj hresult
  obtain ⟨pieces, hcovers⟩ : ∃ pieces, Covers table pieces (splitlines markdown) d.items := docxLoop_reads hd
  refine ⟨⟨pieces, hcovers, fun p hp item hi text htext hheld => ?_⟩, (Tracks.initial.docxLoop hd).nested⟩
  rcases (hcovers.1 p hp).text hi htext with ⟨line, hline, hrow, hinfix⟩ | ⟨line, hline, hinfix⟩
  · exact .inl ⟨line, hline, hrow, hheld.of_infix hinfix⟩
  · exact .inr ⟨line, hline, hheld.of_infix hinfix, fun _ => not_holdsPayload_of_mem_split⟩

namespace Sample

/-- Case counts. -/
def caseTable : CaseTable := ⟨fun c d => c = d, fun _ => false⟩

def markdown : Text := txt "# A\n![](data:a/b)\n### B\n|x|y|\nend"

/-- The rule below the heading of a table is in no item, and its row is in two. -/
theorem separator_unrepresented :
    strip (txt "|-|-|") ≠ [] ∧ ¬ HoldsPayload caseTable (txt "|-|-|") ∧ looksLikeDocxRawBase64 (txt "|-|-|") = false ∧
      splitlines (txt "|a|b|\n|-|-|") = [txt "|a|b|", txt "|-|-|"] ∧
      normalizedDocxProjection caseTable 2 (txt "|a|b|\n|-|-|") = some ([.document, .table documentNode 1 1 2,
        .tableCell (txt "a") 1 1 1, .tableCell (txt "b") 1 1 2], []) := by
  refine ⟨by decide, by decide +kernel, by decide, by decide, by decide +kernel⟩

theorem markdown_projection :
    (∃ result, normalizedDocxProjection caseTable 5 markdown = some result) ∧
      ∀ items warnings, normalizedDocxProjection caseTable 5 markdown = some (items, warnings) → Nested items := by
  have h := normalizedDocxProjection_faithful caseTable markdown
  exact ⟨h.1 (by decide +kernel) 5 (by decide), fun items warnings hrun => (h.2 5 items warnings hrun).2⟩

/-- The bars are those of a row only when the payload before them is gone. -/
example : Stuck caseTable (txt "data:a/b |x|") := by decide +kernel

end Sample

end Steward.Documents
