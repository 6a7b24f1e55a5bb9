import Steward.Documents.ExecutionPlan

/-!
# Items as they are published

What every backend returns is normalized and given the coordinates of its
container: an EPUB or a DOCX is numbered by the headings that are among its own
items, whatever they were selected from (`getElem?_publishedItems`).
-/

namespace Steward.Documents

open Py

/-! ## Coordinates -/

section
variable {α : Type} {k : Text} {v : α}

/-- `d[k] = v` -/
def setItem (fs : List (Text × α)) (k : Text) (v : α) : List (Text × α) := assignBy Prod.fst fs (k, v)

theorem lookup_append_of_none {fs gs : List (Text × α)} {key : Text} (h : lookup fs key = none) :
    lookup (fs ++ gs) key = lookup gs key := by
  induction fs with
  | nil => rfl
  | cons f fs ih =>
    rw [lookup_cons] at h
    split_ifs at h with hkey
    rw [List.cons_append, lookup_cons, if_neg hkey, ih h]

theorem lookup_append_of_some {fs gs : List (Text × α)} {key : Text} {w : α} (h : lookup fs key = some w) :
    lookup (fs ++ gs) key = some w := by
  induction fs with
  | nil => cases h
  | cons f fs ih =>
    rw [lookup_cons] at h
    rw [List.cons_append, lookup_cons]
    split_ifs at h ⊢ with hkey
    · exact h
    · exact ih h

theorem lookup_setItem (fs : List (Text × α)) (key : Text) :
    lookup (setItem fs k v) key = if k = key then some v else lookup fs key := by
  have hmap (gs : List (Text × α)) : lookup (gs.map fun f => if f.1 = k then (k, v) else f) key =
      if k = key then (lookup gs key).map fun _ => v else lookup gs key := by
    induction gs with
    | nil => simp
    | cons f gs ih =>
      rw [List.map_cons, lookup_cons, lookup_cons, ih]
      by_cases hkey : k = key
      · subst hkey
        by_cases hf : f.1 = k <;> simp [hf]
      · by_cases hf : f.1 = k <;> simp [hf, hkey]
  rw [setItem, assignBy]
  split_ifs with hany hkey hkey
  · obtain ⟨f, hf, hfk⟩ := List.any_eq_true.1 hany
    rw [decide_eq_true_eq] at hfk
    obtain ⟨w, hw⟩ := Option.isSome_iff_exists.1 (lookup_isSome_iff.2 (List.mem_map.2 ⟨f, hf, hfk⟩))
    rw [hmap, if_pos hkey, ← hkey, hw]
    rfl
  · rw [hmap, if_neg hkey]
  · have hnone : lookup fs key = none := by
      refine lookup_eq_none_iff.2 fun hmem => hany ?_
      obtain ⟨f, hf, hfk⟩ := List.mem_map.1 hmem
      exact List.any_eq_true.2 ⟨f, hf, decide_eq_true (hfk.trans hkey.symm)⟩
    rw [lookup_append_of_none hnone, lookup_cons, if_pos hkey]
  · cases hlookup : lookup fs key with
    | none => rw [lookup_append_of_none hlookup, lookup_cons, if_neg hkey]; rfl
    | some w => rw [lookup_append_of_some hlookup]

end

/-! ## Roles -/

/-- `_legacy_item_role` -/
def legacyItemRole (lower : Text → Text) (kind : Text) : Text :=
  let normalized := lower kind
  let within (part : String) : Bool := txt part <:+: normalized
  let ends (part : String) : Bool := normalized.endsWith (txt part)
  if within "heading" || ends "_title" then txt "HEADING"
  else if within "table_cell" || normalized = txt "xlsx_cell" then txt "TABLE_CELL"
  else if within "table" then txt "TABLE"
  else if within "chart" || within "image" || within "picture" then txt "FIGURE"
  else if within "sheet" then txt "SHEET"
  else if within "slide" then txt "SLIDE"
  else if normalized = txt "pdf_page_block" then txt "SECTION"
  else if ends "_document" || ends "_workbook" || ends "_presentation" then txt "DOCUMENT"
  else txt "PARAGRAPH"

section
variable {F : Type} (lower : Text → Text)

/-- `item.role or _legacy_item_role(item.kind)` -/
def NormalizedDocumentItem.roleName (x : NormalizedDocumentItem F) : Text :=
  if x.role = none ∨ x.role = some [] then legacyItemRole lower x.kind else x.role.getD []

/-- The text that opens a section: `role == "HEADING" and item.text_or_value`. -/
def NormalizedDocumentItem.opens (x : NormalizedDocumentItem F) : Option Text :=
  if x.roleName lower = txt "HEADING" then x.textOrValue.filter (· ≠ []) else none

/-- One item of `_normalized_items`, which is the `ordinal`-th. -/
def normalizedItem (ordinal : Nat) (x : NormalizedDocumentItem F) : NormalizedDocumentItem F :=
  { x with
    extension := x.extension.filter fun e => !e.isEmpty
    nodeId := some (if x.nodeId = none ∨ x.nodeId = some [] then txt "document:item:" ++ Text.ofNat ordinal
      else x.nodeId.getD [])
    role := some (x.roleName lower) }

/-- `_normalized_items` -/
def normalizedItems (items : List (NormalizedDocumentItem F)) : List (NormalizedDocumentItem F) :=
  (items.zipIdx 1).map fun x => normalizedItem lower x.2 x.1

end

/-! ## Containers -/

/-- `section_index` and `section_title` of `_format_native_items`. -/
structure Sections where
  index : Nat
  title : Option Text

def Sections.enter (s : Sections) (heading : Option Text) : Sections :=
  heading.elim s fun title => ⟨s.index + 1, some (title.take 256)⟩

section
variable {F : Type}

def Sections.place (s : Sections) (location : List (Text × Value F)) : List (Text × Value F) :=
  let numbered := if s.index = 0 then location else setItem location (txt "section") (.int s.index)
  s.title.elim numbered fun title => setItem numbered (txt "section_title") (.str title)

/-- `source_format in {"EPUB", "DOCX"}` -/
def SourceFormat.sectioned : SourceFormat → Bool
  | .epub | .docx => true
  | _ => false

variable (lower : Text → Text) (format : SourceFormat)

/-- One turn of `_format_native_items`. -/
def formatNativeItem (s : Sections) (x : NormalizedDocumentItem F) : Sections × NormalizedDocumentItem F :=
  let location :=
    if format.isImage ∧ lookup x.location (txt "page") = none then setItem x.location (txt "page") (.int 1)
    else x.location
  if format.sectioned then
    let s := s.enter (x.opens lower)
    (s, { x with location := s.place location })
  else (s, { x with location := location })

def formatNativeItemsFrom (s : Sections) : List (NormalizedDocumentItem F) → List (NormalizedDocumentItem F)
  | [] => []
  | x :: xs => (formatNativeItem lower format s x).2 :: formatNativeItemsFrom (formatNativeItem lower format s x).1 xs

/-- `_format_native_items` -/
def formatNativeItems (items : List (NormalizedDocumentItem F)) : List (NormalizedDocumentItem F) :=
  formatNativeItemsFrom lower format ⟨0, none⟩ items

/-- The items that are published of what a backend returned. -/
def publishedItems (items : List (NormalizedDocumentItem F)) : List (NormalizedDocumentItem F) :=
  formatNativeItems lower format (normalizedItems lower items)

/-- The texts of the headings, in their order. -/
def headings (items : List (NormalizedDocumentItem F)) : List Text := items.filterMap (·.opens lower)

end

/-! ## The container of an item -/

/-- The section that the headings read so far make. -/
def Sections.after (hs : List Text) : Sections := ⟨hs.length, hs.getLast?.map (·.take 256)⟩

section
variable {F : Type} {lower : Text → Text} {format : SourceFormat}

theorem Sections.enter_after (hs : List Text) (heading : Option Text) :
    (Sections.after hs).enter heading = Sections.after (hs ++ heading.toList) := by
  cases heading with
  | none => rw [Option.toList_none, List.append_nil]; rfl
  | some title => simp [Sections.after, Sections.enter]

theorem legacyItemRole_ne_nil (kind : Text) : legacyItemRole lower kind ≠ [] := by
  unfold legacyItemRole
  dsimp only
  split_ifs <;> decide

theorem roleName_ne_nil (x : NormalizedDocumentItem F) : x.roleName lower ≠ [] := by
  rw [NormalizedDocumentItem.roleName]
  split_ifs with h
  · exact legacyItemRole_ne_nil _
  · cases hrole : x.role with
    | none => exact absurd (.inl hrole) h
    | some role => exact fun hnil => h (.inr (by rw [hrole]; exact congrArg some hnil))

theorem roleName_normalizedItem (ordinal : Nat) (x : NormalizedDocumentItem F) :
    (normalizedItem lower ordinal x).roleName lower = x.roleName lower := by
  have hrole : (normalizedItem lower ordinal x).role = some (x.roleName lower) := rfl
  rw [NormalizedDocumentItem.roleName, hrole, if_neg]
  · rfl
  · rintro (h | h)
    · cases h
    · exact roleName_ne_nil x (Option.some.inj h)

/-- Normalizing changes neither the headings nor the locations. -/
theorem opens_normalizedItem (ordinal : Nat) (x : NormalizedDocumentItem F) :
    (normalizedItem lower ordinal x).opens lower = x.opens lower := by
  rw [NormalizedDocumentItem.opens, roleName_normalizedItem]
  rfl

theorem formatNativeItem_sectioned (h : format.sectioned = true) (hs : List Text) (x : NormalizedDocumentItem F) :
    formatNativeItem lower format (.after hs) x = (.after (hs ++ (x.opens lower).toList),
      { x with location := (Sections.after (hs ++ (x.opens lower).toList)).place x.location }) := by
  have himage : format.isImage = false := by
    cases format <;> first | rfl | cases h
  rw [formatNativeItem, if_pos h, himage]
  dsimp only
  rw [if_neg (fun h => Bool.false_ne_true h.1), Sections.enter_after]

theorem getElem?_formatNativeItemsFrom (h : format.sectioned = true) (hs : List Text)
    (before after : List (NormalizedDocumentItem F)) (x : NormalizedDocumentItem F) :
    (formatNativeItemsFrom lower format (.after hs) (before ++ x :: after))[before.length]? =
      some { x with location := (Sections.after (hs ++ headings lower (before ++ [x]))).place x.location } := by
  induction before generalizing hs with
  | nil =>
    rw [List.nil_append, formatNativeItemsFrom, formatNativeItem_sectioned h]
    simp [headings, List.filterMap_cons]
    cases x.opens lower <;> rfl
  | cons y before ih =>
    rw [List.cons_append, formatNativeItemsFrom, formatNativeItem_sectioned h, List.length_cons,
      List.getElem?_cons_succ, ih]
    have hheadings : headings lower (y :: before ++ [x]) = (y.opens lower).toList ++ headings lower (before ++ [x]) := by
      rw [headings, List.cons_append, List.filterMap_cons]
      cases y.opens lower <;> rfl
    rw [hheadings, List.append_assoc]

/-- The sections are numbered by the headings among the items themselves. -/
theorem getElem?_publishedItems (h : format.sectioned = true) (before after : List (NormalizedDocumentItem F))
    (x : NormalizedDocumentItem F) : (publishedItems lower format (before ++ x :: after))[before.length]? =
      some { normalizedItem lower (before.length + 1) x with
        location := (Sections.after (headings lower (before ++ [x]))).place x.location } := by
  have hheadings (xs : List (NormalizedDocumentItem F)) : headings lower (normalizedItems lower xs) = headings lower xs := by
    rw [headings, normalizedItems, List.filterMap_map, headings]
    conv_rhs => rw [← List.zipIdx_map_fst 1 xs, List.filterMap_map]
    exact List.filterMap_congr fun x _ => opens_normalizedItem _ _
  have hsplit : normalizedItems lower (before ++ x :: after) = normalizedItems lower before ++
      normalizedItem lower (before.length + 1) x ::
        (after.zipIdx (before.length + 2)).map fun y => normalizedItem lower y.2 y.1 := by
    rw [normalizedItems, List.zipIdx_append, List.map_append, List.zipIdx_cons, List.map_cons, normalizedItems,
      Nat.add_comm 1]
  have hone : normalizedItems lower before ++ [normalizedItem lower (before.length + 1) x] =
      normalizedItems lower (before ++ [x]) := by
    rw [normalizedItems, normalizedItems, List.zipIdx_append, List.map_append, Nat.add_comm 1]
    rfl
  have hlength : (normalizedItems lower before).length = before.length := by
    rw [normalizedItems, List.length_map, List.length_zipIdx]
  have hplace := @getElem?_formatNativeItemsFrom F lower format h [] (normalizedItems lower before)
    ((after.zipIdx (before.length + 2)).map fun y => normalizedItem lower y.2 y.1)
    (normalizedItem lower (before.length + 1) x)
  rw [List.nil_append, hone, hheadings, hlength, ← hsplit] at hplace
  exact hplace

end

end Steward.Documents
