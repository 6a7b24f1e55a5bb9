import Steward.Documents.QueryMaps

/-!
# The containers of matches

Matches and the items of a projection are placed by what stands before them in
their own list. A match of a PPTX is `Located` when the file of its slide has
the place of the slide, a match of a DOCX when no heading comes before it.
-/

namespace Steward.Documents

open Py

/-! ## Containers -/

/-- The coordinates of a container. -/
def containerKeys : List Text := [txt "slide", txt "section", txt "section_title"]

section
variable {F : Type}

/-- The same slide number, section and section title. -/
def SameContainer (location location' : List (Text × Value F)) : Prop :=
  ∀ k ∈ containerKeys, lookup location k = lookup location' k

/-- Every match is published in the container of the items that hold its text. -/
def Located (lower : Text → Text) (format : SourceFormat)
    (holds : NormalizedDocumentItem F → NormalizedDocumentItem F → Prop) (map full : List (NormalizedDocumentItem F)) :
    Prop :=
  ∀ (i j : Nat) (m f m' f' : NormalizedDocumentItem F), map[i]? = some m → full[j]? = some f → holds m f →
    (publishedItems lower format map)[i]? = some m' → (publishedItems lower format full)[j]? = some f' →
    SameContainer m'.location f'.location

variable {lower : Text → Text} {format : SourceFormat} {map full : List (NormalizedDocumentItem F)}
  {holds : NormalizedDocumentItem F → NormalizedDocumentItem F → Prop}

theorem split_of_getElem? {α : Type} {xs : List α} {i : Nat} {x : α} (h : xs[i]? = some x) :
    ∃ before after, xs = before ++ x :: after ∧ before.length = i := by
  obtain ⟨hi, rfl⟩ := List.getElem?_eq_some_iff.1 h
  exact ⟨xs.take i, xs.drop (i + 1), by simp, by simp [Nat.le_of_lt hi]⟩

/-! ### Slides -/

theorem formatNativeItemsFrom_pptx (s : Sections) (items : List (NormalizedDocumentItem F)) :
    formatNativeItemsFrom lower .pptx s items = items := by
  induction items with
  | nil => rfl
  | cons x items ih =>
    rw [formatNativeItemsFrom]
    exact congrArg (x :: ·) ih

theorem getElem?_publishedItems_pptx {i : Nat} {x y : NormalizedDocumentItem F} (hx : map[i]? = some x)
    (hy : (publishedItems lower .pptx map)[i]? = some y) : y.location = x.location := by
  rw [publishedItems, formatNativeItems, formatNativeItemsFrom_pptx, normalizedItems, List.getElem?_map,
    List.getElem?_zipIdx, hx] at hy
  rw [← Option.some.inj hy]
  rfl

theorem located_pptx_iff : Located lower .pptx holds map full ↔
    ∀ m ∈ map, ∀ f ∈ full, holds m f → SameContainer m.location f.location := by
  have hpublished (xs : List (NormalizedDocumentItem F)) : (publishedItems lower .pptx xs).length = xs.length := by
    rw [publishedItems, formatNativeItems, formatNativeItemsFrom_pptx, normalizedItems, List.length_map, List.length_zipIdx]
  constructor
  · intro h m hm f hf hholds
    obtain ⟨i, hi⟩ := List.mem_iff_getElem?.1 hm
    obtain ⟨j, hj⟩ := List.mem_iff_getElem?.1 hf
    obtain ⟨hi', -⟩ := List.getElem?_eq_some_iff.1 hi
    obtain ⟨hj', -⟩ := List.getElem?_eq_some_iff.1 hj
    have hm' := List.getElem?_eq_getElem ((hpublished map).symm ▸ hi')
    have hf' := List.getElem?_eq_getElem ((hpublished full).symm ▸ hj')
    have hsame := h i j m f _ _ hi hj hholds hm' hf'
    rwa [getElem?_publishedItems_pptx hi hm', getElem?_publishedItems_pptx hj hf'] at hsame
  · intro h i j m f m' f' hi hj hholds hm' hf'
    rw [getElem?_publishedItems_pptx hi hm', getElem?_publishedItems_pptx hj hf']
    exact h m (List.mem_of_getElem? hi) f (List.mem_of_getElem? hj) hholds

/-! ### Sections -/

/-- Where an item is placed after the items before it. -/
def placedAfter (lower : Text → Text) (before : List (NormalizedDocumentItem F)) (x : NormalizedDocumentItem F) :
    List (Text × Value F) := (Sections.after (headings lower (before ++ [x]))).place x.location

theorem located_sectioned_iff (h : format.sectioned = true) : Located lower format holds map full ↔
    ∀ before m after before' f after', map = before ++ m :: after → full = before' ++ f :: after' → holds m f →
      SameContainer (placedAfter lower before m) (placedAfter lower before' f) := by
  constructor
  · rintro hlocated before m after before' f after' rfl rfl hholds
    exact hlocated before.length before'.length m f _ _ (by simp) (by simp) hholds
      (getElem?_publishedItems h before after m) (getElem?_publishedItems h before' after' f)
  · intro hplaced i j m f m' f' hi hj hholds hm' hf'
    obtain ⟨before, after, rfl, rfl⟩ := split_of_getElem? hi
    obtain ⟨before', after', rfl, rfl⟩ := split_of_getElem? hj
    rw [getElem?_publishedItems h] at hm' hf'
    rw [← Option.some.inj hm', ← Option.some.inj hf']
    exact hplaced before m after before' f after' rfl rfl hholds

theorem place_after_nil (location : List (Text × Value F)) : (Sections.after []).place location = location := rfl

theorem place_after_concat (hs : List Text) (title : Text) (location : List (Text × Value F)) :
    (Sections.after (hs ++ [title])).place location =
      setItem (setItem location (txt "section") (.int (hs ++ [title]).length)) (txt "section_title")
        (.str (title.take 256)) := by
  simp [Sections.after, Sections.place]

theorem lookup_place_slide (hs : List Text) (location : List (Text × Value F)) :
    lookup ((Sections.after hs).place location) (txt "slide") = lookup location (txt "slide") := by
  rcases List.eq_nil_or_concat hs with rfl | ⟨hs, title, rfl⟩
  · rfl
  · rw [List.concat_eq_append, place_after_concat, lookup_setItem, lookup_setItem, if_neg (by decide), if_neg (by decide)]

theorem lookup_place_section (hs : List Text) (location : List (Text × Value F)) :
    lookup ((Sections.after hs).place location) (txt "section") =
      if hs = [] then lookup location (txt "section") else some (.int hs.length) := by
  rcases List.eq_nil_or_concat hs with rfl | ⟨hs, title, rfl⟩
  · rfl
  · rw [List.concat_eq_append, place_after_concat, lookup_setItem, lookup_setItem, if_neg (by decide), if_pos rfl,
      if_neg (by simp)]

theorem lookup_place_title (hs : List Text) (location : List (Text × Value F)) :
    lookup ((Sections.after hs).place location) (txt "section_title") =
      hs.getLast?.elim (lookup location (txt "section_title")) fun title => some (.str (title.take 256)) := by
  rcases List.eq_nil_or_concat hs with rfl | ⟨hs, title, rfl⟩
  · rfl
  · rw [List.concat_eq_append, place_after_concat, lookup_setItem, if_pos rfl, List.getLast?_concat]
    rfl

end

/-! ## Matches -/

section
variable {F : Type} {T : CharTable} {query : Text}

theorem appendStreamingMatches {drafts : List (StreamingDraft F)} {items out : List (NormalizedDocumentItem F)}
    (h : drafts.foldlM (appendStreamingMatch T query) items = .ok out) :
    out = items ++ drafts.filterMap (StreamingDraft.matched T query) := by
  induction drafts generalizing items with
  | nil => rw [List.filterMap_nil, List.append_nil]; exact (Except.ok.inj h).symm
  | cons d drafts ih =>
    rw [List.foldlM_cons] at h
    obtain ⟨next, hnext, h⟩ := bind_eq_ok.1 h
    rw [ih h, List.filterMap_cons, StreamingDraft.matched]
    rw [appendStreamingMatch] at hnext
    cases hexcerpt : streamingQueryExcerpt T d.text query with
    | none =>
      rw [hexcerpt] at hnext
      rw [← Except.ok.inj hnext]
      rfl
    | some excerpt =>
      rw [hexcerpt] at hnext
      dsimp only at hnext
      split_ifs at hnext
      rw [← Except.ok.inj hnext, List.append_assoc]
      rfl

theorem items_streamingDocxQueryMap {d : DocxPackage F} {map : QueryMap F}
    (h : streamingDocxQueryMap T query d = .ok map) : map.items = d.drafts.filterMap (StreamingDraft.matched T query) := by
  obtain ⟨blocks, hblocks, h⟩ := bind_eq_ok.1 h
  split_ifs at h
  · cases h
  · obtain ⟨items, hitems, h⟩ := bind_eq_ok.1 h
    rw [← Except.ok.inj h, appendStreamingMatches hitems, appendStreamingMatches hblocks, List.nil_append,
      DocxPackage.drafts, List.filterMap_append]

theorem readSlide_eq_ok {p : PptxPackage} {items out : List (NormalizedDocumentItem F)} {m : SlideMember} {slide : Nat}
    (h : readSlide T query p items m slide = .ok out) :
    out = items ++ (p.slideDrafts slide m).filterMap (StreamingDraft.matched T query) := by
  obtain ⟨texts, htexts, h⟩ := bind_eq_ok.1 h
  split_ifs at h
  · cases h
  · rw [appendStreamingMatches h, appendStreamingMatches htexts, List.append_assoc, PptxPackage.slideDrafts,
      List.filterMap_append]

theorem items_streamingPptxQueryMap {decimal : CodePoint → Option Nat} {p : PptxPackage} {map : QueryMap F}
    (h : streamingPptxQueryMap T query decimal p = .ok map) : map.items = ((p.slides decimal).zipIdx 1).flatMap fun m =>
      (p.slideDrafts m.2 m.1).filterMap (StreamingDraft.matched T query) := by
  obtain ⟨items, hitems, h⟩ := bind_eq_ok.1 h
  rw [← Except.ok.inj h]
  have hfold (slides : List (SlideMember × Nat)) {start out : List (NormalizedDocumentItem F)}
      (h : slides.foldlM (fun items m => readSlide T query p items m.1 m.2) start = .ok out) :
      out = start ++ slides.flatMap fun m => (p.slideDrafts m.2 m.1).filterMap (StreamingDraft.matched T query) := by
    induction slides generalizing start with
    | nil => rw [List.flatMap_nil, List.append_nil]; exact (Except.ok.inj h).symm
    | cons m slides ih =>
      rw [List.foldlM_cons] at h
      obtain ⟨next, hnext, h⟩ := bind_eq_ok.1 h
      rw [ih h, readSlide_eq_ok hnext, List.flatMap_cons, List.append_assoc]
  exact hfold _ hitems

end

/-! ## Which item holds a text -/

section
variable {F : Type}

/-- The text of a match is part of the text of the item. -/
def HoldsText (m f : NormalizedDocumentItem F) : Prop :=
  ∃ t u, m.textOrValue = some t ∧ f.textOrValue = some u ∧ t <:+: u

end

theorem eq_of_mem_zipIdx {α : Type} {xs : List α} {x y : α} {n i : Nat} (hx : (x, i) ∈ xs.zipIdx n)
    (hy : (y, i) ∈ xs.zipIdx n) : x = y := by
  rw [List.mk_mem_zipIdx_iff_le_and_getElem?_sub] at hx hy
  exact Option.some.inj (hx.2.symm.trans hy.2)

/-! ## PPTX -/

section
variable {F : Type} {slide : Nat}

/-- The location of an item of that slide. -/
def OnSlide (slide : Nat) (location : List (Text × Value F)) : Prop :=
  lookup location (txt "slide") = some (.int slide) ∧ lookup location (txt "section") = none ∧
    lookup location (txt "section_title") = none

theorem sameContainer_onSlide {r q : Nat} {a b : List (Text × Value F)} (ha : OnSlide r a) (hb : OnSlide q b) :
    SameContainer a b ↔ r = q := by
  rw [SameContainer, containerKeys, List.forall_mem_cons, List.forall_mem_cons, List.forall_mem_singleton, ha.1, hb.1,
    ha.2.1, hb.2.1, ha.2.2, hb.2.2]
  constructor
  · intro h
    exact Int.ofNat.inj (Value.int.inj (Option.some.inj h.1))
  · rintro rfl
    exact ⟨rfl, rfl, rfl⟩

theorem onSlide_slideDrafts (p : PptxPackage) (m : SlideMember) :
    ∀ d ∈ (p.slideDrafts slide m : List (StreamingDraft F)), OnSlide slide d.location := by
  intro d hd
  simp only [PptxPackage.slideDrafts, PptxPackage.relatedDrafts, List.mem_append, List.mem_flatMap, slideTextDrafts,
    notesDrafts, chartDrafts, List.mem_map] at hd
  rcases hd with ⟨t, -, rfl⟩ | ⟨part, -, t, -, rfl⟩ | ⟨part, -, root, -, rfl⟩
  · exact ⟨rfl, rfl, rfl⟩
  · exact ⟨rfl, rfl, rfl⟩
  · exact ⟨rfl, rfl, rfl⟩

theorem onSlide_shapeItems (shape : Nat) (s : PptxShape) :
    ∀ f ∈ (shapeItems slide shape s : List (NormalizedDocumentItem F)), OnSlide slide f.location := by
  intro f hf
  simp only [shapeItems, List.mem_append, List.mem_map, List.mem_flatMap, List.mem_cons, List.not_mem_nil,
    or_false] at hf
  rcases hf with (((rfl | ⟨t, -, rfl⟩) | htext) | ⟨rows, -, rfl | ⟨row, -, cell, -, rfl⟩⟩) | ⟨t, -, rfl⟩
  · exact ⟨rfl, rfl, rfl⟩
  · exact ⟨rfl, rfl, rfl⟩
  · split_ifs at htext
    · obtain rfl := List.mem_singleton.1 htext
      exact ⟨rfl, rfl, rfl⟩
    · cases htext
  · exact ⟨rfl, rfl, rfl⟩
  · exact ⟨rfl, rfl, rfl⟩
  · exact ⟨rfl, rfl, rfl⟩

theorem onSlide_slideItems (s : PptxSlide) :
    ∀ f ∈ (slideItems slide s : List (NormalizedDocumentItem F)), OnSlide slide f.location := by
  intro f hf
  simp only [slideItems, List.mem_append, List.mem_map, List.mem_flatMap, List.mem_cons, List.cons_append] at hf
  rcases hf with rfl | ⟨p, -, hf⟩ | ⟨t, -, rfl⟩
  · exact ⟨rfl, rfl, rfl⟩
  · exact onSlide_shapeItems _ _ f hf
  · exact ⟨rfl, rfl, rfl⟩

variable (F) (T : CharTable) (query : Text) (decimal : CodePoint → Option Nat)

/-- The item is on the slide that the match was found in, and holds its text. -/
def PptxPackage.Holds (p : PptxPackage) (m f : NormalizedDocumentItem F) : Prop :=
  HoldsText m f ∧ ∃ s r t q, (s, r) ∈ (p.slides decimal).zipIdx 1 ∧ (t, q) ∈ p.presentation.zipIdx 1 ∧
    s.name = t.member ∧ lookup m.location (txt "slide") = some (.int r) ∧ lookup f.location (txt "slide") = some (.int q)

/-- A slide with a match whose text is projected has, by the number in its name, the place that it has in the
presentation. -/
def PptxPackage.Aligned (p : PptxPackage) : Prop :=
  ∀ s r t q, (s, r) ∈ (p.slides decimal).zipIdx 1 → (t, q) ∈ p.presentation.zipIdx 1 → s.name = t.member →
    (∃ d ∈ p.slideDrafts r s, ∃ m : NormalizedDocumentItem F, d.matched T query = some m ∧
      ∃ f ∈ slideItems q t, HoldsText m f) → r = q

variable {F T query decimal} {lower : Text → Text}

theorem matched_location {d : StreamingDraft F} {m : NormalizedDocumentItem F} (h : d.matched T query = some m) :
    m.location = d.location := by
  obtain ⟨excerpt, -, rfl⟩ := Option.map_eq_some_iff.1 h
  rfl

theorem located_streamingPptx {p : PptxPackage} {map : QueryMap F} (h : streamingPptxQueryMap T query decimal p = .ok map) :
    Located lower .pptx (p.Holds F decimal) map.items (pptxProjection p) ↔ p.Aligned F T query decimal := by
  rw [located_pptx_iff, items_streamingPptxQueryMap h]
  constructor
  · rintro hlocated s r t q hs ht hname ⟨d, hd, m, hm, f, hf, htext⟩
    have hslide := onSlide_slideDrafts p s d hd
    rw [← matched_location hm] at hslide
    have hslide' := onSlide_slideItems t f hf
    refine (sameContainer_onSlide hslide hslide').1 (hlocated m ?_ f ?_ ⟨htext, s, r, t, q, hs, ht, hname, hslide.1, hslide'.1⟩)
    · exact List.mem_flatMap.2 ⟨(s, r), hs, List.mem_filterMap.2 ⟨d, hd, hm⟩⟩
    · exact List.mem_cons_of_mem _ (List.mem_flatMap.2 ⟨(t, q), ht, hf⟩)
  · rintro haligned m hm f hf ⟨htext, s, r, t, q, hs, ht, hname, hmslide, hfslide⟩
    obtain ⟨⟨s', r'⟩, hs', hm⟩ := List.mem_flatMap.1 hm
    obtain ⟨d, hd, hdm⟩ := List.mem_filterMap.1 hm
    have hslide := onSlide_slideDrafts p s' d hd
    rw [← matched_location hdm] at hslide
    obtain rfl : r' = r := Int.ofNat.inj (Value.int.inj (Option.some.inj (hslide.1.symm.trans hmslide)))
    obtain rfl := eq_of_mem_zipIdx hs' hs
    rcases List.mem_cons.1 hf with rfl | hf
    · exact absurd hfslide (by simp [pptxItem, lookup_cons, show txt "presentation" ≠ txt "slide" by decide])
    · obtain ⟨⟨t', q'⟩, ht', hf⟩ := List.mem_flatMap.1 hf
      have hslide' := onSlide_slideItems t' f hf
      obtain rfl : q' = q := Int.ofNat.inj (Value.int.inj (Option.some.inj (hslide'.1.symm.trans hfslide)))
      obtain rfl := eq_of_mem_zipIdx ht' ht
      exact (sameContainer_onSlide hslide hslide').2 (haligned _ _ _ _ hs ht hname ⟨d, hd, m, hdm, f, hf, htext⟩)

end

/-! ## DOCX -/

section
variable {F : Type}

/-- A location without a container. -/
def Unplaced (location : List (Text × Value F)) : Prop := ∀ k ∈ containerKeys, lookup location k = none

theorem unplaced_iff {location : List (Text × Value F)} : Unplaced location ↔ lookup location (txt "slide") = none ∧
    lookup location (txt "section") = none ∧ lookup location (txt "section_title") = none := by
  rw [Unplaced, containerKeys, List.forall_mem_cons, List.forall_mem_cons, List.forall_mem_singleton]

/-- Without a container of its own, an item has none until there is a heading. -/
theorem sameContainer_unplaced {a b : List (Text × Value F)} (ha : Unplaced a) (hb : Unplaced b) (hs : List Text) :
    SameContainer a ((Sections.after hs).place b) ↔ hs = [] := by
  constructor
  · intro h
    have hsection := h (txt "section") (by decide)
    rw [(unplaced_iff.1 ha).2.1, lookup_place_section] at hsection
    split_ifs at hsection with hnil
    exact hnil
  · rintro rfl k hk
    rw [place_after_nil, ha k hk, hb k hk]

theorem unplaced_drafts (d : DocxPackage F) : ∀ x ∈ d.drafts, Unplaced x.location := by
  intro x hx
  rw [DocxPackage.drafts, List.mem_append, List.mem_flatMap] at hx
  rw [unplaced_iff]
  rcases hx with hx | ⟨⟨name, part⟩, hpart, hx⟩
  · obtain ⟨t, -, rfl⟩ := List.mem_map.1 hx
    exact ⟨rfl, rfl, rfl⟩
  · obtain ⟨n, -, rfl⟩ := List.mem_map.1 hx
    obtain ⟨⟨name', part'⟩, hmem, hname⟩ := List.mem_filterMap.1 hpart
    obtain ⟨_, -, heq⟩ := Option.map_eq_some_iff.1 hname
    obtain rfl : name' = name := (Prod.mk.inj heq).1
    simp only [List.mem_cons, Prod.mk.injEq, List.not_mem_nil, or_false] at hmem
    rcases hmem with ⟨rfl, -⟩ | ⟨rfl, -⟩ | ⟨rfl, -⟩ <;> exact ⟨rfl, rfl, rfl⟩

/-- No match of a DOCX is a heading. -/
theorem opens_drafts {lower : Text → Text} (d : DocxPackage F) (excerpt : Text) :
    ∀ x ∈ d.drafts, (x.item excerpt).opens lower = none := by
  intro x hx
  rw [DocxPackage.drafts, List.mem_append, List.mem_flatMap] at hx
  rcases hx with hx | ⟨part, -, hx⟩
  · obtain ⟨t, -, rfl⟩ := List.mem_map.1 hx
    rfl
  · obtain ⟨n, -, rfl⟩ := List.mem_map.1 hx
    rfl

theorem unplaced_docxItem (item : DocxItem) : Unplaced (item.native : NormalizedDocumentItem F).location := by
  rw [unplaced_iff]
  cases item <;> exact ⟨rfl, rfl, rfl⟩

theorem unplaced_auxiliaryItem (a : AuxiliaryItem F) : Unplaced a.native.location := by
  rw [unplaced_iff]
  obtain ⟨kind, text, identifier, extension⟩ := a
  cases kind <;> exact ⟨rfl, rfl, rfl⟩

variable {T : CharTable} {query : Text} {lower : Text → Text}

/-- An item that holds the text of a match has no heading before it, and is none. -/
def DocxPackage.Aligned (T : CharTable) (query : Text) (lower : Text → Text) (d : DocxPackage F)
    (full : List (NormalizedDocumentItem F)) : Prop :=
  ∀ x ∈ d.drafts, ∀ m, x.matched T query = some m → ∀ before f after, full = before ++ f :: after → HoldsText m f →
    headings lower (before ++ [f]) = []

theorem headings_matched (T : CharTable) (query : Text) (lower : Text → Text) (d : DocxPackage F) :
    headings lower (d.drafts.filterMap (StreamingDraft.matched T query)) = [] := by
  refine List.filterMap_eq_nil_iff.2 fun m hm => ?_
  obtain ⟨x, hx, hxm⟩ := List.mem_filterMap.1 hm
  obtain ⟨excerpt, -, rfl⟩ := Option.map_eq_some_iff.1 hxm
  exact opens_drafts d excerpt x hx

theorem located_streamingDocx {d : DocxPackage F} {map : QueryMap F} {full : List (NormalizedDocumentItem F)}
    {table : CaseTable} {fuel : Nat} (h : streamingDocxQueryMap T query d = .ok map)
    (hfull : docxProjection table fuel d = some full) :
    Located lower .docx HoldsText map.items full ↔ d.Aligned T query lower full := by
  have hunplaced : ∀ f ∈ full, Unplaced f.location := by
    obtain ⟨projection, -, rfl⟩ := Option.map_eq_some_iff.1 hfull
    intro f hf
    rcases List.mem_append.1 hf with hf | hf
    · obtain ⟨item, -, rfl⟩ := List.mem_map.1 hf
      exact unplaced_docxItem item
    · obtain ⟨a, -, rfl⟩ := List.mem_map.1 hf
      exact unplaced_auxiliaryItem a
  have hmatch {before after : List (NormalizedDocumentItem F)} {m : NormalizedDocumentItem F}
      (hmap : map.items = before ++ m :: after) : placedAfter lower before m = m.location := by
    have hnone : headings lower (before ++ [m]) = [] := by
      have hall := headings_matched T query lower d
      rw [← items_streamingDocxQueryMap h, hmap, headings, List.append_cons, List.filterMap_append,
        List.append_eq_nil_iff] at hall
      exact hall.1
    rw [placedAfter, hnone, place_after_nil]
  rw [located_sectioned_iff rfl]
  constructor
  · intro hlocated x hx m hm before' f after' hf hholds
    have hmem : m ∈ map.items := by
      rw [items_streamingDocxQueryMap h]
      exact List.mem_filterMap.2 ⟨x, hx, hm⟩
    obtain ⟨before, after, hmap⟩ := List.append_of_mem hmem
    have hsame := hlocated before m after before' f after' hmap hf hholds
    rw [hmatch hmap] at hsame
    exact (sameContainer_unplaced (matched_location hm ▸ unplaced_drafts d x hx)
      (hunplaced f (hf ▸ List.mem_append_right _ List.mem_cons_self)) _).1 hsame
  · intro haligned before m after before' f after' hmap hf hholds
    have hmem : m ∈ map.items := hmap ▸ List.mem_append_right _ List.mem_cons_self
    rw [items_streamingDocxQueryMap h] at hmem
    obtain ⟨x, hx, hm⟩ := List.mem_filterMap.1 hmem
    rw [hmatch hmap]
    exact (sameContainer_unplaced (matched_location hm ▸ unplaced_drafts d x hx)
      (hunplaced f (hf ▸ List.mem_append_right _ List.mem_cons_self)) _).2 (haligned x hx m hm before' f after' hf hholds)

end

end Steward.Documents
