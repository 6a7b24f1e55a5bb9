import Steward.Documents.Containers

/-!
# Where query maps find their matches

The map of an EPUB numbers the headings that match, the projection the headings
that its budget keeps. `queryMap_located_iff` says for every kind of package when
all matches are published in the containers of the items that hold their texts.
-/

namespace Steward.Documents

open Py

/-! ## What the budget keeps -/

namespace EpubBudget

def keeps (b : EpubBudget) (o : EpubOffer) : Bool := decide (Eligible b.structureOnly o) && !b.full o.native.bytes

/-- The budget when the offer has been made. -/
def after (b : EpubBudget) (o : EpubOffer) : EpubBudget :=
  if Eligible b.structureOnly o then if b.full o.native.bytes then b.omit else b.charge o.native.bytes else b

end EpubBudget

/-- Offers, and whether what is kept of them is published. -/
abbrev EpubRun := List (EpubOffer × Bool)

def keptRun : EpubBudget → EpubRun → List EpubOffer
  | _, [] => []
  | b, x :: run => (if x.2 && b.keeps x.1 then [x.1] else []) ++ keptRun (b.after x.1) run

def spentRun (b : EpubBudget) (run : EpubRun) : EpubBudget := run.foldl (fun b x => b.after x.1) b

/-- The texts of the parse that counts. -/
def memberTexts (casefold : Text → Text) (index : Nat) (m : EpubMember) : List EpubOffer :=
  textOffers index m.title (if m.malformed then tolerantTexts casefold m else strictTexts m)

/-- The offers of a member; those of a parse that broke off spend the budget, and are dropped. -/
def memberRun (casefold : Text → Text) (index : Nat) (m : EpubMember) : EpubRun :=
  (sectionOffer index m.title, true) :: (droppedOffers index m).map (fun o => (o, false)) ++
    (memberTexts casefold index m).map fun o => (o, true)

/-- The texts of all members, in their order. -/
def epubTexts (casefold : Text → Text) (members : List EpubMember) : List EpubOffer :=
  (members.zipIdx 1).flatMap fun m => memberTexts casefold m.2 m.1

/-- The offers that the projection of the whole document publishes. -/
def keptOffers (casefold : Text → Text) (view : Text) (members : List EpubMember) : List EpubOffer :=
  keptRun (.fresh view) ((members.zipIdx 1).flatMap fun m => memberRun casefold m.2 m.1)

theorem keptRun_append (b : EpubBudget) (xs ys : EpubRun) :
    keptRun b (xs ++ ys) = keptRun b xs ++ keptRun (spentRun b xs) ys := by
  induction xs generalizing b with
  | nil => rfl
  | cons x xs ih => rw [List.cons_append, keptRun, keptRun, ih, List.append_assoc]; rfl

theorem spentRun_append (b : EpubBudget) (xs ys : EpubRun) : spentRun b (xs ++ ys) = spentRun (spentRun b xs) ys :=
  List.foldl_append

theorem keptRun_dropped (b : EpubBudget) (offers : List EpubOffer) : keptRun b (offers.map fun o => (o, false)) = [] := by
  induction offers generalizing b with
  | nil => rfl
  | cons o offers ih => rw [List.map_cons, keptRun, ih]; rfl

theorem spentRun_map (b : EpubBudget) (offers : List EpubOffer) (published : Bool) :
    spentRun b (offers.map fun o => (o, published)) = offers.foldl EpubBudget.after b := by
  rw [spentRun, List.foldl_map]

theorem mem_keptRun {b : EpubBudget} {run : EpubRun} {o : EpubOffer} (h : o ∈ keptRun b run) : (o, true) ∈ run := by
  induction run generalizing b with
  | nil => cases h
  | cons x run ih =>
    rw [keptRun, List.mem_append] at h
    rcases h with h | h
    · split_ifs at h with hx
      · obtain rfl := List.mem_singleton.1 h
        rw [Bool.and_eq_true] at hx
        rw [← hx.1]
        exact List.mem_cons_self
      · cases h
    · exact List.mem_cons_of_mem _ (ih h)

theorem accepted_after (b : EpubBudget) (o : EpubOffer) :
    (b.after o).acceptedItems = b.acceptedItems + if b.keeps o then 1 else 0 := by
  unfold EpubBudget.after EpubBudget.keeps
  by_cases heligible : Eligible b.structureOnly o <;> by_cases hfull : b.full o.native.bytes = true <;>
    simp [heligible, hfull, EpubBudget.omit, EpubBudget.charge]

theorem accepted_spentRun (b : EpubBudget) (run : EpubRun) :
    b.acceptedItems + (keptRun b run).length ≤ (spentRun b run).acceptedItems := by
  induction run generalizing b with
  | nil => exact Nat.le_refl _
  | cons x run ih =>
    have hrest := ih (b.after x.1)
    have hone : (if x.2 && b.keeps x.1 then [x.1] else []).length ≤ if b.keeps x.1 then 1 else 0 := by
      cases x.2 <;> cases b.keeps x.1 <;> simp
    rw [accepted_after] at hrest
    rw [keptRun, List.length_append]
    exact (by omega : _ ≤ _).trans hrest

section
variable {b : EpubBudget}

theorem append_keeps (T : CharTable) {items : List EpubItem} (hitems : items.length ≤ b.acceptedItems + 1)
    (o : EpubOffer) : appendEpubProjectionItem T none (items, some b) o =
      .ok (items ++ if b.keeps o then [o.native] else [], some (b.after o)) := by
  by_cases heligible : Eligible b.structureOnly o
  · by_cases hfull : b.full o.native.bytes = true
    · rw [append_omit heligible hfull]
      simp [EpubBudget.keeps, EpubBudget.after, heligible, hfull]
    · rw [append_charge T hitems heligible (Bool.eq_false_iff.2 hfull)]
      simp [EpubBudget.keeps, EpubBudget.after, heligible, hfull]
  · rw [append_skip heligible]
    simp [EpubBudget.keeps, EpubBudget.after, heligible]

theorem offers_keep (T : CharTable) (offers : List EpubOffer) {items : List EpubItem}
    (hitems : items.length ≤ b.acceptedItems + 1) :
    offers.foldlM (appendEpubProjectionItem T none) (items, some b) =
      .ok (items ++ (keptRun b (offers.map fun o => (o, true))).map EpubOffer.native,
        some (offers.foldl EpubBudget.after b)) := by
  induction offers generalizing items b with
  | nil => rw [List.map_nil, keptRun, List.map_nil, List.append_nil]; rfl
  | cons o offers ih =>
    have hitems' : (items ++ if b.keeps o then [o.native] else []).length ≤ (b.after o).acceptedItems + 1 := by
      rw [accepted_after, List.length_append]
      split_ifs <;> simp only [List.length_cons, List.length_nil] <;> omega
    rw [List.foldlM_cons, append_keeps T hitems, ok_bind_ok, ih hitems', List.map_cons, keptRun, List.map_append,
      List.foldl_cons, List.append_assoc]
    cases b.keeps o <;> rfl

end

/-- The budget when the parse is over that is dropped. -/
def EpubBudget.beforeTexts (b : EpubBudget) (index : Nat) (m : EpubMember) : EpubBudget :=
  (droppedOffers index m).foldl EpubBudget.after (b.after (sectionOffer index m.title))

theorem spentRun_member (b : EpubBudget) (casefold : Text → Text) (index : Nat) (m : EpubMember) :
    spentRun b (memberRun casefold index m) =
      (memberTexts casefold index m).foldl EpubBudget.after (b.beforeTexts index m) := by
  rw [memberRun, spentRun_append, spentRun_map, spentRun, List.foldl_cons, List.foldl_map]
  rfl

theorem keptRun_member (b : EpubBudget) (casefold : Text → Text) (index : Nat) (m : EpubMember) :
    keptRun b (memberRun casefold index m) =
      (if b.keeps (sectionOffer index m.title) then [sectionOffer index m.title] else []) ++
        keptRun (b.beforeTexts index m) ((memberTexts casefold index m).map fun o => (o, true)) := by
  rw [memberRun, keptRun_append, keptRun, keptRun_dropped, List.append_nil, Bool.true_and, spentRun, List.foldl_cons,
    List.foldl_map]
  rfl

theorem projectMember_keeps {T : CharTable} {casefold : Text → Text} {s : EpubState} {b : EpubBudget}
    (hbudget : s.budget = some b) (hitems : s.items.length ≤ b.acceptedItems + 1) (index : Nat) (m : EpubMember) :
    ∃ s', projectMember T casefold none s index m = .ok s' ∧
      s'.items = s.items ++ (keptRun b (memberRun casefold index m)).map EpubOffer.native ∧
      s'.budget = some (spentRun b (memberRun casefold index m)) := by
  have hempty {b : EpubBudget} : ([] : List EpubItem).length ≤ b.acceptedItems + 1 := Nat.zero_le _
  have hsection : (if b.keeps (sectionOffer index m.title) then [(sectionOffer index m.title).native] else []) =
      (if b.keeps (sectionOffer index m.title) then [sectionOffer index m.title] else []).map EpubOffer.native := by
    split_ifs <;> rfl
  rw [spentRun_member, keptRun_member, EpubBudget.beforeTexts, memberTexts, droppedOffers, projectMember, if_pos rfl, hbudget,
    append_keeps T hitems, hsection, ok_bind_ok, List.map_append]
  dsimp only
  rw [offers_keep T _ hempty, ok_bind_ok]
  dsimp only
  by_cases hmalformed : m.malformed = true
  · rw [if_pos hmalformed, if_pos hmalformed, if_pos hmalformed, offers_keep T _ hempty, ok_bind_ok]
    exact ⟨_, rfl, List.append_assoc .., rfl⟩
  · rw [if_neg hmalformed, if_neg hmalformed, if_neg hmalformed]
    exact ⟨_, rfl, List.append_assoc .., rfl⟩

theorem members_keep (T : CharTable) (casefold : Text → Text) (members : List (EpubMember × Nat)) {s : EpubState}
    {b : EpubBudget} (hbudget : s.budget = some b) (hitems : s.items.length ≤ b.acceptedItems + 1) : ∃ s',
      members.foldlM (fun s m => projectMember T casefold none s m.2 m.1) s = .ok s' ∧
        s'.items = s.items ++ (keptRun b (members.flatMap fun m => memberRun casefold m.2 m.1)).map EpubOffer.native := by
  induction members generalizing s b with
  | nil => exact ⟨s, rfl, (List.append_nil _).symm⟩
  | cons m members ih =>
    obtain ⟨s₁, hrun, hkept, hbudget₁⟩ := @projectMember_keeps T casefold _ _ hbudget hitems m.2 m.1
    have hitems₁ : s₁.items.length ≤ (spentRun b (memberRun casefold m.2 m.1)).acceptedItems + 1 := by
      have hspent := accepted_spentRun b (memberRun casefold m.2 m.1)
      rw [hkept, List.length_append, List.length_map]
      omega
    obtain ⟨s₂, hrun₂, hkept₂⟩ := ih hbudget₁ hitems₁
    refine ⟨s₂, ?_, ?_⟩
    · rw [List.foldlM_cons, hrun, ok_bind_ok, hrun₂]
    · rw [hkept₂, hkept, List.append_assoc, List.flatMap_cons, keptRun_append, List.map_append]

/-- Under its document item, the projection publishes what the budget keeps. -/
theorem nativeEpubProjection_eq (T : CharTable) (casefold : Text → Text) (view : Text) (e : EpubPackage) {F : Type} :
    nativeEpubProjection T casefold view e = some ((epubDocumentItem.published : NormalizedDocumentItem F) ::
      (keptOffers casefold view e.members).map fun o => o.native.published) := by
  obtain ⟨s, hrun, hitems⟩ := @members_keep T casefold (e.members.zipIdx 1)
    ⟨[epubDocumentItem], some (.fresh view), 0, e.warnings⟩ (.fresh view) rfl (Nat.le_refl _)
  rw [nativeEpubProjection, epubProjection, if_pos rfl, hrun]
  exact congrArg some (by simp [hitems, keptOffers])

/-! ## What the map of an EPUB finds -/

section
variable (T : CharTable) (query : Text)

/-- The item that a match is published as. -/
def EpubOffer.found (o : EpubOffer) : Option EpubItem :=
  if collapsed o.text = [] then none
  else (streamingQueryExcerpt T (collapsed o.text) query).map fun excerpt => o.item excerpt true

variable {T query}

theorem append_found {items : List EpubItem} {o : EpubOffer} {out : List EpubItem × Option EpubBudget}
    (h : appendEpubProjectionItem T (some query) (items, none) o = .ok out) :
    out = (items ++ (o.found T query).toList, none) := by
  simp only [appendEpubProjectionItem] at h
  rw [EpubOffer.found]
  by_cases hnil : collapsed o.text = []
  · rw [if_pos hnil] at h
    rw [if_pos hnil, ← Except.ok.inj h, Option.toList_none, List.append_nil]
  · rw [if_neg hnil] at h
    rw [if_neg hnil]
    cases hexcerpt : streamingQueryExcerpt T (collapsed o.text) query with
    | none =>
      rw [hexcerpt] at h
      rw [← Except.ok.inj h, Option.map_none, Option.toList_none, List.append_nil]
    | some excerpt =>
      rw [hexcerpt] at h
      simp only [Option.isSome_some, if_true] at h
      split_ifs at h
      rw [← Except.ok.inj h]
      rfl

theorem offers_found {offers : List EpubOffer} {items : List EpubItem} {out : List EpubItem × Option EpubBudget}
    (h : offers.foldlM (appendEpubProjectionItem T (some query)) (items, none) = .ok out) :
    out = (items ++ offers.filterMap (EpubOffer.found T query), none) := by
  induction offers generalizing items with
  | nil => rw [List.filterMap_nil, List.append_nil]; exact (Except.ok.inj h).symm
  | cons o offers ih =>
    rw [List.foldlM_cons] at h
    obtain ⟨next, hnext, h⟩ := bind_eq_ok.1 h
    obtain rfl := append_found hnext
    rw [ih h, List.append_assoc, List.filterMap_cons]
    cases o.found T query <;> rfl

theorem projectMember_found {casefold : Text → Text} {s s' : EpubState} {index : Nat} {m : EpubMember}
    (hbudget : s.budget = none) (h : projectMember T casefold (some query) s index m = .ok s') :
    s'.items = s.items ++ (memberTexts casefold index m).filterMap (EpubOffer.found T query) ∧ s'.budget = none := by
  rw [projectMember, if_neg (Option.some_ne_none _), hbudget] at h
  obtain ⟨start, hstart, h⟩ := bind_eq_ok.1 h
  obtain rfl := Except.ok.inj hstart
  obtain ⟨strict, hstrict, h⟩ := bind_eq_ok.1 h
  obtain rfl := offers_found hstrict
  rw [memberTexts]
  dsimp only at h
  split_ifs at h ⊢
  · obtain ⟨tolerant, htolerant, h⟩ := bind_eq_ok.1 h
    obtain rfl := offers_found htolerant
    rw [← Except.ok.inj h]
    exact ⟨rfl, rfl⟩
  · rw [← Except.ok.inj h]
    exact ⟨rfl, rfl⟩

theorem members_found {casefold : Text → Text} {members : List (EpubMember × Nat)} {s s' : EpubState}
    (hbudget : s.budget = none)
    (h : members.foldlM (fun s m => projectMember T casefold (some query) s m.2 m.1) s = .ok s') :
    s'.items = s.items ++ (members.flatMap fun m => memberTexts casefold m.2 m.1).filterMap (EpubOffer.found T query) := by
  induction members generalizing s with
  | nil => rw [← Except.ok.inj h, List.flatMap_nil, List.filterMap_nil, List.append_nil]
  | cons m members ih =>
    rw [List.foldlM_cons] at h
    obtain ⟨next, hnext, h⟩ := bind_eq_ok.1 h
    obtain ⟨hitems, hnone⟩ := projectMember_found hbudget hnext
    rw [ih hnone h, hitems, List.append_assoc, List.flatMap_cons, List.filterMap_append]

theorem items_streamingEpubQueryMap {F : Type} {casefold : Text → Text} {e : EpubPackage} {map : QueryMap F}
    (h : streamingEpubQueryMap T casefold query e = .ok map) :
    map.items = ((epubTexts casefold e.members).filterMap (EpubOffer.found T query)).map EpubItem.published := by
  rw [streamingEpubQueryMap] at h
  split at h
  · rename_i projection hprojection
    rw [epubProjection, if_neg (Option.some_ne_none _)] at hprojection
    obtain ⟨s, hs, hprojection⟩ := bind_eq_ok.1 hprojection
    rw [← Except.ok.inj h, ← Except.ok.inj hprojection]
    dsimp only
    rw [members_found rfl hs]
    rfl
  · cases h

end

/-! ## The sections of an EPUB -/

/-- The first characters of the last heading. -/
def lastTitle (hs : List Text) : Option Text := hs.getLast?.map (·.take 256)

/-- As many headings as the files so far, the last with the name of the file. -/
def CountsFiles (index : Nat) (title : Text) (hs : List Text) : Prop := hs.length = index ∧ lastTitle hs = some title

/-- Two lists of headings lead a text of the file `index` into one section: they are as many with the same last title,
or one is empty, and the other counts the files. -/
def SameSection (index : Nat) (title : Text) (hs hs' : List Text) : Prop :=
  (hs.length = hs'.length ∧ lastTitle hs = lastTitle hs') ∨
    (hs = [] ∧ CountsFiles index title hs') ∨ (hs' = [] ∧ CountsFiles index title hs)

section
variable {F : Type}

theorem sameContainer_sectionText {index ordinal : Nat} {title : Text} {hs hs' : List Text} :
    SameContainer ((Sections.after hs).place (EpubLocation.sectionText index title ordinal).fields : List (Text × Value F))
      ((Sections.after hs').place (EpubLocation.sectionText index title ordinal).fields) ↔ SameSection index title hs hs' := by
  have hindex : lookup ((EpubLocation.sectionText index title ordinal).fields : List (Text × Value F)) (txt "section") =
      some (.int index) := rfl
  have htitle : lookup ((EpubLocation.sectionText index title ordinal).fields : List (Text × Value F)) (txt "section_title") =
      some (.str title) := rfl
  rw [SameContainer, containerKeys, List.forall_mem_cons, List.forall_mem_cons, List.forall_mem_singleton, lookup_place_slide,
    lookup_place_slide, lookup_place_section, lookup_place_section, lookup_place_title, lookup_place_title, hindex, htitle]
  rcases List.eq_nil_or_concat hs with rfl | ⟨hs, t, rfl⟩ <;> rcases List.eq_nil_or_concat hs' with rfl | ⟨hs', t', rfl⟩
  · simp [SameSection]
  · simp [SameSection, CountsFiles, lastTitle]
    grind
  · simp [SameSection, CountsFiles, lastTitle]
    omega
  · simp [SameSection, lastTitle]

theorem fields_injective {l l' : EpubLocation} (h : (l.fields : List (Text × Value F)) = l'.fields) : l = l' := by
  cases l <;> cases l' <;> simp_all [EpubLocation.fields]

end

/-! ### Texts by their locations -/

theorem mem_textOffers {index : Nat} {title : Text} {texts : List TagText} {o : EpubOffer} (h : o ∈ textOffers index title texts) :
    ∃ t j, (t, j) ∈ texts.zipIdx ∧
      o = ⟨t.2, txt "epub_section_text", tagRole t.1, sectionNode index, .sectionText index title (j + 1), none⟩ := by
  obtain ⟨⟨t, j⟩, ht, rfl⟩ := List.mem_map.1 h
  exact ⟨t, j, ht, rfl⟩

/-- The file and the ordinal tell which text it is. -/
theorem eq_of_location {casefold : Text → Text} {view : Text} {members : List EpubMember} {o o' : EpubOffer}
    (ho : o ∈ epubTexts casefold members) (ho' : o' ∈ keptOffers casefold view members) (h : o.location = o'.location) :
    o = o' := by
  obtain ⟨⟨m, i⟩, hm, ho⟩ := List.mem_flatMap.1 ho
  obtain ⟨⟨m', i'⟩, hm', ho'⟩ := List.mem_flatMap.1 (mem_keptRun ho')
  obtain ⟨t, j, ht, rfl⟩ := mem_textOffers ho
  rw [memberRun, List.mem_append, List.mem_cons, List.mem_map, List.mem_map] at ho'
  rcases ho' with (hsection | ⟨o₁, -, hdropped⟩) | ⟨o₁, ho₁, htext⟩
  · obtain rfl := (Prod.mk.inj hsection).1
    cases h
  · cases (Prod.mk.inj hdropped).2
  · obtain rfl := (Prod.mk.inj htext).1
    obtain ⟨t', j', ht', rfl⟩ := mem_textOffers ho₁
    obtain ⟨hindex, htitle, hordinal⟩ := EpubLocation.sectionText.inj h
    dsimp only at hindex htitle hordinal hm hm'
    subst hindex
    obtain rfl := eq_of_mem_zipIdx hm hm'
    obtain rfl : j = j' := Nat.succ.inj hordinal
    obtain rfl := eq_of_mem_zipIdx ht ht'
    rfl

section
variable (F : Type) (T : CharTable) (query : Text) (lower : Text → Text)

/-- The headings of the matches among the offers, as the map publishes them. -/
def matchedHeadings (offers : List EpubOffer) : List Text :=
  headings lower ((offers.filterMap (EpubOffer.found T query)).map (EpubItem.published (F := F)))

/-- The headings among the offers, as the projection publishes them. -/
def projectedHeadings (offers : List EpubOffer) : List Text :=
  headings lower (offers.map fun o => (o.native.published : NormalizedDocumentItem F))

/-- Up to a match that is kept, the headings that match and the headings that are kept lead into one section. -/
def EpubPackage.Aligned (casefold : Text → Text) (view : Text) (e : EpubPackage) : Prop :=
  ∀ o index title ordinal, o.location = .sectionText index title ordinal → (o.found T query).isSome = true →
    ∀ xs ys us vs, epubTexts casefold e.members = xs ++ o :: ys → keptOffers casefold view e.members = us ++ o :: vs →
      SameSection index title (matchedHeadings F T query lower (xs ++ [o])) (projectedHeadings F lower (us ++ [o]))

end

section
variable {F : Type} {T : CharTable} {query : Text} {lower : Text → Text}

theorem location_found {o : EpubOffer} {i : EpubItem} (h : o.found T query = some i) : i.location = o.location := by
  rw [EpubOffer.found] at h
  split_ifs at h
  obtain ⟨excerpt, -, rfl⟩ := Option.map_eq_some_iff.1 h
  rfl

theorem location_mem_epubTexts {casefold : Text → Text} {members : List EpubMember} {o : EpubOffer}
    (h : o ∈ epubTexts casefold members) : ∃ index title ordinal, o.location = .sectionText index title ordinal := by
  obtain ⟨m, -, ho⟩ := List.mem_flatMap.1 h
  obtain ⟨t, j, -, rfl⟩ := mem_textOffers ho
  exact ⟨_, _, _, rfl⟩

/-- Where a match stands among the texts of the members. -/
theorem found_split {offers : List EpubOffer} {before after : List (NormalizedDocumentItem F)} {x : NormalizedDocumentItem F}
    (h : (offers.filterMap (EpubOffer.found T query)).map EpubItem.published = before ++ x :: after) : ∃ xs o ys i,
      offers = xs ++ o :: ys ∧ o.found T query = some i ∧ x = i.published ∧
        before = (xs.filterMap (EpubOffer.found T query)).map EpubItem.published := by
  obtain ⟨found, rest, hfound, rfl, hrest⟩ := List.map_eq_append_iff.1 h
  obtain ⟨i, rest, rfl, rfl, rfl⟩ := List.map_eq_cons_iff.1 hrest
  obtain ⟨xs, ws, rfl, rfl, hws⟩ := List.filterMap_eq_append_iff.1 hfound
  obtain ⟨zs, o, ys, rfl, hzs, ho, -⟩ := List.filterMap_eq_cons_iff.1 hws
  refine ⟨xs ++ zs, o, ys, i, by simp, ho, rfl, ?_⟩
  rw [List.filterMap_append, List.filterMap_eq_nil_iff.2 hzs, List.append_nil]

/-- Where an item stands among the offers that are kept. -/
theorem kept_split {offers : List EpubOffer} {before after : List (NormalizedDocumentItem F)} {x : NormalizedDocumentItem F}
    (h : epubDocumentItem.published :: offers.map (fun o => o.native.published) = before ++ x :: after)
    (hx : x ≠ epubDocumentItem.published) : ∃ us o vs, offers = us ++ o :: vs ∧ x = o.native.published ∧
      before = epubDocumentItem.published :: us.map fun o => o.native.published := by
  cases before with
  | nil => exact absurd (List.cons.inj h).1.symm hx
  | cons y before =>
    obtain ⟨rfl, htail⟩ := List.cons.inj h
    obtain ⟨us, ws, rfl, rfl, hws⟩ := List.map_eq_append_iff.1 htail
    obtain ⟨o, vs, rfl, rfl, rfl⟩ := List.map_eq_cons_iff.1 hws
    exact ⟨us, o, vs, rfl, rfl, rfl⟩

theorem located_streamingEpub {casefold : Text → Text} {view : Text} {e : EpubPackage} {map : QueryMap F}
    {full : List (NormalizedDocumentItem F)} (h : streamingEpubQueryMap T casefold query e = .ok map)
    (hfull : nativeEpubProjection T casefold view e = some full) :
    Located lower .epub (fun m f => m.location = f.location) map.items full ↔ e.Aligned F T query lower casefold view := by
  obtain rfl := Option.some.inj ((nativeEpubProjection_eq T casefold view e).symm.trans hfull)
  rw [located_sectioned_iff rfl, items_streamingEpubQueryMap h]
  -- the document item is no heading
  have hplaced (us : List EpubOffer) (o : EpubOffer) :
      placedAfter lower (epubDocumentItem.published :: us.map fun o => o.native.published)
        (o.native.published : NormalizedDocumentItem F) =
      (Sections.after (projectedHeadings F lower (us ++ [o]))).place o.location.fields := by
    rw [placedAfter, projectedHeadings, List.map_append]
    rfl
  have hfound {xs : List EpubOffer} {o : EpubOffer} {i : EpubItem} (hi : o.found T query = some i) :
      placedAfter lower ((xs.filterMap (EpubOffer.found T query)).map EpubItem.published)
        (i.published : NormalizedDocumentItem F) =
      (Sections.after (matchedHeadings F T query lower (xs ++ [o]))).place o.location.fields := by
    rw [placedAfter, matchedHeadings, List.filterMap_append, List.map_append, List.filterMap_cons, hi, ← location_found hi]
    rfl
  constructor
  · intro hlocated o index title ordinal hlocation ho xs ys us vs htexts hkept
    obtain ⟨i, hi⟩ := Option.isSome_iff_exists.1 ho
    have hsame := hlocated ((xs.filterMap (EpubOffer.found T query)).map EpubItem.published) i.published
      ((ys.filterMap (EpubOffer.found T query)).map EpubItem.published)
      (epubDocumentItem.published :: us.map fun o => o.native.published) o.native.published
      (vs.map fun o => o.native.published)
      (by rw [htexts, List.filterMap_append, List.filterMap_cons, hi, List.map_append]; rfl)
      (by rw [hkept, List.map_append]; rfl) (congrArg EpubLocation.fields (location_found hi))
    rw [hfound hi, hplaced, hlocation] at hsame
    exact sameContainer_sectionText.1 hsame
  · intro haligned before m after before' f after' hmap hprojection hholds
    obtain ⟨xs, o, ys, i, htexts, hi, rfl, rfl⟩ := found_split hmap
    have hmem : o ∈ epubTexts casefold e.members := htexts ▸ List.mem_append_right _ List.mem_cons_self
    obtain ⟨index, title, ordinal, hlocation⟩ := location_mem_epubTexts hmem
    have hitem : i.location = .sectionText index title ordinal := (location_found hi).trans hlocation
    have hdocument : f ≠ epubDocumentItem.published := by
      rintro rfl
      have hfields : (i.location.fields : List (Text × Value F)) = EpubLocation.document.fields := hholds
      cases hitem.symm.trans (fields_injective hfields)
    obtain ⟨us, o', vs, hkept, rfl, rfl⟩ := kept_split hprojection hdocument
    have hlocations : o.location = o'.location := (location_found hi).symm.trans (fields_injective hholds)
    obtain rfl := eq_of_location hmem (hkept ▸ List.mem_append_right _ List.mem_cons_self) hlocations
    rw [hfound hi, hplaced, hlocation]
    exact sameContainer_sectionText.2
      (haligned o index title ordinal hlocation (by rw [hi]; rfl) xs ys us vs htexts hkept)

end

/-! ## Packages -/

section
variable {F : Type} (P : PackageTables)

/-- The items of the full projection in which the text of a match is: of a DOCX those that hold it, of a PPTX those on
the slide it was found in, of an EPUB the item of the same element. -/
def Package.Holds : Package F → NormalizedDocumentItem F → NormalizedDocumentItem F → Prop
  | docx _ => HoldsText
  | pptx p => p.Holds F P.decimal
  | epub _ => fun m f => m.location = f.location

/-- No heading above what matches in a DOCX, files in the order of the slides for a PPTX, and for an EPUB headings that
match where headings are kept. -/
def Package.Aligned (query view : Text) (full : List (NormalizedDocumentItem F)) : Package F → Prop
  | docx d => d.Aligned P.chars query P.lower full
  | pptx p => p.Aligned F P.chars query P.decimal
  | epub e => e.Aligned F P.chars query P.lower P.casefold view

variable {P} {query view : Text} {fuel : Nat} {d : Package F} {map : QueryMap F} {full : List (NormalizedDocumentItem F)}

/-- The matches are published in the containers of the items that hold their texts exactly when the document is aligned
with what matches in it. -/
theorem queryMap_located_iff (hmap : streamingPackageQueryMap P query d = .ok map)
    (hfull : fullProjection P view fuel d = some full) :
    Located P.lower d.format (d.Holds P) map.items full ↔ d.Aligned P query view full := by
  cases d with
  | docx d => exact located_streamingDocx hmap hfull
  | pptx p =>
    obtain rfl := Option.some.inj hfull
    exact located_streamingPptx hmap
  | epub e => exact located_streamingEpub hmap hfull

end

namespace Sample

/-- What the interpreter knows of ASCII, and of its digits. -/
def packageTables : PackageTables where
  chars := asciiTable
  cases := caseTable
  casefold := id
  lower := id
  decimal c := if 48 ≤ c.val ∧ c.val ≤ 57 then some (c.val - 48) else none

def slideMember (name text : Text) : SlideMember := ⟨name, [⟨txt "p", [some text]⟩], false, [], false⟩

def slideOf (name text : Text) : PptxSlide := ⟨name, [⟨0, 0, true, none, text, none, none⟩], none⟩

def oneSlide : PptxPackage :=
  ⟨[slideMember (txt "ppt/slides/slide1.xml") (txt "ab")], [], [slideOf (txt "ppt/slides/slide1.xml") (txt "ab")]⟩

/-- Two slides, of which the second file, without a text, is presented first. -/
def movedSlides : PptxPackage :=
  ⟨[slideMember (txt "ppt/slides/slide1.xml") (txt "ab"), ⟨txt "ppt/slides/slide2.xml", [], false, [], false⟩], [],
    [⟨txt "ppt/slides/slide2.xml", [], none⟩, slideOf (txt "ppt/slides/slide1.xml") (txt "ab")]⟩

/-- The map of `ab`. -/
def slideMatch (slides : Nat) : QueryMap Unit where
  items := [⟨txt "pptx_text", some (txt "ab"), some (txt "slide:1"), [(txt "slide", .int 1), (txt "paragraph", .int 1)],
    some [(txt "streaming_query_map", .bool true)], none, some (txt "PARAGRAPH")⟩]
  containers := slides
  warnings := []

theorem oneSlide_map : streamingPackageQueryMap packageTables (txt "ab") (.pptx oneSlide) = .ok (slideMatch 1) := rfl

theorem slides_movedSlides : movedSlides.slides packageTables.decimal = movedSlides.members := by
  have hfilter : movedSlides.members.filter (fun m => (slideNumber packageTables.decimal m.name).isSome) = movedSlides.members := rfl
  rw [PptxPackage.slides, hfilter]
  rfl

theorem movedSlides_map : streamingPackageQueryMap packageTables (txt "ab") (.pptx movedSlides) = .ok (slideMatch 2) := by
  rw [streamingPackageQueryMap, streamingPptxQueryMap, slides_movedSlides]
  rfl

/-- A single slide is first by its name and in the presentation. -/
theorem oneSlide_located :
    Located id .pptx ((.pptx oneSlide : Package Unit).Holds packageTables) (slideMatch 1).items (pptxProjection oneSlide) := by
  refine (@queryMap_located_iff Unit packageTables (txt "ab") (txt "READ") 0 (.pptx oneSlide) _ _ oneSlide_map rfl).2 ?_
  rintro s r t q hs ht - -
  have hs : (s, r) ∈ [(slideMember (txt "ppt/slides/slide1.xml") (txt "ab"), 1)] := hs
  have ht : (t, q) ∈ [(slideOf (txt "ppt/slides/slide1.xml") (txt "ab"), 1)] := ht
  rw [List.mem_singleton] at hs ht
  exact (Prod.mk.inj hs).2.trans (Prod.mk.inj ht).2.symm

/-- The match is in the first file, and on the second slide. -/
theorem movedSlides_misplaced :
    streamingPackageQueryMap packageTables (txt "ab") (.pptx movedSlides) = .ok (slideMatch 2) ∧
      fullProjection packageTables (txt "READ") 0 (.pptx movedSlides : Package Unit) = some (pptxProjection movedSlides) ∧
      ¬ Located id .pptx ((.pptx movedSlides : Package Unit).Holds packageTables) (slideMatch 2).items
        (pptxProjection movedSlides) := by
  refine ⟨movedSlides_map, rfl, fun h => ?_⟩
  have hslides : (slideMember (txt "ppt/slides/slide1.xml") (txt "ab"), 1) ∈ (movedSlides.slides packageTables.decimal).zipIdx 1 := by
    rw [slides_movedSlides]
    exact List.mem_cons_self
  have hsame := located_pptx_iff.1 h _ List.mem_cons_self (pptxItem "pptx_text" (some (txt "PARAGRAPH")) (some (txt "ab"))
    (some (txt "slide:2:shape:1")) [(txt "slide", .int 2), (txt "shape", .int 1)])
    (List.mem_cons_of_mem _ (List.mem_flatMap.2 ⟨(slideOf (txt "ppt/slides/slide1.xml") (txt "ab"), 2),
      List.mem_cons_of_mem _ List.mem_cons_self, List.mem_cons_of_mem _ (List.mem_cons_of_mem _ List.mem_cons_self)⟩))
    ⟨⟨_, _, rfl, rfl, List.infix_refl _⟩, _, 1, _, 2, hslides, List.mem_cons_of_mem _ List.mem_cons_self, rfl, rfl, rfl⟩
  have hslide := hsame (txt "slide") (by decide)
  exact absurd (Value.int.inj (Option.some.inj hslide)) (by decide)

end Sample

end Steward.Documents
