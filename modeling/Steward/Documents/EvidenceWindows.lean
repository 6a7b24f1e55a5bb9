import Steward.Agent.Budget
import Steward.Documents.EvidencePages
import Steward.Documents.Excerpts
import Steward.Documents.ExecutionPlan

/-!
# Evidence windows

`_targeted_evidence_selection`: the pages and the containers of the items that
match a query, and the window of pages that is parsed again. Asking for the first
omitted page until none is omitted goes through all matched pages, and through all
matched containers unless a PDF has some that are no page
(`evidenceWindows_iff`).
-/

namespace Steward.Documents

open Py Agent

variable {F : Type}

/-- `MAX_TARGETED_EVIDENCE_PAGES` -/
def maxTargetedEvidencePages : Int := 8

/-! ## Containers -/

/-- The id of a container; `page n` is the text `page:n`, and so on. -/
inductive ContainerId where
  | page (n : Int) | sheet (title : Text) | slide (n : Int) | section (n : Int) | document
  deriving DecidableEq

def ContainerId.kind : ContainerId → Text
  | .page _ => txt "PAGE"
  | .sheet _ => txt "SHEET"
  | .slide _ => txt "SLIDE"
  | .section _ => txt "SECTION"
  | .document => txt "DOCUMENT"

def strValue : Value F → Option Text
  | .str t => some t
  | _ => none

/-- `_native_container`, without the label. -/
def nativeContainerId (item : NormalizedDocumentItem F) (sourceFormat : SourceFormat) : ContainerId :=
  let field (key : String) : Value F := Value.get item.location (txt key)
  match sourceFormat with
  | .pdf => ((intValue (field "page")).map ContainerId.page).getD .document
  | .png | .jpeg | .tiff =>
    ((intValue ((lookup item.location (txt "page")).getD (.int 1))).map ContainerId.page).getD .document
  | .xlsx => ((strValue (field "sheet")).map ContainerId.sheet).getD .document
  | .pptx => ((intValue (field "slide")).map ContainerId.slide).getD .document
  | .docx | .epub => ((intValue (field "section")).map ContainerId.section).getD .document

/-- The label that `_native_container` gives an item. -/
def nativeLabel (item : NormalizedDocumentItem F) (sourceFormat : SourceFormat) : Text :=
  match nativeContainerId item sourceFormat with
  | .page n => txt "page " ++ Text.ofInt n
  | .sheet title => txt "sheet \"" ++ title ++ txt "\""
  | .slide n => txt "slide " ++ Text.ofInt n
  | .section n =>
    let label := txt "section " ++ Text.ofInt n
    match Value.get item.location (txt "section_title") with
    | .str title => if title = [] then label else label ++ txt " \"" ++ title ++ txt "\""
    | _ => label
  | .document =>
    match Value.get item.location (txt "ordinal") with
    | .int n => txt "item " ++ Text.ofInt n
    | .bool b => txt (if b then "item True" else "item False")
    | _ => item.kind

/-! ## The window -/

/-- A window of pages, and the pages behind it. -/
structure PageWindow where
  start : Int
  stop : Int
  omitted : List Int

/-- The window at the first of the remaining pages. -/
def pageWindow (remainingPages : List Int) : Option PageWindow :=
  match remainingPages.head?, remainingPages.getLast? with
  | some first, some last =>
    if last - first + 1 ≤ maxTargetedEvidencePages then some ⟨first, last, []⟩
    else
      let stop := first + maxTargetedEvidencePages - 1
      some ⟨first, stop, remainingPages.filter (stop < ·)⟩
  | _, _ => none

/-- `container_id.startswith("page:")`, and the number behind it lies in the window. -/
def ContainerId.inWindow (window : PageWindow) : ContainerId → Bool
  | .page n => window.start ≤ n ∧ n ≤ window.stop
  | _ => false

def evidencePageMismatch : RuntimeFailure :=
  ⟨txt "INVALID_ARGUMENT", txt "requested evidence page does not match the query"⟩

section
variable (T : CharTable) (items : List (NormalizedDocumentItem F)) (query : Text)

/-- The items that match, with their matches. -/
def matchedItems : List (NormalizedDocumentItem F × DocumentTextMatch) :=
  items.filterMap fun item => (T.matchDocumentText item.textOrValue query).map fun found => (item, found)

/-- `pages`: the numbers from 1 on of the pages with a match, in order. -/
def matchedPages : List Int :=
  sortedKeys (((matchedItems T items query).filterMap fun matched => matched.1.page).filter (1 ≤ ·))

/-- The window for a requested page, which has to be a page with a match. -/
def requestedWindow (requestedPage : Option Int) : Except RuntimeFailure (Option PageWindow) :=
  let pages := matchedPages T items query
  match requestedPage with
  | none => .ok (pageWindow pages)
  | some page => if page ∈ pages then .ok (pageWindow (pages.filter (page ≤ ·))) else .error evidencePageMismatch

/-- The strategy that a selection names. -/
def selectionStrategy (sourceFormat : SourceFormat) (mapProfile : AttemptProfile) : Text :=
  let mapped := if mapProfile = .map then txt "STREAMING" else txt "FAST"
  if sourceFormat = .pdf ∧ mapProfile = .map then txt "STREAMING_QUERY_MAP_PAGE_LOCAL_PROJECTION"
  else if sourceFormat = .pdf then mapped ++ txt "_QUERY_MAP_THEN_TARGETED_DEEP_PAGE_RANGE"
  else mapped ++ txt "_QUERY_MAP_THEN_NATIVE_CONTAINER_QUALITY"

/-- The selection of the window. -/
def windowSelection (sourceFormat : SourceFormat) (mapProfile : AttemptProfile) (window : Option PageWindow) :
    DocumentExecutionSelection ContainerId :=
  let matched := matchedItems T items query
  let containerItems := groupBy (nativeContainerId · sourceFormat) items
  let matchedContainers := groupBy (fun found => nativeContainerId found.1 sourceFormat) matched
  let matchedContainerIds := matchedContainers.map Prod.fst
  let pdfWindow := if sourceFormat = .pdf then window else none
  let selectedContainerIds := match pdfWindow with
    | some window => matchedContainerIds.filter (ContainerId.inWindow window)
    | none => matchedContainerIds
  let omittedContainerIds := match pdfWindow with
    | some _ => matchedContainerIds.filter (· ∉ selectedContainerIds)
    | none => []
  { strategy := selectionStrategy sourceFormat mapProfile
    matchMode := documentMatchMode (matched.map fun found => found.2.mode)
    mapProfile
    mappedItemCount := items.length
    matchedItemCount := matched.length
    matchedPageNumbers := matchedPages T items query
    selectedPageStart := window.map PageWindow.start
    selectedPageEnd := window.map PageWindow.stop
    omittedMatchedPageNumbers := (window.map PageWindow.omitted).getD []
    matchedContainerIds
    selectedContainerIds
    omittedMatchedContainerIds := omittedContainerIds
    containerQualities := matchedContainers.map fun container =>
      { containerId := container.1
        containerKind := container.1.kind
        nativeLabel := (container.2.getLast?.map fun found => nativeLabel found.1 sourceFormat).getD []
        matchedItemCount := container.2.length
        quality := assessDocumentQuality T (groupOf containerItems container.1) (txt "COMPLETE") .read } }

/-- `_targeted_evidence_selection` -/
def targetedEvidenceSelection (sourceFormat : SourceFormat) (mapProfile : AttemptProfile) (requestedPage : Option Int) :
    Except RuntimeFailure (DocumentExecutionSelection ContainerId) := do
  let window ← requestedWindow T items query requestedPage
  return windowSelection T items query sourceFormat mapProfile window

end

/-! ## Windows over increasing pages -/

/-- The window at the first page ends within its size, and leaves the pages behind its end. -/
theorem pageWindow_cons {page : Int} {rest : List Int} (hsorted : (page :: rest).Pairwise (· < ·)) :
    ∃ stop, pageWindow (page :: rest) = some ⟨page, stop, (page :: rest).filter (stop < ·)⟩ ∧
      page ≤ stop ∧ stop - page + 1 ≤ maxTargetedEvidencePages := by
  have hne : page :: rest ≠ [] := List.cons_ne_nil _ _
  have hlast := List.getLast?_eq_some_getLast hne
  have hmax : ∀ x ∈ page :: rest, x ≤ (page :: rest).getLast hne := by
    intro x hx
    obtain ⟨front, hfront⟩ := List.getLast?_eq_some_iff.1 hlast
    rw [hfront] at hsorted hx
    rcases List.mem_append.1 hx with hx | hx
    · exact Int.le_of_lt ((List.pairwise_append.1 hsorted).2.2 x hx _ (List.mem_singleton_self _))
    · rw [List.mem_singleton.1 hx]
  unfold pageWindow
  rw [List.head?_cons, hlast]
  dsimp only
  split_ifs with hfits
  · refine ⟨_, ?_, hmax page List.mem_cons_self, hfits⟩
    rw [List.filter_eq_nil_iff.2 fun x hx hlt => absurd (hmax x hx) (Int.not_le.2 (of_decide_eq_true hlt))]
  · refine ⟨_, rfl, ?_, ?_⟩ <;> unfold maxTargetedEvidencePages <;> omega

/-- The windows from the first page on, each at the first page that the last one left. -/
inductive Windowed : List Int → List PageWindow → Prop
  | nil : Windowed [] []
  | cons {remaining : List Int} {window : PageWindow} {windows : List PageWindow} :
    pageWindow remaining = some window → Windowed window.omitted windows → Windowed remaining (window :: windows)

theorem exists_windowed {remaining : List Int} (hsorted : remaining.Pairwise (· < ·)) :
    ∃ windows, Windowed remaining windows := by
  induction hlen : remaining.length using Nat.strong_induction_on generalizing remaining with
  | h n ih =>
    cases remaining with
    | nil => exact ⟨[], .nil⟩
    | cons page rest =>
      obtain ⟨stop, hwindow, hle, -⟩ := pageWindow_cons hsorted
      have hshort : ((page :: rest).filter (stop < ·)).length < n := by
        rw [List.filter_cons_of_neg (by rw [decide_eq_true_eq]; omega), ← hlen]
        exact Nat.lt_succ_of_le (List.length_filter_le _ _)
      obtain ⟨windows, hwindows⟩ := ih _ hshort (hsorted.sublist List.filter_sublist) rfl
      exact ⟨_, .cons hwindow hwindows⟩

theorem Windowed.eq_nil_iff {remaining : List Int} {windows : List PageWindow} (h : Windowed remaining windows) :
    windows = [] ↔ remaining = [] := by
  cases h with
  | nil => exact iff_of_true rfl rfl
  | cons hwindow =>
    refine iff_of_false (List.cons_ne_nil _ _) ?_
    rintro rfl
    cases hwindow

/-- What the windows over some pages are. -/
structure WindowsLaw (remaining : List Int) (windows : List PageWindow) : Prop where
  sized : ∀ window ∈ windows, window.start ≤ window.stop ∧ window.stop - window.start + 1 ≤ maxTargetedEvidencePages
  inside : ∀ window ∈ windows, window.start ∈ remaining
  apart : windows.Pairwise fun a b => a.stop < b.start
  covered : ∀ page ∈ remaining, ∃ window ∈ windows, window.start ≤ page ∧ page ≤ window.stop

theorem Windowed.law {remaining : List Int} {windows : List PageWindow} (h : Windowed remaining windows)
    (hsorted : remaining.Pairwise (· < ·)) : WindowsLaw remaining windows := by
  induction h with
  | nil => exact ⟨nofun, nofun, .nil, nofun⟩
  | @cons remaining window windows hwindow hrest ih =>
    cases remaining with
    | nil => cases hwindow
    | cons page rest =>
      obtain ⟨stop, heq, hle, hsize⟩ := pageWindow_cons hsorted
      rw [heq] at hwindow
      obtain rfl := Option.some.inj hwindow
      have hlaw : WindowsLaw ((page :: rest).filter (stop < ·)) windows := ih (hsorted.sublist List.filter_sublist)
      refine ⟨fun w hw => ?_, fun w hw => ?_, List.pairwise_cons.2 ⟨fun w hw => ?_, hlaw.apart⟩, fun q hq => ?_⟩
      · rcases List.mem_cons.1 hw with rfl | hw
        · exact ⟨hle, hsize⟩
        · exact hlaw.sized w hw
      · rcases List.mem_cons.1 hw with rfl | hw
        · exact List.mem_cons_self
        · exact List.mem_of_mem_filter (hlaw.inside w hw)
      · exact of_decide_eq_true (List.mem_filter.1 (hlaw.inside w hw)).2
      · by_cases hbehind : stop < q
        · obtain ⟨w, hw, hin⟩ := hlaw.covered q (List.mem_filter.2 ⟨hq, decide_eq_true hbehind⟩)
          exact ⟨w, List.mem_cons_of_mem _ hw, hin⟩
        · refine ⟨_, List.mem_cons_self, ?_, Int.not_lt.1 hbehind⟩
          rcases List.mem_cons.1 hq with rfl | hq
          · exact Int.le_refl _
          · exact Int.le_of_lt (List.rel_of_pairwise_cons hsorted hq)

/-! ## Asking for the omitted pages -/

/-- The results of asking for the first omitted page, from a request on, until none is omitted. -/
inductive Enumerates {C : Type} (select : Option Int → Except RuntimeFailure (DocumentExecutionSelection C)) :
    Option Int → List (DocumentExecutionSelection C) → Prop
  | last {requested : Option Int} {result : DocumentExecutionSelection C} :
    select requested = .ok result → result.omittedMatchedPageNumbers = [] → Enumerates select requested [result]
  | next {requested : Option Int} {result : DocumentExecutionSelection C} {page : Int} {rest : List Int}
    {results : List (DocumentExecutionSelection C)} :
    select requested = .ok result → result.omittedMatchedPageNumbers = page :: rest →
    Enumerates select (some page) results → Enumerates select requested (result :: results)

section
variable {T : CharTable} {items : List (NormalizedDocumentItem F)} {query : Text} {sourceFormat : SourceFormat}
  {mapProfile : AttemptProfile} {requested : Option Int} {window : Option PageWindow}

theorem targetedEvidenceSelection_eq (h : requestedWindow T items query requested = .ok window) :
    targetedEvidenceSelection T items query sourceFormat mapProfile requested =
      .ok (windowSelection T items query sourceFormat mapProfile window) := by
  unfold targetedEvidenceSelection
  rw [h]
  rfl

/-- Only a requested page without a match is refused. -/
theorem targetedEvidenceSelection_error {failure : RuntimeFailure}
    (h : targetedEvidenceSelection T items query sourceFormat mapProfile requested = .error failure) :
    failure = evidencePageMismatch ∧ ∃ page, requested = some page ∧ page ∉ matchedPages T items query := by
  unfold targetedEvidenceSelection requestedWindow at h
  cases requested with
  | none => cases h
  | some page =>
    dsimp only at h
    split_ifs at h with hpage
    · cases h
    · exact ⟨(Except.error.inj h).symm, page, rfl, hpage⟩

theorem matchedPages_increasing : (matchedPages T items query).Pairwise (· < ·) := by
  have hsorted : (matchedPages T items query).Pairwise (· ≤ ·) := List.pairwise_insertionSort _ _
  exact (hsorted.and nodup_sortedKeys).imp fun h => lt_of_le_of_ne h.1 h.2

/-- The pages from the first of some last pages on are those pages. -/
theorem requestedWindow_omitted {page : Int} {rest : List Int} {after : Int}
    (h : (matchedPages T items query).filter (after < ·) = page :: rest) :
    requestedWindow T items query (some page) = .ok (pageWindow (page :: rest)) := by
  have hpage : page ∈ (matchedPages T items query).filter (after < ·) := h ▸ List.mem_cons_self
  have hsorted : (page :: rest).Pairwise (· < ·) := h ▸ matchedPages_increasing.sublist List.filter_sublist
  unfold requestedWindow
  dsimp only
  rw [if_pos (List.mem_of_mem_filter hpage), ← h]
  refine congrArg (fun pages => Except.ok (pageWindow pages)) (List.filter_congr fun q hq => decide_eq_decide.2 ?_)
  constructor
  · have hlt : after < page := of_decide_eq_true (List.mem_filter.1 hpage).2
    exact fun hle => lt_of_lt_of_le hlt hle
  · intro hlt
    have hmem : q ∈ page :: rest := h ▸ List.mem_filter.2 ⟨hq, decide_eq_true hlt⟩
    rcases List.mem_cons.1 hmem with rfl | hmem
    · exact Int.le_refl _
    · exact Int.le_of_lt (List.rel_of_pairwise_cons hsorted hmem)

/-- Asking on gives the windows over the pages that are left. -/
theorem enumerates_of_windowed {remaining : List Int} {windows : List PageWindow} (h : Windowed remaining windows)
    (hne : windows ≠ []) {after : Int} (hremaining : remaining = (matchedPages T items query).filter (after < ·))
    (hrequested : requestedWindow T items query requested = .ok (pageWindow remaining)) :
    Enumerates (targetedEvidenceSelection T items query sourceFormat mapProfile) requested
      (windows.map fun window => windowSelection T items query sourceFormat mapProfile (some window)) := by
  induction h generalizing requested after with
  | nil => exact absurd rfl hne
  | @cons remaining window windows hwindow hrest ih =>
    rw [hwindow] at hrequested
    have hselect : targetedEvidenceSelection T items query sourceFormat mapProfile requested = _ :=
      targetedEvidenceSelection_eq hrequested
    cases remaining with
    | nil => cases hwindow
    | cons page rest =>
      have hsorted : (page :: rest).Pairwise (· < ·) := hremaining ▸ matchedPages_increasing.sublist List.filter_sublist
      have hafter : after < page :=
        of_decide_eq_true (List.mem_filter.1 (hremaining ▸ List.mem_cons_self : page ∈ _)).2
      obtain ⟨stop, heq, hle, -⟩ := pageWindow_cons hsorted
      rw [heq] at hwindow
      obtain rfl := Option.some.inj hwindow
      have homitted : (page :: rest).filter (stop < ·) = (matchedPages T items query).filter (stop < ·) := by
        rw [hremaining, List.filter_filter]
        refine List.filter_congr fun q _ => ?_
        rw [Bool.eq_iff_iff, Bool.and_eq_true, decide_eq_true_eq, decide_eq_true_eq]
        omega
      rw [List.map_cons]
      by_cases hnext : (page :: rest).filter (stop < ·) = []
      · rw [(Windowed.eq_nil_iff hrest).2 hnext]
        exact .last hselect hnext
      · obtain ⟨q, behind, hcons⟩ := List.exists_cons_of_ne_nil hnext
        refine .next hselect hcons (ih (fun hnil => hnext ((Windowed.eq_nil_iff hrest).1 hnil)) homitted ?_)
        show requestedWindow T items query (some q) = .ok (pageWindow ((page :: rest).filter (stop < ·)))
        rw [hcons]
        exact requestedWindow_omitted (homitted ▸ hcons)

/-- Every result is the selection of a window that some request gets. -/
theorem Enumerates.exists_window {results : List (DocumentExecutionSelection ContainerId)}
    (h : Enumerates (targetedEvidenceSelection T items query sourceFormat mapProfile) requested results) :
    ∀ result ∈ results, ∃ page window, requestedWindow T items query page = .ok window ∧
      result = windowSelection T items query sourceFormat mapProfile window := by
  have hselection : ∀ {page : Option Int} {result : DocumentExecutionSelection ContainerId},
      targetedEvidenceSelection T items query sourceFormat mapProfile page = .ok result →
      ∃ page window, requestedWindow T items query page = .ok window ∧
        result = windowSelection T items query sourceFormat mapProfile window := by
    intro page result hselect
    obtain ⟨window, hwindow, heq⟩ := bind_eq_ok.1 hselect
    exact ⟨page, window, hwindow, (pure_eq_ok.1 heq).symm⟩
  induction h with
  | last hselect _ =>
    intro result hresult
    rw [List.mem_singleton.1 hresult]
    exact hselection hselect
  | next hselect _ _ ih =>
    intro result hresult
    rcases List.mem_cons.1 hresult with rfl | hresult
    · exact hselection hselect
    · exact ih result hresult

end

/-! ## What is enumerated -/

section
variable (T : CharTable) (items : List (NormalizedDocumentItem F)) (query : Text) (sourceFormat : SourceFormat)

/-- A page, from 1 on, with an item that matches. -/
def PageMatched (page : Int) : Prop :=
  1 ≤ page ∧ ∃ item ∈ items, T.matchDocumentText item.textOrValue query ≠ none ∧ item.page = some page

/-- A container with an item that matches. -/
def ContainerMatched (container : ContainerId) : Prop :=
  ∃ item ∈ items, T.matchDocumentText item.textOrValue query ≠ none ∧ nativeContainerId item sourceFormat = container

/-- The page lies in the window of the selection. -/
def DocumentExecutionSelection.covers {C : Type} (result : DocumentExecutionSelection C) (page : Int) : Bool :=
  match result.selectedPageStart, result.selectedPageEnd with
  | some first, some last => first ≤ page ∧ page ≤ last
  | _, _ => false

/-- The results enumerate the matches: their windows the matched pages, and their selections the matched
containers. -/
structure EnumeratesMatches (results : List (DocumentExecutionSelection ContainerId)) : Prop where
  sized : ∀ result ∈ results, ∀ first last, result.selectedPageStart = some first →
    result.selectedPageEnd = some last → last - first + 1 ≤ maxTargetedEvidencePages
  disjoint : results.Pairwise fun a b => ∀ page, a.covers page = true → b.covers page = false
  pages : ∀ page, PageMatched T items query page → results.countP (fun result => result.covers page) = 1
  partition : ∀ result ∈ results, result.matchedContainerIds.Nodup ∧
    (∀ container, container ∈ result.matchedContainerIds ↔ ContainerMatched T items query sourceFormat container) ∧
    (result.selectedContainerIds ++ result.omittedMatchedContainerIds).Perm result.matchedContainerIds
  containers : ∀ container, ContainerMatched T items query sourceFormat container →
    ∃ result ∈ results, container ∈ result.selectedContainerIds

variable {T items query sourceFormat} {mapProfile : AttemptProfile} {window : Option PageWindow}

theorem mem_matchedItems {matched : NormalizedDocumentItem F × DocumentTextMatch} :
    matched ∈ matchedItems T items query ↔
      matched.1 ∈ items ∧ T.matchDocumentText matched.1.textOrValue query = some matched.2 := by
  unfold matchedItems
  rw [List.mem_filterMap]
  constructor
  · rintro ⟨item, hitem, hmap⟩
    obtain ⟨found, hfound, rfl⟩ := Option.map_eq_some_iff.1 hmap
    exact ⟨hitem, hfound⟩
  · rintro ⟨hitem, hfound⟩
    exact ⟨matched.1, hitem, by rw [hfound]; rfl⟩

theorem mem_map_matchedItems {β : Type} {f : NormalizedDocumentItem F → β} {b : β} :
    b ∈ (matchedItems T items query).map (fun matched => f matched.1) ↔
      ∃ item ∈ items, T.matchDocumentText item.textOrValue query ≠ none ∧ f item = b := by
  rw [List.mem_map]
  constructor
  · rintro ⟨matched, hmatched, hb⟩
    obtain ⟨hitem, hfound⟩ := mem_matchedItems.1 hmatched
    exact ⟨matched.1, hitem, by rw [hfound]; exact Option.some_ne_none _, hb⟩
  · rintro ⟨item, hitem, hfound, hb⟩
    obtain ⟨found, hsome⟩ := Option.ne_none_iff_exists'.1 hfound
    exact ⟨(item, found), mem_matchedItems.2 ⟨hitem, hsome⟩, hb⟩

theorem mem_matchedPages {page : Int} : page ∈ matchedPages T items query ↔ PageMatched T items query page := by
  unfold matchedPages
  have hpage : page ∈ (matchedItems T items query).filterMap (fun matched => matched.1.page) ↔
      some page ∈ (matchedItems T items query).map (fun matched => matched.1.page) := by
    rw [List.mem_filterMap, List.mem_map]
  rw [mem_sortedKeys, List.mem_filter, hpage, mem_map_matchedItems, decide_eq_true_eq, and_comm]
  rfl

theorem mem_matchedContainerIds {container : ContainerId} :
    container ∈ (windowSelection T items query sourceFormat mapProfile window).matchedContainerIds ↔
      ContainerMatched T items query sourceFormat container :=
  mem_keys_groupBy.trans (mem_map_matchedItems (f := fun item => nativeContainerId item sourceFormat))

theorem nodup_matchedContainerIds :
    (windowSelection T items query sourceFormat mapProfile window).matchedContainerIds.Nodup := nodup_groupBy

theorem selectedContainerIds_pdf {w : PageWindow} :
    (windowSelection T items query .pdf mapProfile (some w)).selectedContainerIds =
      (windowSelection T items query .pdf mapProfile (some w)).matchedContainerIds.filter (ContainerId.inWindow w) :=
  rfl

theorem selectedContainerIds_whole (h : sourceFormat = .pdf → window = none) :
    (windowSelection T items query sourceFormat mapProfile window).selectedContainerIds =
      (windowSelection T items query sourceFormat mapProfile window).matchedContainerIds ∧
    (windowSelection T items query sourceFormat mapProfile window).omittedMatchedContainerIds = [] := by
  have hnone : (if sourceFormat = .pdf then window else none) = none := by
    split_ifs with hpdf
    · exact h hpdf
    · rfl
  unfold windowSelection
  dsimp only
  rw [hnone]
  exact ⟨rfl, rfl⟩

/-- Where there is a window of a PDF, what lies in it is selected, and what does not is omitted. -/
theorem window_cases (sourceFormat : SourceFormat) (window : Option PageWindow) :
    (sourceFormat = .pdf ∧ ∃ w, window = some w) ∨ (sourceFormat = .pdf → window = none) := by
  by_cases hpdf : sourceFormat = .pdf
  · cases window with
    | none => exact .inr fun _ => rfl
    | some w => exact .inl ⟨hpdf, w, rfl⟩
  · exact .inr fun h => absurd h hpdf

theorem page_of_container {item : NormalizedDocumentItem F} {n : Int} (h : nativeContainerId item .pdf = .page n) :
    item.page = some n := by
  have hid : nativeContainerId item .pdf = (item.page.map ContainerId.page).getD .document := rfl
  rw [hid] at h
  cases hpage : item.page with
  | none =>
    rw [hpage] at h
    cases h
  | some m =>
    rw [hpage] at h
    obtain rfl : m = n := ContainerId.page.inj h
    rfl

/-- What lies in a window is a page of it. -/
theorem page_of_inWindow {container : ContainerId} {w : PageWindow} (h : container.inWindow w = true)
    (hstart : 1 ≤ w.start) : ∃ n, 1 ≤ n ∧ container = .page n := by
  cases container with
  | page n => exact ⟨n, Int.le_trans hstart (of_decide_eq_true h).1, rfl⟩
  | _ => cases h

/-- A matched container is selected unless it lies outside the window of a PDF. -/
theorem mem_selectedContainerIds {container : ContainerId} :
    container ∈ (windowSelection T items query sourceFormat mapProfile window).selectedContainerIds ↔
      ContainerMatched T items query sourceFormat container ∧
        (sourceFormat = .pdf → ∀ w ∈ window, container.inWindow w = true) := by
  rcases window_cases sourceFormat window with ⟨rfl, w, rfl⟩ | hwhole
  · rw [selectedContainerIds_pdf, List.mem_filter, mem_matchedContainerIds]
    refine and_congr_right fun _ => ⟨fun hin _ w' hw' => ?_, fun hin => hin rfl w rfl⟩
    rwa [← Option.some.inj (Option.mem_def.1 hw')]
  · rw [(selectedContainerIds_whole hwhole).1, mem_matchedContainerIds]
    refine ⟨fun hmatched => ⟨hmatched, fun hpdf w hw => ?_⟩, And.left⟩
    rw [hwhole hpdf] at hw
    cases hw

theorem partition_containers :
    ((windowSelection T items query sourceFormat mapProfile window).selectedContainerIds ++
      (windowSelection T items query sourceFormat mapProfile window).omittedMatchedContainerIds).Perm
      (windowSelection T items query sourceFormat mapProfile window).matchedContainerIds := by
  rcases window_cases sourceFormat window with ⟨rfl, w, rfl⟩ | hwhole
  · have homitted : (windowSelection T items query .pdf mapProfile (some w)).omittedMatchedContainerIds =
        (windowSelection T items query .pdf mapProfile (some w)).matchedContainerIds.filter
          (fun container => !container.inWindow w) := by
      refine List.filter_congr fun container hcontainer => ?_
      rw [Bool.eq_iff_iff, decide_eq_true_eq, Bool.not_eq_true', ← Bool.not_eq_true]
      exact not_congr (List.mem_filter.trans (and_iff_right hcontainer))
    rw [homitted, selectedContainerIds_pdf]
    exact List.filter_append_perm _ _
  · rw [(selectedContainerIds_whole hwhole).1, (selectedContainerIds_whole hwhole).2, List.append_nil]

theorem covers_windowSelection {w : PageWindow} {page : Int} :
    (windowSelection T items query sourceFormat mapProfile (some w)).covers page = true ↔
      w.start ≤ page ∧ page ≤ w.stop := decide_eq_true_iff

/-- The window of a request starts at a matched page. -/
theorem start_requestedWindow {requested : Option Int} (h : requestedWindow T items query requested = .ok window) :
    (window = none ∧ matchedPages T items query = []) ∨ ∃ w, window = some w ∧ PageMatched T items query w.start := by
  have hstart : ∀ remaining : List Int, remaining.Sublist (matchedPages T items query) → remaining ≠ [] →
      ∃ w, pageWindow remaining = some w ∧ PageMatched T items query w.start := by
    intro remaining hsub hne
    obtain ⟨page, rest, rfl⟩ := List.exists_cons_of_ne_nil hne
    obtain ⟨stop, heq, -⟩ := pageWindow_cons (matchedPages_increasing.sublist hsub)
    exact ⟨_, heq, mem_matchedPages.1 (hsub.subset List.mem_cons_self)⟩
  unfold requestedWindow at h
  cases requested with
  | none =>
    obtain rfl : pageWindow (matchedPages T items query) = window := Except.ok.inj h
    by_cases hpages : matchedPages T items query = []
    · exact .inl ⟨by rw [hpages]; rfl, hpages⟩
    · exact .inr (hstart _ (List.Sublist.refl _) hpages)
  | some page =>
    dsimp only at h
    split_ifs at h with hpage
    obtain rfl := Except.ok.inj h
    refine .inr (hstart _ List.filter_sublist fun hnil => ?_)
    exact List.filter_eq_nil_iff.1 hnil page hpage (decide_eq_true (Int.le_refl page))

/-- What holds of every enumeration. -/
theorem partition_of_enumerates {requested : Option Int} {results : List (DocumentExecutionSelection ContainerId)}
    (h : Enumerates (targetedEvidenceSelection T items query sourceFormat mapProfile) requested results) :
    ∀ result ∈ results, result.matchedContainerIds.Nodup ∧
      (∀ container, container ∈ result.matchedContainerIds ↔ ContainerMatched T items query sourceFormat container) ∧
      (result.selectedContainerIds ++ result.omittedMatchedContainerIds).Perm result.matchedContainerIds := by
  intro result hresult
  obtain ⟨_, window, -, rfl⟩ := h.exists_window result hresult
  exact ⟨nodup_matchedContainerIds, fun _ => mem_matchedContainerIds, partition_containers⟩

/-- Where no page matches, one result selects all that matches. -/
theorem enumerates_unpaged (hpages : matchedPages T items query = []) :
    ∃ results, Enumerates (targetedEvidenceSelection T items query sourceFormat mapProfile) none results ∧
      EnumeratesMatches T items query sourceFormat results := by
  have hrequested : requestedWindow T items query none = .ok none := by
    unfold requestedWindow
    rw [hpages]
    rfl
  have henumerates : Enumerates (targetedEvidenceSelection T items query sourceFormat mapProfile) none [_] :=
    .last (targetedEvidenceSelection_eq hrequested) rfl
  refine ⟨_, henumerates, fun result hresult first last hfirst => ?_, List.pairwise_singleton _ _, fun page hpage => ?_,
    partition_of_enumerates henumerates, fun container hcontainer => ⟨_, List.mem_singleton_self _, ?_⟩⟩
  · rw [List.mem_singleton.1 hresult] at hfirst
    cases hfirst
  · rw [← mem_matchedPages, hpages] at hpage
    cases hpage
  · exact mem_selectedContainerIds.2 ⟨hcontainer, fun _ => nofun⟩

/-- The windows over the matched pages enumerate the matches when every matched container can be in a window. -/
theorem enumerates_paged (hpages : matchedPages T items query ≠ [])
    (hreach : sourceFormat = .pdf → ∀ container, ContainerMatched T items query sourceFormat container →
      ∃ n, 1 ≤ n ∧ container = .page n) :
    ∃ results, Enumerates (targetedEvidenceSelection T items query sourceFormat mapProfile) none results ∧
      EnumeratesMatches T items query sourceFormat results := by
  have hincreasing : (matchedPages T items query).Pairwise (· < ·) := matchedPages_increasing
  obtain ⟨windows, hwindowed⟩ := exists_windowed hincreasing
  have hlaw := hwindowed.law hincreasing
  have hne : windows ≠ [] := fun h => hpages (hwindowed.eq_nil_iff.1 h)
  have hall : matchedPages T items query = (matchedPages T items query).filter (0 < ·) := by
    refine (List.filter_eq_self.2 fun page hpage => decide_eq_true ?_).symm
    have := (mem_matchedPages.1 hpage).1
    omega
  have henumerates : Enumerates (targetedEvidenceSelection T items query sourceFormat mapProfile) none
      (windows.map fun w => windowSelection T items query sourceFormat mapProfile (some w)) :=
    enumerates_of_windowed hwindowed hne hall rfl
  have hdisjoint : (windows.map fun w => windowSelection T items query sourceFormat mapProfile (some w)).Pairwise
      fun a b => ∀ page, a.covers page = true → b.covers page = false := by
    refine List.pairwise_map.2 (hlaw.apart.imp fun {a b} hab page ha => ?_)
    rw [← Bool.not_eq_true]
    intro hb
    have hcover := covers_windowSelection.1 ha
    have hcover' := covers_windowSelection.1 hb
    omega
  refine ⟨_, henumerates, fun result hresult first last hfirst hlast => ?_, hdisjoint, fun page hpage => ?_,
    partition_of_enumerates henumerates, fun container hcontainer => ?_⟩
  · obtain ⟨w, hw, rfl⟩ := List.mem_map.1 hresult
    obtain rfl := Option.some.inj hfirst
    obtain rfl := Option.some.inj hlast
    exact (hlaw.sized w hw).2
  · obtain ⟨w, hw, hin⟩ := hlaw.covered page (mem_matchedPages.2 hpage)
    rw [List.countP_eq_length_filter,
      filter_eq_singleton (hdisjoint.imp fun h => h page) (List.mem_map_of_mem hw) (covers_windowSelection.2 hin)]
    rfl
  · by_cases hpdf : sourceFormat = .pdf
    · subst hpdf
      obtain ⟨n, hn, rfl⟩ := hreach rfl container hcontainer
      obtain ⟨item, hitem, hfound, hid⟩ := hcontainer
      have hpage : PageMatched T items query n := ⟨hn, item, hitem, hfound, page_of_container hid⟩
      obtain ⟨w, hw, hin⟩ := hlaw.covered n (mem_matchedPages.2 hpage)
      refine ⟨_, List.mem_map_of_mem hw, mem_selectedContainerIds.2 ⟨⟨item, hitem, hfound, hid⟩, fun _ w' hw' => ?_⟩⟩
      rw [← Option.some.inj (Option.mem_def.1 hw')]
      exact decide_eq_true hin
    · obtain ⟨w, rest, rfl⟩ := List.exists_cons_of_ne_nil hne
      exact ⟨_, List.mem_map_of_mem List.mem_cons_self,
        mem_selectedContainerIds.2 ⟨hcontainer, fun h => absurd h hpdf⟩⟩

/-- Where a page of a PDF matches, everything that is selected lies on a page. -/
theorem paged_of_enumerates {results : List (DocumentExecutionSelection ContainerId)}
    (henumerates : Enumerates (targetedEvidenceSelection T items query .pdf mapProfile) none results)
    (hmatches : EnumeratesMatches T items query .pdf results) {page : Int} (hpage : PageMatched T items query page)
    {container : ContainerId} (hcontainer : ContainerMatched T items query .pdf container) :
    ∃ n, 1 ≤ n ∧ container = .page n := by
  obtain ⟨result, hresult, hselected⟩ := hmatches.containers container hcontainer
  obtain ⟨requested, window, hwindow, rfl⟩ := henumerates.exists_window result hresult
  rcases start_requestedWindow hwindow with ⟨-, hnone⟩ | ⟨w, rfl, hstart⟩
  · rw [← mem_matchedPages, hnone] at hpage
    cases hpage
  · exact page_of_inWindow ((mem_selectedContainerIds.1 hselected).2 rfl w rfl) hstart.1

end

/-- Asking for the first omitted page until none is omitted comes to an end, with every request accepted, and
enumerates the matches, exactly when the source is no PDF, or no page from 1 on matches, or everything that matches
lies on such a page. -/
theorem evidenceWindows_iff (T : CharTable) (items : List (NormalizedDocumentItem F)) (query : Text)
    (sourceFormat : SourceFormat) (mapProfile : AttemptProfile) :
    (∃ results, Enumerates (targetedEvidenceSelection T items query sourceFormat mapProfile) none results ∧
      EnumeratesMatches T items query sourceFormat results) ↔
    sourceFormat ≠ .pdf ∨ (∀ page, ¬ PageMatched T items query page) ∨
      ∀ container, ContainerMatched T items query sourceFormat container → ∃ n, 1 ≤ n ∧ container = .page n := by
  constructor
  · rintro ⟨results, henumerates, hmatches⟩
    by_cases hpdf : sourceFormat = .pdf
    · subst hpdf
      by_cases hpages : ∃ page, PageMatched T items query page
      · obtain ⟨page, hpage⟩ := hpages
        exact .inr (.inr fun container hcontainer => paged_of_enumerates henumerates hmatches hpage hcontainer)
      · exact .inr (.inl (not_exists.1 hpages))
    · exact .inl hpdf
  · intro hcondition
    by_cases hpages : matchedPages T items query = []
    · exact enumerates_unpaged hpages
    · refine enumerates_paged hpages fun hpdf => ?_
      obtain ⟨page, hpage⟩ := List.exists_mem_of_ne_nil _ hpages
      rcases hcondition with hformat | hnone | hreach
      · exact absurd hpdf hformat
      · exact absurd (mem_matchedPages.1 hpage) (hnone page)
      · exact hreach

/-- A PDF with a match on page 1 and one in its metadata, which are on no page. -/
def unpagedMatch : List (NormalizedDocumentItem Unit) :=
  [⟨txt "pdf_page_block", some (txt "ab"), none, [(txt "page", .int 1)], none, none, none⟩,
    ⟨txt "pdf_metadata", some (txt "title: ab"), some (txt "document:current"), [(txt "metadata", .int 1)], none,
      some (txt "document:metadata"), some (txt "METADATA")⟩]

/-- The metadata are never selected. -/
theorem unpagedMatch_lost : ¬ ∃ results,
    Enumerates (targetedEvidenceSelection asciiTable unpagedMatch (txt "ab") .pdf .fast) none results ∧
      EnumeratesMatches asciiTable unpagedMatch (txt "ab") .pdf results := by
  rintro ⟨results, henumerates, hmatches⟩
  have hpage : PageMatched asciiTable unpagedMatch (txt "ab") 1 :=
    ⟨Int.le_refl 1, _, List.mem_cons_self, by decide, rfl⟩
  have hmetadata : ContainerMatched asciiTable unpagedMatch (txt "ab") .pdf .document :=
    ⟨_, List.mem_cons_of_mem _ List.mem_cons_self, by decide, rfl⟩
  obtain ⟨n, -, heq⟩ := paged_of_enumerates henumerates hmatches hpage hmetadata
  cases heq

end Steward.Documents
