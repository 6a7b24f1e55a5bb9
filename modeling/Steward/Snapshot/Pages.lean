import Steward.Py.Paging
import Steward.Snapshot.Published

/-!
# The pages of a listing

Following the pages of `_list_snapshot_entries` gives the entries the filter
selects, in the order of their locations: `follow_readEntries`. A prefix selects
its path and what lies below it, `.` the whole scope.
-/

namespace Steward

open Py Sqlite

variable {F : Type} [SqliteFloat F]

/-! ## What a filter selects -/

/-- `q` is the path `p` or lies below it. -/
def pathUnder (p q : Text) : Bool := q = p || q.startsWith (p ++ txt "/")

/-- `pathUnder`, for the prefix `.` every path. -/
def selectsPath (p q : Text) : Bool := p = txt "." || pathUnder p q

/-- The conditions on scope, type and status. -/
def EntryFilter.selectsKind (q : EntryFilter) (e : Entry F) : Bool :=
  (q.scopeId.all fun s => e.inScope s) && (q.objectType.all fun t => e.objectType = t) &&
    q.observationStatus.all fun t => e.observationStatus = t

/-- The path of the entry stands in the relation to the prefix, when there is one. -/
def EntryFilter.selectsPrefix (under : Text → Text → Bool) (q : EntryFilter) (e : Entry F) : Bool :=
  q.pathPrefix.all fun p => match e.field .relativePath with
    | .str t => under p t
    | _ => false

def EntryFilter.selects (under : Text → Text → Bool) (q : EntryFilter) (e : Entry F) : Bool :=
  q.selectsKind e && q.selectsPrefix under e

/-- The columns of a location hold text. -/
def Snapshot.Textual (s : Snapshot F) : Prop :=
  ∀ e ∈ s.entries, ∃ scope path, e.field .scopeId = .str scope ∧ e.field .relativePath = .str path

/-- Texts SQLite takes as parameters; C reads the pattern up to a NUL. -/
structure EntryFilter.Bound (q : EntryFilter) : Prop where
  scope : ∀ t ∈ q.scopeId, t.encodable = true
  path : ∀ p ∈ q.pathPrefix, p.encodable = true ∧ ∀ c ∈ p, c.val ≠ 0

/-- No entry of the scope, type and status lies below an ASCII case variant of the prefix. -/
def EntryFilter.CaseFree (q : EntryFilter) (s : Snapshot F) : Prop :=
  ∀ e ∈ s.entries, q.selectsKind e = true → ∀ p ∈ q.pathPrefix, ∀ t, e.field .relativePath = .str t →
    below p t = true → t.startsWith (p ++ txt "/") = true

/-- `a` comes before `b` in the order of scopes and paths. -/
def Entry.Before (a b : Entry F) : Prop :=
  ∃ s t p q, a.field .scopeId = .str s ∧ a.field .relativePath = .str p ∧ b.field .scopeId = .str t ∧
    b.field .relativePath = .str q ∧ (s < t ∨ s = t ∧ p < q)

/-! ## Reading the pages -/

/-- The page as its reader goes on from it: one `limit` further while there is more. -/
def SnapshotEntryPage.paged (page : SnapshotEntryPage F) : Paging.Page (Entry F) :=
  ⟨page.entries, if page.hasMore then some (page.offset + page.limit) else none⟩

def readEntries (ix : Index F) (id : Text) (q : EntryFilter) (limit offset : Nat) :
    Result (Paging.Page (Entry F)) :=
  (listSnapshotEntries ix (.str id) q limit offset).map SnapshotEntryPage.paged

/-! ## Rows and what the filter selects -/

theorem is_name {c : EntryKey} (hc : entrySchema.affinity c = .text) {α : Type} [Named α] [DecidableEq α] {a t : α}
    {r : Row EntryKey F} (h : (r c).toValue = nameValue a) :
    entrySchema.is c (.text (Named.name t)) r = decide (a = t) := by
  rw [Bool.eq_iff_iff, decide_eq_true_eq, is_text hc, Cell.toValue_eq_str.1 h, Cell.text.injEq,
    Named.name_eq_iff]

/-- The type and the status of a row that reads back. -/
theorem enums_of_entryFromRow {r : Row EntryKey F} (h : Ok (entryFromRow r)) :
    (r .objectType).toValue = nameValue (entryOf r).objectType ∧
      (r .observationStatus).toValue = nameValue (entryOf r).observationStatus := by
  obtain ⟨e, he⟩ := h
  rw [← entryOf_of_ok he]
  simp only [entryFromRow, bind_eq_ok] at he
  obtain ⟨type, htype, status, hstatus, he⟩ := he
  have heq : e.objectType = type ∧ e.observationStatus = status := by
    split_ifs at he
    · cases he
      exact ⟨rfl, rfl⟩
    · obtain ⟨_, -, he⟩ := bind_eq_ok.1 he
      obtain ⟨_, -, he⟩ := bind_eq_ok.1 he
      cases he
      exact ⟨rfl, rfl⟩
  rw [heq.1, heq.2]
  exact ⟨enumOf_eq_ok.1 htype, enumOf_eq_ok.1 hstatus⟩

/-- The prefix test of a path without case variants. -/
theorem matchesPrefix_text {p t : Text} {r : Row EntryKey F} (hr : r (.field .relativePath) = .text t)
    (hp : ∀ c ∈ p, c.val ≠ 0) (hcase : below p t = true → t.startsWith (p ++ txt "/") = true) :
    matchesPrefix p r = selectsPath p t := by
  have hbelow : t.startsWith (p ++ txt "/") = true → below p t = true := by
    intro hstart
    obtain ⟨u, rfl⟩ := List.isPrefixOf_iff_prefix.1 hstart
    exact below_iff.2 ⟨p, u, by rw [List.append_assoc]; rfl, rfl⟩
  have hiff : below p t = true ↔ t.startsWith (p ++ txt "/") = true := ⟨hcase, hbelow⟩
  have hpath : entrySchema.is (.field .relativePath) (.text p) r = true ↔ t = p := by
    rw [is_text rfl, hr, Cell.text.injEq]
  rw [matchesPrefix, hr, likeCell, belowPattern, like_below hp, selectsPath, pathUnder, Bool.or_assoc,
    Bool.eq_iff_iff]
  simp only [Bool.or_eq_true, decide_eq_true_eq, hpath, hiff]

section
variable {ix : Index F} {id : Text} {s : Snapshot F} {q : EntryFilter}

theorem selectsKind_entryOf {r : Row EntryKey F} (h : Ok (entryFromRow r)) :
    q.selectsKind (entryOf r) =
      ((q.scopeId.all fun s => entrySchema.is (.field .scopeId) (.text s) r) &&
        (q.objectType.all fun t => entrySchema.is .objectType (.text (Named.name t)) r) &&
        q.observationStatus.all fun t => entrySchema.is .observationStatus (.text (Named.name t)) r) := by
  obtain ⟨htype, hstatus⟩ := enums_of_entryFromRow h
  have hscope (t : Text) : (entryOf r).inScope t = entrySchema.is (.field .scopeId) (.text t) r := by
    rw [Bool.eq_iff_iff, Entry.inScope, entryOf_field, Value.eq_str, Cell.toValue_eq_str, is_text rfl]
  have htypes (t : FilesystemObjectType) :
      entrySchema.is .objectType (.text (Named.name t)) r = decide ((entryOf r).objectType = t) :=
    is_name rfl htype
  have hstatuses (t : FilesystemObservationStatus) :
      entrySchema.is .observationStatus (.text (Named.name t)) r =
        decide ((entryOf r).observationStatus = t) := is_name rfl hstatus
  simp only [EntryFilter.selectsKind, hscope, htypes, hstatuses]

/-- The query admits the rows of the selected entries. -/
theorem admits_eq (hid : id.encodable = true) (h : getSnapshot ix (.str id) = .ok s) (htext : s.Textual)
    (hq : q.Bound) (hcase : q.CaseFree s) {r : Row EntryKey F} (hr : r ∈ snapshotRows ix id) :
    q.admits r = q.selects selectsPath (entryOf r) := by
  obtain ⟨hok, hentries⟩ := entries_of_getSnapshot hid h
  have hmem : entryOf r ∈ s.entries := by
    rw [hentries]
    exact List.mem_map_of_mem ((List.mem_insertionSort _).2 hr)
  obtain ⟨scope, t, -, ht⟩ := htext _ hmem
  have hcell : r (.field .relativePath) = .text t := by rwa [entryOf_field, Cell.toValue_eq_str] at ht
  rw [EntryFilter.selects, EntryFilter.selectsPrefix, ht, EntryFilter.admits]
  rw [← selectsKind_entryOf (hok r hr)]
  cases hkind : q.selectsKind (entryOf r) with
  | false => rfl
  | true =>
    rw [Bool.true_and, Bool.true_and]
    cases hp : q.pathPrefix with
    | none => rfl
    | some p => exact matchesPrefix_text hcell (hq.path p hp).2 (hcase _ hmem hkind p hp t ht)

/-! ## The order of the rows -/

/-- Where a row is, in the order of the listing. -/
def rowKey (r : Row EntryKey F) : Lex (Text × Text) := toLex ((r (.field .scopeId)).toValue.pyStr, pathText r)

theorem rowKey_of {r : Row EntryKey F} {scope p : Text} (h : Located scope p r) :
    rowKey r = toLex (scope, p) := by rw [rowKey, h.1, pathText_of h.2]; rfl

theorem located_rows (hid : id.encodable = true) (h : getSnapshot ix (.str id) = .ok s)
    (htext : s.Textual) {r : Row EntryKey F} (hr : r ∈ snapshotRows ix id) : ∃ scope p, Located scope p r := by
  have hmem : entryOf r ∈ s.entries := by
    rw [(entries_of_getSnapshot hid h).2]
    exact List.mem_map_of_mem ((List.mem_insertionSort _).2 hr)
  obtain ⟨scope, p, hscope, hp⟩ := htext _ hmem
  rw [entryOf_field, Cell.toValue_eq_str] at hscope hp
  exact ⟨scope, p, hscope, hp⟩

theorem entryRowLe_iff {a b : Row EntryKey F} {scope p scope' p' : Text} (ha : Located scope p a)
    (hb : Located scope' p' b) : entryRowLe a b ↔ rowKey a ≤ rowKey b := by
  rw [rowKey_of ha, rowKey_of hb, Prod.Lex.toLex_le_toLex, entryRowLe, ha.1, ha.2, hb.1, hb.2]
  simp only [cellLe, Text.utf8_le_iff, Bool.or_eq_true, Bool.and_eq_true, Bool.not_eq_true',
    decide_eq_false_iff_not, decide_eq_true_eq, not_le]
  refine or_congr_right' fun hlt => and_congr_left fun _ => ?_
  exact ⟨fun hle => le_antisymm hle (not_lt.1 hlt), le_of_eq⟩

/-- The rows of a Snapshot, sorted, are in the strict order of their keys. -/
theorem rows_ordered (hid : id.encodable = true) (h : getSnapshot ix (.str id) = .ok s)
    (htext : s.Textual) (hix : ix.Keyed) {rows : List (Row EntryKey F)} (hrows : rows.Sublist (snapshotRows ix id)) :
    (rows.insertionSort entryRowLe).Pairwise fun a b => rowKey a < rowKey b := by
  have hle : ∀ a ∈ rows, ∀ b ∈ rows, (entryRowLe a b ↔ rowKey a ≤ rowKey b) := by
    intro a ha b hb
    obtain ⟨_, _, hla⟩ := located_rows hid h htext (hrows.subset ha)
    obtain ⟨_, _, hlb⟩ := located_rows hid h htext (hrows.subset hb)
    exact entryRowLe_iff hla hlb
  have hsorted : ((rows.insertionSort entryRowLe).map rowKey).Pairwise (· ≤ ·) := by
    rw [List.map_insertionSort (r := entryRowLe) (s := (· ≤ ·)) rowKey rows hle]
    exact List.pairwise_insertionSort _ _
  have hnodup : ((rows.insertionSort entryRowLe).map rowKey).Nodup := by
    rw [((List.perm_insertionSort entryRowLe _).map rowKey).nodup_iff, List.Nodup, List.pairwise_map]
    refine ((located_unique hix id).sublist hrows).imp_of_mem fun {a b} ha hb hab heq => ?_
    obtain ⟨scope, p, hla⟩ := located_rows hid h htext (hrows.subset ha)
    obtain ⟨scope', p', hlb⟩ := located_rows hid h htext (hrows.subset hb)
    rw [rowKey_of hla, rowKey_of hlb] at heq
    obtain ⟨rfl, rfl⟩ := Prod.mk.inj (toLex.injective heq)
    exact hab scope p hla hlb
  exact List.pairwise_map.1 (hsorted.imp₂ (fun _ _ => lt_of_le_of_ne) hnodup)

/-- Filtering and sorting the rows commute. -/
theorem insertionSort_filter_rows (hid : id.encodable = true) (h : getSnapshot ix (.str id) = .ok s)
    (htext : s.Textual) (hix : ix.Keyed) (p : Row EntryKey F → Bool) :
    ((snapshotRows ix id).filter p).insertionSort entryRowLe =
      ((snapshotRows ix id).insertionSort entryRowLe).filter p := by
  have hperm : (((snapshotRows ix id).filter p).insertionSort entryRowLe).Perm
      (((snapshotRows ix id).insertionSort entryRowLe).filter p) :=
    (List.perm_insertionSort _ _).trans ((List.perm_insertionSort _ _).filter p).symm
  have hlisted := rows_ordered hid h htext hix (List.filter_sublist (l := snapshotRows ix id) (p := p))
  have hall := (rows_ordered hid h htext hix (List.Sublist.refl _)).filter p
  exact List.Perm.eq_of_pairwise (fun a b _ _ hab hba => absurd hab hba.asymm) hlisted hall hperm

/-! ## The pages -/

theorem bound_values (hq : q.Bound) : ∀ t ∈ q.values, t.encodable = true := by
  intro t ht
  simp only [EntryFilter.values, List.mem_append] at ht
  rcases ht with ((ht | ht) | ht) | ht
  · exact hq.scope t (Option.mem_toList.1 ht)
  · obtain ⟨a, -, rfl⟩ := Option.map_eq_some_iff.1 (Option.mem_toList.1 ht)
    exact Named.encodable a
  · obtain ⟨a, -, rfl⟩ := Option.map_eq_some_iff.1 (Option.mem_toList.1 ht)
    exact Named.encodable a
  · cases hp : q.pathPrefix with
    | none =>
      rw [hp] at ht
      cases ht
    | some p =>
      rw [hp] at ht
      dsimp only at ht
      split_ifs at ht
      · cases ht
      · rcases List.mem_cons.1 ht with rfl | ht
        · exact (hq.path _ hp).1
        · rw [List.mem_singleton.1 ht]
          exact encodable_belowPattern (hq.path p hp).1

/-- The rows the query matches, in its order. -/
def listedRows (ix : Index F) (id : Text) (q : EntryFilter) : List (Row EntryKey F) :=
  ((snapshotRows ix id).filter q.admits).insertionSort entryRowLe

theorem selectPage_eq (hid : id.encodable = true) (hq : q.Bound) (limit offset : Nat) :
    selectPage ix (.str id) q limit offset = .ok (((listedRows ix id q).drop offset).take (limit + 1)) := by
  have hvalues : Ok (q.values.mapM fun t => sql (Sqlite.bind (F := F) (.str t))) :=
    ok_mapM.2 fun t ht => ok_sql_iff.2 ⟨_, bind_text (bound_values hq t ht)⟩
  obtain ⟨cells, hcells⟩ := hvalues
  have hmatched : ix.snapshotEntries.filter (fun r => entrySchema.is (.field .snapshotId) (.text id) r &&
      q.admits r) = (snapshotRows ix id).filter q.admits := by
    rw [snapshotRows, List.filter_filter]
    exact List.filter_congr fun r _ => Bool.and_comm _ _
  rw [selectPage, bind_text hid, sql_ok, ok_bind_ok, hcells, ok_bind_ok, listedRows, ← hmatched]
  rfl

theorem entryPage_eq (h : getSnapshot ix (.str id) = .ok s) (hq : q.Bound) (limit offset : Nat) :
    entryPage ix (.str id) q limit offset =
      .ok ⟨.str id, (((listedRows ix id q).drop offset).take limit).map entryOf,
        (((listedRows ix id q).drop offset).take limit).length, limit, offset,
        limit < (((listedRows ix id q).drop offset).take (limit + 1)).length⟩ := by
  obtain ⟨row, rest, -, -, hrow, -⟩ := getSnapshot_eq_ok.1 h
  obtain ⟨hok, -⟩ := entries_of_getSnapshot (encodable_of_read h) h
  have hentries : ((((listedRows ix id q).drop offset).take (limit + 1)).take limit).mapM
      (fun r => py (entryFromRow r)) = .ok ((((listedRows ix id q).drop offset).take limit).map entryOf) := by
    rw [List.take_take, Nat.min_eq_left limit.le_succ]
    refine mapM_entryFromRow.2 ⟨fun r hr => hok r ?_, rfl⟩
    have hlisted := List.mem_of_mem_drop (List.mem_of_mem_take hr)
    exact List.mem_of_mem_filter ((List.mem_insertionSort _).1 hlisted)
  rw [entryPage, hrow, sql_ok, ok_bind_ok, if_neg (by simp), selectPage_eq (encodable_of_read h) hq,
    ok_bind_ok, hentries, ok_bind_ok, List.length_map]
  rfl

/-- A page is a slice of the listed entries. -/
theorem readEntries_eq (h : getSnapshot ix (.str id) = .ok s) (hq : q.Bound) {limit : Nat}
    (hvalid : validatePage limit 0 q.pathPrefix = .ok ()) (offset : Nat) :
    readEntries ix id q limit offset =
      .ok (Paging.slice ((listedRows ix id q).map entryOf) limit offset) := by
  have hoffset : validatePage limit offset q.pathPrefix = .ok () := by
    rw [validatePage] at hvalid ⊢
    rwa [if_neg (by omega : ¬ (offset : Int) < 0)]
  rw [readEntries, listSnapshotEntries, hoffset, ok_bind_ok, Int.toNat_natCast, Int.toNat_natCast,
    entryPage_eq h hq]
  refine congrArg Except.ok ?_
  rw [SnapshotEntryPage.paged, Paging.slice, ← List.map_drop, ← List.map_take, List.length_map,
    List.length_map]
  simp only [List.length_take, List.length_drop, decide_eq_true_eq, Paging.Page.mk.injEq, true_and]
  split_ifs <;> first | rfl | omega | (congr 1; omega)

theorem limit_pos {limit : Nat} {p : Option Text} (h : validatePage limit 0 p = .ok ()) : 0 < limit := by
  by_contra hzero
  obtain rfl : limit = 0 := by omega
  cases h

/-- Following the pages reads the listed entries. -/
theorem follow_eq_listed (h : getSnapshot ix (.str id) = .ok s) (hq : q.Bound) {limit fuel : Nat}
    (hvalid : validatePage limit 0 q.pathPrefix = .ok ()) (hfuel : s.entries.length < fuel) :
    Paging.follow (readEntries ix id q limit) fuel 0 = .ok (some ((listedRows ix id q).map entryOf)) := by
  have hlength : ((listedRows ix id q).map entryOf).length ≤ s.entries.length := by
    rw [(entries_of_getSnapshot (encodable_of_read h) h).2, List.length_map, List.length_map, listedRows,
      List.length_insertionSort, List.length_insertionSort]
    exact List.length_filter_le _ _
  have hread (offset : Nat) : ∃ page, readEntries ix id q limit offset = .ok page ∧
      Paging.Window ((listedRows ix id q).map entryOf) offset page ∧ Paging.Advances offset page :=
    ⟨_, readEntries_eq h hq hvalid offset, Paging.slice_window _ _ _,
      Paging.slice_advances _ (limit_pos hvalid) offset⟩
  exact Paging.follow_eq hread (by omega) (by omega)

theorem listed_eq (h : getSnapshot ix (.str id) = .ok s) (hix : ix.Keyed) (htext : s.Textual) (hq : q.Bound)
    (hcase : q.CaseFree s) : (listedRows ix id q).map entryOf = s.entries.filter (q.selects selectsPath) := by
  have hid := encodable_of_read h
  rw [listedRows, insertionSort_filter_rows hid h htext hix, (entries_of_getSnapshot hid h).2, List.filter_map]
  refine congrArg (List.map entryOf) (List.filter_congr fun r hr => ?_)
  exact admits_eq hid h htext hq hcase ((List.mem_insertionSort _).1 hr)

/-- The entries of a Snapshot are in the order of their locations, each at one of its own. -/
theorem entries_ordered (h : getSnapshot ix (.str id) = .ok s) (hix : ix.Keyed) (htext : s.Textual) :
    s.entries.Pairwise Entry.Before := by
  have hid := encodable_of_read h
  rw [(entries_of_getSnapshot hid h).2, List.pairwise_map]
  refine (rows_ordered hid h htext hix (List.Sublist.refl _)).imp_of_mem fun {a b} ha hb hab => ?_
  obtain ⟨scope, p, hla⟩ := located_rows hid h htext ((List.mem_insertionSort _).1 ha)
  obtain ⟨scope', p', hlb⟩ := located_rows hid h htext ((List.mem_insertionSort _).1 hb)
  rw [rowKey_of hla, rowKey_of hlb, Prod.Lex.toLex_lt_toLex] at hab
  refine ⟨scope, scope', p, p', ?_, ?_, ?_, ?_, hab⟩ <;> rw [entryOf_field, Cell.toValue_eq_str]
  exacts [hla.1, hla.2, hlb.1, hlb.2]

end

/-! ## A scope with one file -/

/-- The root and a file. -/
def drawer : Shelf := [(txt ".", .directory), (txt "a", .regularFile)]

theorem drawer_shelved : Shelved drawer where
  safe p hp := by
    have hall : (drawer.all fun p => safePath (F := Integral) (.str p.1) && p.1.encodable) = true := by decide
    exact Bool.and_eq_true_iff.1 (List.all_eq_true.1 hall p hp)
  ordered := by decide
  separate := by decide

theorem drawer_textual : (shelfRead drawer).Textual := by
  intro e he
  rw [shelfRead_entries drawer_shelved] at he
  obtain ⟨p, -, rfl⟩ := List.mem_map.1 he
  exact ⟨_, p.1, rfl, rfl⟩

/-- The listing of a prefix in the scope. -/
def underPrefix (p : Text) : EntryFilter := ⟨some (txt "managed"), none, none, some p⟩

theorem drawer_caseFree {p : Text}
    (h : (drawer.all fun x => !below p x.1 || x.1.startsWith (p ++ txt "/")) = true) :
    (underPrefix p).CaseFree (shelfRead drawer) := by
  intro e he _ p' hp t ht hbelow
  obtain rfl := Option.some.inj (Option.mem_def.1 hp)
  rw [shelfRead_entries drawer_shelved] at he
  obtain ⟨x, hx, rfl⟩ := List.mem_map.1 he
  obtain rfl : x.1 = t := Value.str.inj ht
  have hcase := List.all_eq_true.1 h x hx
  rwa [hbelow, Bool.not_true, Bool.false_or] at hcase

theorem underPrefix_bound {p : Text} (h : (p.encodable && p.all fun c => c.val ≠ 0) = true) :
    (underPrefix p).Bound := by
  rw [Bool.and_eq_true] at h
  refine ⟨?_, ?_⟩
  · intro t ht
    obtain rfl := Option.some.inj (Option.mem_def.1 ht)
    decide
  · intro p' hp
    obtain rfl := Option.some.inj (Option.mem_def.1 hp)
    exact ⟨h.1, fun c hc => of_decide_eq_true (List.all_eq_true.1 h.2 c hc)⟩

theorem drawer_length : (shelfRead drawer).entries.length = 2 := by
  rw [shelfRead_entries drawer_shelved]
  rfl

end Steward
