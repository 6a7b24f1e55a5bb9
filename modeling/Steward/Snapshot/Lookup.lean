import Steward.Py.Collections
import Steward.Py.Path
import Steward.Snapshot.Query
import Steward.Snapshot.Totality

/-!
# One location in a page

A location is looked up as the first page of its path prefix, filtered for the
path itself. `pageAt_eq` says what the filter leaves: the entry there, unless
as many other entries of the page come before it as the page holds.
-/

namespace Steward

open Py Sqlite

variable {F : Type} [SqliteFloat F]

/-- No two rows share a key: the database refuses them. -/
structure Index.Keyed (ix : Index F) : Prop where
  snapshots : ix.snapshots.Pairwise fun a b => snapshotSchema.clash a b = false
  snapshotEntries : ix.snapshotEntries.Pairwise fun a b => entrySchema.clash a b = false

/-- A path the scanner can record: canonical, in the file system's alphabet. -/
structure RecordedPath (p : Text) : Prop where
  canonical : Path.Canonical p
  encodable : p.encodable = true
  noNul : ∀ c ∈ p, c.val ≠ 0

def Entry.inScope (e : Entry F) (scope : Text) : Bool := (e.field .scopeId).eq (.str scope)

/-- `item.relative_path == relative_path` -/
def Entry.hasPath (e : Entry F) (p : Text) : Bool := (e.field .relativePath).eq (.str p)

/-- The entries at a location. -/
def Snapshot.located (s : Snapshot F) (scope p : Text) : List (Entry F) :=
  s.entries.filter fun e => e.inScope scope && e.hasPath p

/-- `q` is on the page of the prefix `p` and comes before `p` itself: only what lies below a case
variant of `p` does, and for `.` whatever comes before `.`. -/
def shadowsPath (p q : Text) : Bool := q < p && (p = txt "." || below p q)

def Entry.shadows (scope p : Text) (e : Entry F) : Bool :=
  e.inScope scope && match e.field .relativePath with
    | .str q => shadowsPath p q
    | _ => false

/-- How many entries of the scope shadow the path. -/
def Snapshot.shadowed (s : Snapshot F) (scope p : Text) : Nat := s.entries.countP (Entry.shadows scope p)

/-- The paths of a scope are recorded ones. -/
def Snapshot.Recorded (s : Snapshot F) (scope : Text) : Prop :=
  ∀ e ∈ s.entries, e.inScope scope = true → ∃ q, e.field .relativePath = .str q ∧ RecordedPath q

/-- The filter of a lookup. -/
def atLocation (scope p : Text) : EntryFilter := ⟨some scope, none, none, some p⟩

/-! ## Rows and entries -/

/-- The entry of a row that reads back. -/
def entryOf (row : Row EntryKey F) : Entry F :=
  match entryFromRow row with
  | .ok e => e
  | .error _ => ⟨fun f => (row (.field f)).toValue, fun _ => false, .directory, .observed, none⟩

theorem entryOf_of_ok {row : Row EntryKey F} {e : Entry F} (h : entryFromRow row = .ok e) :
    e = entryOf row := by rw [entryOf, h]

@[simp] theorem entryOf_field (row : Row EntryKey F) (f : EntryField) :
    (entryOf row).field f = (row (.field f)).toValue := by
  rw [entryOf]
  split
  · rename_i e h
    simp only [entryFromRow, bind_eq_ok] at h
    obtain ⟨_, -, _, -, h⟩ := h
    split_ifs at h
    · cases h; rfl
    · obtain ⟨_, -, h⟩ := bind_eq_ok.1 h
      obtain ⟨_, -, h⟩ := bind_eq_ok.1 h
      cases h
      rfl
  · rfl

theorem mapM_entryFromRow {rows : List (Row EntryKey F)} {es : List (Entry F)} :
    rows.mapM (fun r => py (entryFromRow r)) = .ok es ↔
      (∀ r ∈ rows, Ok (entryFromRow r)) ∧ es = rows.map entryOf := by
  rw [mapM_eq_ok_map fun r e h => entryOf_of_ok (py_eq_ok.1 h)]
  simp only [ok_py_iff]

omit [SqliteFloat F] in
theorem Cell.toValue_eq_str {c : Cell F} {t : Text} : c.toValue = .str t ↔ c = .text t := by
  cases c <;> simp [Cell.toValue]

theorem agrees_text {c : Cell F} {t : Text} : c.agrees (.text t) = true ↔ c = .text t := by
  cases c <;> simp [Cell.agrees]

/-- `c = ?` for a text in a text column. -/
theorem is_text {c : EntryKey} (hc : entrySchema.affinity c = .text) {t : Text} {r : Row EntryKey F} :
    entrySchema.is c (.text t) r = true ↔ r c = .text t := by
  rw [Schema.is, hc]
  exact agrees_text

theorem bind_text {t : Text} (h : t.encodable = true) :
    Sqlite.bind (.str t : Value F) = .ok (.text t) := if_pos h

/-- The text of a row's path. -/
def pathText (r : Row EntryKey F) : Text := (r (.field .relativePath)).toValue.pyStr

theorem pathText_of {r : Row EntryKey F} {q : Text} (h : r (.field .relativePath) = .text q) :
    pathText r = q := by rw [pathText, h]; rfl

/-! ## The rows of a location -/

/-- The rows of a Snapshot, in the order of the table. -/
def snapshotRows (ix : Index F) (id : Text) : List (Row EntryKey F) :=
  ix.snapshotEntries.filter (entrySchema.is (.field .snapshotId) (.text id))

def Located (scope p : Text) (r : Row EntryKey F) : Prop :=
  r (.field .scopeId) = .text scope ∧ r (.field .relativePath) = .text p

theorem located_entryOf {scope p : Text} {r : Row EntryKey F} :
    ((entryOf r).inScope scope && (entryOf r).hasPath p) = true ↔ Located scope p r := by
  simp only [Entry.inScope, Entry.hasPath, entryOf_field, Bool.and_eq_true, Value.eq_str,
    Cell.toValue_eq_str]
  rfl

/-- The primary key: one row a location. -/
theorem clash_of_located {id scope p : Text} {r q : Row EntryKey F}
    (hr : r (.field .snapshotId) = .text id) (hq : q (.field .snapshotId) = .text id)
    (hrl : Located scope p r) (hql : Located scope p q) : entrySchema.clash r q = true := by
  refine List.any_eq_true.2 ⟨[.field .snapshotId, .field .scopeId, .field .relativePath], by decide, ?_⟩
  simp [List.all_cons, hr, hq, hrl.1, hrl.2, hql.1, hql.2, Cell.agrees]

theorem located_unique {ix : Index F} (hix : ix.Keyed) (id : Text) :
    (snapshotRows ix id).Pairwise fun a b => ∀ scope p, Located scope p a → ¬ Located scope p b := by
  rw [snapshotRows, List.pairwise_filter]
  refine hix.snapshotEntries.imp fun {a b} h ha hb scope p hal hbl => ?_
  rw [is_text rfl] at ha hb
  rw [clash_of_located ha hb hal hbl] at h
  cases h

section
variable {ix : Index F} {id scope p : Text} {s : Snapshot F}

theorem encodable_of_read (h : getSnapshot ix (.str id) = .ok s) : id.encodable = true := by
  obtain ⟨row, rest, rows, entries, hrow, -⟩ := getSnapshot_eq_ok.1 h
  by_contra hid
  rw [Schema.select, Sqlite.bind, if_neg hid] at hrow
  cases hrow

/-- What a Snapshot that reads back says about its rows. -/
theorem entries_of_getSnapshot (hid : id.encodable = true) (h : getSnapshot ix (.str id) = .ok s) :
    (∀ r ∈ snapshotRows ix id, Ok (entryFromRow r)) ∧
      s.entries = ((snapshotRows ix id).insertionSort entryRowLe).map entryOf := by
  obtain ⟨row, rest, rows, entries, -, hrows, hm, hs⟩ := getSnapshot_eq_ok.1 h
  rw [entries_of_snapshotFromRow hs]
  rw [selectEntries, Schema.select, bind_text hid] at hrows
  cases hrows
  obtain ⟨hok, hentries⟩ := mapM_entryFromRow.1 hm
  exact ⟨fun r hr => hok r ((List.mem_insertionSort _).2 hr), hentries⟩

theorem located_eq (hid : id.encodable = true) (h : getSnapshot ix (.str id) = .ok s)
    (hix : ix.Keyed) {r : Row EntryKey F} (hr : r ∈ snapshotRows ix id) (hl : Located scope p r) :
    s.located scope p = [entryOf r] := by
  rw [Snapshot.located, (entries_of_getSnapshot hid h).2, List.filter_map]
  have hpair : ((snapshotRows ix id).insertionSort entryRowLe).Pairwise
      fun a b => ∀ scope p, Located scope p a → ¬ Located scope p b :=
    (List.Perm.pairwise_iff (fun {a b} hab scope p hb ha => hab scope p ha hb)
      (List.perm_insertionSort _ _)).2 (located_unique hix id)
  rw [filter_eq_singleton (x := r) (hpair.imp fun {a b} hab ha => ?_) ((List.mem_insertionSort _).2 hr)
    (located_entryOf.2 hl)]
  · rfl
  · exact Bool.eq_false_iff.2 fun hb => hab scope p (located_entryOf.1 ha) (located_entryOf.1 hb)

/-- The rows of a Snapshot that the lookup matches. -/
def matchedRows (ix : Index F) (id scope p : Text) : List (Row EntryKey F) :=
  (snapshotRows ix id).filter (atLocation scope p).admits

theorem admits_atLocation {r : Row EntryKey F} : (atLocation scope p).admits r = true ↔
    r (.field .scopeId) = .text scope ∧ matchesPrefix p r = true := by
  simp only [EntryFilter.admits, atLocation, Option.all_some, Option.all_none, Bool.and_true,
    Bool.and_eq_true]
  rw [is_text rfl]

/-- A recorded path matches the prefix when it is the path or lies below a case variant of it. -/
theorem matchesPrefix_of {r : Row EntryKey F} {q : Text} (hr : r (.field .relativePath) = .text q)
    (hp : RecordedPath p) :
    matchesPrefix p r = true ↔ p = txt "." ∨ q = p ∨ below p q = true := by
  rw [matchesPrefix, hr, likeCell, belowPattern, like_below hp.noNul]
  simp only [Bool.or_eq_true, decide_eq_true_eq, or_assoc]
  rw [is_text rfl, hr, Cell.text.injEq]

theorem encodable_belowPattern {p : Text} (h : p.encodable = true) : (belowPattern p).encodable = true := by
  have hmem : ∀ c ∈ escapeLike p, (!Text.isSurrogate c) = true := by
    intro c hc
    obtain ⟨d, hd, hc⟩ := List.mem_flatMap.1 hc
    have hd := List.all_eq_true.1 h d hd
    split_ifs at hc
    · rcases List.mem_cons.1 hc with rfl | hc
      · decide
      · rw [List.mem_singleton.1 hc]; exact hd
    · rw [List.mem_singleton.1 hc]; exact hd
  rw [belowPattern, Text.encodable_append]
  exact ⟨List.all_eq_true.2 hmem, by decide⟩

theorem encodable_values (hscope : scope.encodable = true) (hp : p.encodable = true) :
    ∀ t ∈ (atLocation scope p).values, t.encodable = true := by
  simp only [EntryFilter.values, atLocation, Option.toList_some, Option.map_none, Option.toList_none,
    List.append_nil]
  intro t ht
  rcases List.mem_append.1 ht with ht | ht
  · rw [List.mem_singleton.1 ht]; exact hscope
  · split_ifs at ht
    · cases ht
    · rcases List.mem_cons.1 ht with rfl | ht
      · exact hp
      · rw [List.mem_singleton.1 ht]; exact encodable_belowPattern hp

theorem entryPage_atLocation (hid : id.encodable = true) (h : getSnapshot ix (.str id) = .ok s)
    (hscope : scope.encodable = true) (hp : p.encodable = true) (limit : Nat) :
    ∃ more, entryPage ix (.str id) (atLocation scope p) limit 0 =
      .ok ⟨.str id, (((matchedRows ix id scope p).insertionSort entryRowLe).take limit).map entryOf,
        (((matchedRows ix id scope p).insertionSort entryRowLe).take limit).length, limit, 0, more⟩ := by
  obtain ⟨row, rest, -, -, hrow, -⟩ := getSnapshot_eq_ok.1 h
  obtain ⟨hok, -⟩ := entries_of_getSnapshot hid h
  set rows := (matchedRows ix id scope p).insertionSort entryRowLe with hrows
  have hselect : selectPage ix (.str id) (atLocation scope p) limit 0 = .ok (rows.take (limit + 1)) := by
    have hvalues : Ok ((atLocation scope p).values.mapM fun t => sql (Sqlite.bind (F := F) (.str t))) :=
      ok_mapM.2 fun t ht => ok_sql_iff.2 ⟨_, bind_text (encodable_values hscope hp t ht)⟩
    obtain ⟨cells, hcells⟩ := hvalues
    have hmatched : ix.snapshotEntries.filter (fun r => entrySchema.is (.field .snapshotId) (.text id) r &&
        (atLocation scope p).admits r) = matchedRows ix id scope p := by
      rw [matchedRows, snapshotRows, List.filter_filter]
      exact List.filter_congr fun r _ => Bool.and_comm _ _
    rw [selectPage, bind_text hid, sql_ok, ok_bind_ok, hcells, ok_bind_ok, hrows, ← hmatched]
    rfl
  have htake : ((rows.take (limit + 1)).take limit).mapM (fun r => py (entryFromRow r)) =
      .ok ((rows.take limit).map entryOf) := by
    rw [List.take_take, Nat.min_eq_left limit.le_succ]
    refine mapM_entryFromRow.2 ⟨fun r hr => hok r ?_, rfl⟩
    exact List.mem_of_mem_filter ((List.mem_insertionSort _).1 (List.mem_of_mem_take hr))
  refine ⟨limit < (rows.take (limit + 1)).length, ?_⟩
  rw [entryPage, hrow, sql_ok, ok_bind_ok, if_neg (by simp), hselect]
  simp only [ok_bind_ok, htake, List.length_map]
  rfl

/-! ## The order of the matched rows -/

/-- The recorded path of each row of the scope. -/
theorem recorded_rows (hid : id.encodable = true) (h : getSnapshot ix (.str id) = .ok s)
    (hrec : s.Recorded scope) {r : Row EntryKey F} (hr : r ∈ snapshotRows ix id)
    (hscope : r (.field .scopeId) = .text scope) :
    ∃ q, r (.field .relativePath) = .text q ∧ RecordedPath q := by
  have hmem : entryOf r ∈ s.entries := by
    rw [(entries_of_getSnapshot hid h).2]
    exact List.mem_map_of_mem ((List.mem_insertionSort _).2 hr)
  have hin : (entryOf r).inScope scope = true := by
    rw [Entry.inScope, entryOf_field, hscope]
    exact Value.eq_str.2 rfl
  obtain ⟨q, hq, hrq⟩ := hrec _ hmem hin
  rw [entryOf_field, Cell.toValue_eq_str] at hq
  exact ⟨q, hq, hrq⟩

theorem matchedRows_ordered (hid : id.encodable = true) (h : getSnapshot ix (.str id) = .ok s)
    (hix : ix.Keyed) (hrec : s.Recorded scope) :
    ((matchedRows ix id scope p).insertionSort entryRowLe).Pairwise fun a b => pathText a < pathText b := by
  have hrow (r) (hr : r ∈ matchedRows ix id scope p) :
      r (.field .scopeId) = .text scope ∧ r (.field .relativePath) = .text (pathText r) := by
    obtain ⟨hmem, hadm⟩ := List.mem_filter.1 hr
    have hscope := (admits_atLocation.1 hadm).1
    obtain ⟨q, hq, -⟩ := recorded_rows hid h hrec hmem hscope
    exact ⟨hscope, by rw [pathText_of hq, hq]⟩
  -- within one scope the rows are ordered by their paths
  have hle : ∀ a ∈ matchedRows ix id scope p, ∀ b ∈ matchedRows ix id scope p,
      (entryRowLe a b ↔ pathText a ≤ pathText b) := by
    intro a ha b hb
    obtain ⟨has, hap⟩ := hrow a ha
    obtain ⟨hbs, hbp⟩ := hrow b hb
    rw [entryRowLe, has, hbs, hap, hbp]
    simp [cellLe, Text.utf8_le_iff]
  have hmap := List.map_insertionSort (r := entryRowLe) (s := (· ≤ ·)) pathText (matchedRows ix id scope p) hle
  have hsorted : (((matchedRows ix id scope p).insertionSort entryRowLe).map pathText).Pairwise (· ≤ ·) := by
    rw [hmap]
    exact List.pairwise_insertionSort _ _
  have hnodup : (((matchedRows ix id scope p).insertionSort entryRowLe).map pathText).Nodup := by
    rw [((List.perm_insertionSort entryRowLe _).map pathText).nodup_iff, List.Nodup, List.pairwise_map]
    refine ((located_unique hix id).filter _).imp_of_mem fun {a b} ha hb hab heq => ?_
    obtain ⟨has, hap⟩ := hrow a ha
    obtain ⟨hbs, hbp⟩ := hrow b hb
    exact hab scope (pathText a) ⟨has, hap⟩ ⟨hbs, by rw [hbp, heq]⟩
  exact List.pairwise_map.1 (hsorted.imp₂ (fun _ _ => lt_of_le_of_ne) hnodup)

/-- The matched rows before the location are those of the entries that shadow it. -/
theorem countP_matchedRows (hid : id.encodable = true) (h : getSnapshot ix (.str id) = .ok s)
    (hrec : s.Recorded scope) (hp : RecordedPath p) :
    (matchedRows ix id scope p).countP (fun r => pathText r < p) = s.shadowed scope p := by
  rw [Snapshot.shadowed, (entries_of_getSnapshot hid h).2, List.countP_map,
    (List.perm_insertionSort _ _).countP_eq, matchedRows, List.countP_filter]
  refine List.countP_congr fun r hr => ?_
  rw [Bool.and_eq_true, decide_eq_true_eq, admits_atLocation, Function.comp_apply, Entry.shadows,
    Bool.and_eq_true, Entry.inScope, entryOf_field, Value.eq_str, Cell.toValue_eq_str]
  by_cases hscope : r (.field .scopeId) = .text scope
  · obtain ⟨q, hq, hrq⟩ := recorded_rows hid h hrec hr hscope
    have hvalue : (entryOf r).field .relativePath = .str q := by rw [entryOf_field, hq]; rfl
    rw [matchesPrefix_of hq hp, pathText_of hq, hvalue]
    simp only [hscope, true_and, shadowsPath, Bool.and_eq_true, Bool.or_eq_true, decide_eq_true_eq]
    refine and_congr_right fun hlt => ?_
    rw [or_iff_right hlt.ne]
  · exact iff_of_false (fun hc => hscope hc.2.1) fun hc => hscope hc.1

/-- What a lookup finds on a page of `limit` rows. -/
theorem pageAt_eq (hid : id.encodable = true) (h : getSnapshot ix (.str id) = .ok s) (hix : ix.Keyed)
    (hrec : s.Recorded scope) (hscope : scope.encodable = true) (hp : RecordedPath p) (limit : Nat) :
    ∃ page, entryPage ix (.str id) (atLocation scope p) limit 0 = .ok page ∧
      (∀ e ∈ page.entries, e.inScope scope = true) ∧
      page.entries.filter (·.hasPath p) = if s.shadowed scope p < limit then s.located scope p else [] := by
  obtain ⟨more, hpage⟩ := entryPage_atLocation hid h hscope hp.encodable limit
  set rows := (matchedRows ix id scope p).insertionSort entryRowLe with hrows
  have hmem {r} : r ∈ rows ↔ r ∈ snapshotRows ix id ∧ (atLocation scope p).admits r = true := by
    rw [hrows, List.mem_insertionSort, matchedRows, List.mem_filter]
  have hordered : rows.Pairwise fun a b => pathText a < pathText b := matchedRows_ordered hid h hix hrec
  have hcount : rows.countP (fun r => pathText r < p) = s.shadowed scope p := by
    rw [hrows, (List.perm_insertionSort _ _).countP_eq, countP_matchedRows hid h hrec hp]
  have hpath {r : Row EntryKey F} : (entryOf r).hasPath p = true ↔ r (.field .relativePath) = .text p := by
    rw [Entry.hasPath, entryOf_field, Value.eq_str, Cell.toValue_eq_str]
  have hfilter : ((rows.take limit).map entryOf).filter (·.hasPath p) =
      ((rows.take limit).filter fun r => (entryOf r).hasPath p).map entryOf := List.filter_map ..
  refine ⟨_, hpage, ?_, ?_⟩
  · intro e he
    obtain ⟨r, hr, rfl⟩ := List.mem_map.1 he
    rw [Entry.inScope, entryOf_field, (admits_atLocation.1 (hmem.1 (List.mem_of_mem_take hr)).2).1]
    exact Value.eq_str.2 rfl
  · show ((rows.take limit).map entryOf).filter (·.hasPath p) = _
    rw [hfilter]
    by_cases hfound : ∃ r ∈ rows.take limit, r (.field .relativePath) = .text p
    · obtain ⟨r, hr, hrp⟩ := hfound
      have hrow := hmem.1 (List.mem_of_mem_take hr)
      have hlt : s.shadowed scope p < limit := by
        rw [← hcount, ← pathText_of hrp]
        exact (mem_take_iff hordered (List.mem_of_mem_take hr) limit).1 hr
      have hpair : (rows.take limit).Pairwise
          fun a b => (entryOf a).hasPath p = true → (entryOf b).hasPath p = false := by
        refine (hordered.sublist (List.take_sublist _ _)).imp fun {a b} hab ha => ?_
        refine Bool.eq_false_iff.2 fun hb => ?_
        rw [pathText_of (hpath.1 ha), pathText_of (hpath.1 hb)] at hab
        exact lt_irrefl _ hab
      rw [if_pos hlt, filter_eq_singleton hpair hr (hpath.2 hrp),
        located_eq hid h hix hrow.1 ⟨(admits_atLocation.1 hrow.2).1, hrp⟩]
      rfl
    · have hnone : (rows.take limit).filter (fun r => (entryOf r).hasPath p) = [] :=
        List.filter_eq_nil_iff.2 fun r hr hrp => hfound ⟨r, hr, hpath.1 hrp⟩
      rw [hnone]
      split_ifs with hlt
      · -- a row of the location would be on the page
        refine Eq.symm (List.filter_eq_nil_iff.2 fun e he hloc => hfound ?_)
        rw [(entries_of_getSnapshot hid h).2] at he
        obtain ⟨r, hr, rfl⟩ := List.mem_map.1 he
        rw [List.mem_insertionSort] at hr
        obtain ⟨hrs, hrp⟩ := located_entryOf.1 hloc
        have hadm : (atLocation scope p).admits r = true :=
          admits_atLocation.2 ⟨hrs, (matchesPrefix_of hrp hp).2 (.inr (.inl rfl))⟩
        refine ⟨r, (mem_take_iff hordered (hmem.2 ⟨hr, hadm⟩) limit).2 ?_, hrp⟩
        rw [pathText_of hrp, hcount]
        exact hlt
      · rfl

end

end Steward
