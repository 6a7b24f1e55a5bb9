import Steward.Session.EntryReference
import Steward.Snapshot.Published

/-!
# Which entries resolve

Both lookups take a page of the path prefix and look for the path in it, two
rows for the facade and one for the session. They report a location as the
Snapshot has it exactly when no more rows come before the path than the page
has room for: `reportsLocation_iff`.
-/

namespace Steward.Session

open Py Sqlite

variable {F : Type} [SqliteFloat F]

/-- A Snapshot of the index that verifies as `VALID`. -/
structure ValidSnapshot (c : Corpus F) (ix : Index F) (depth : Nat) (id : Text) (v : Verification F)
    (s : Snapshot F) : Prop where
  keyed : ix.Keyed
  verified : verifySnapshot c ix depth (.str id) = .ok v
  valid : v.status = .valid
  read : getSnapshot ix (.str id) = .ok s

/-- A location of the Snapshot: a scope it lists, and a path the scanner can record, as it has recorded
all paths there. -/
structure Location (s : Snapshot F) (scope p : Text) : Prop where
  listed : holdsText s.scopeIds scope = true
  scope_encodable : scope.encodable = true
  path : RecordedPath p
  recorded : s.Recorded scope

/-- The result of resolving `e`. -/
def resolutionOf (v : Verification F) (id scope p : Text) (e : Entry F) : EntryResolution F :=
  ⟨v, id, scope, p, e, true, txt "filesystem_metadata_or_search"⟩

/-- A call for one item may begin. -/
def SharedToolBudget.Opens (b : SharedToolBudget) : Prop :=
  Ok (b.effectiveLimit (some 1)) ∧ Ok (b.beginCall none)

/-- A result of one item may be charged to a call that began. -/
def SharedToolBudget.Affords (b : SharedToolBudget) (serializedBytes elapsedMs : Nat) : Prop :=
  ∀ b', b.beginCall none = .ok b' → Ok (b'.consumeResult 1 serializedBytes elapsedMs)

section
variable (c : Corpus F) (ix : Index F) (depth : Nat) (size : EntryResolution F → Nat) (elapsed : Nat)
  (b : SharedToolBudget) (m : TaskObjectMemory) (id : Text) (v : Verification F) (s : Snapshot F)
  (scope p : Text)

/-- Both lookups report the location as the Snapshot has it. -/
def ReportsLocation : Prop :=
  match s.located scope p with
  | [e] =>
    (∃ env, (stewardResolveEntryReference c ix depth size elapsed id scope p b).1 = .ok env ∧
      env.result = resolutionOf v id scope p e) ∧
    (admitsRelativePath p = true → ∃ r, (rememberEntry c ix depth id scope p m).1 = .ok r ∧
      r.kind = .entry ∧ r.snapshotId = some id ∧ r.scopeId = some scope ∧ r.relativePath = some p)
  | _ =>
    (stewardResolveEntryReference c ix depth size elapsed id scope p b).1 = .error notResolved ∧
    (admitsRelativePath p = true → (rememberEntry c ix depth id scope p m).1 =
      .error (.selectionNotFound (txt "task Entry does not exist")))

/-- The inventory reads, the budget admits the call, and an entry at the location is on both pages. -/
structure Resolvable : Prop where
  inventory : Ok (listSnapshots ix none)
  opens : b.Opens
  affords : ∀ e ∈ s.located scope p, b.Affords (size (resolutionOf v id scope p e)) elapsed
  facade : s.located scope p ≠ [] → s.shadowed scope p < 2
  session : s.located scope p ≠ [] → admitsRelativePath p = true → s.shadowed scope p < 1

end

/-! ## The Snapshot and its location -/

theorem validateRelativePath_recorded {p : Text} (h : RecordedPath p) (field : Text) :
    validateRelativePath (some p) field = .ok () := by
  have hroot := h.canonical.relative
  have hempty : p ≠ [] := by
    rintro rfl
    rcases h.canonical with hc | hc
    · cases hc
    · exact (hc [] (by decide)).1 rfl
  rw [validateRelativePath, if_neg (by simp [hroot, hempty])]
  by_cases hdot : p = txt "."
  · subst hdot
    rfl
  · have hparts : hierarchyInvalid p = false := by
      rcases h.canonical with hc | hc
      · exact absurd hc hdot
      · rw [hierarchyInvalid, List.any_eq_false]
        intro part hpart
        simp [(hc part hpart).1, (hc part hpart).2.1, (hc part hpart).2.2]
    rw [if_neg (by simp [hparts])]
    rfl

theorem safeCall_ne {α : Type} (x : Result α) : safeCall x ≠ .error notResolved := by
  intro h
  unfold safeCall at h
  split at h
  · cases h
  all_goals first
    | exact absurd (Except.error.inj h) (by decide)
    | (split_ifs at h <;> exact absurd (Except.error.inj h) (by decide))

@[simp] theorem safeCall_ok {α : Type} (a : α) : safeCall (.ok a) = .ok a := rfl

theorem not_ok_safeCall {α : Type} (e : Exc) : ¬ Ok (safeCall (.error e : Result α)) := by
  rintro ⟨a, h⟩
  unfold safeCall at h
  split at h
  · rename_i heq
    cases heq
  all_goals (first | split_ifs at h | skip) <;> cases h

theorem effectiveLimit_ne (b : SharedToolBudget) (n : Option Nat) :
    b.effectiveLimit n ≠ .error notResolved := by
  intro h
  unfold SharedToolBudget.effectiveLimit at h
  split at h
  · cases h
  · dsimp only at h
    split_ifs at h
    · exact absurd (Except.error.inj h) (by decide)
    · cases h

theorem beginCall_ne (b : SharedToolBudget) : b.beginCall none ≠ .error notResolved := by
  intro h
  unfold SharedToolBudget.beginCall at h
  simp only [Option.any_none, Bool.false_eq_true, if_false] at h
  split_ifs at h
  · exact absurd (Except.error.inj h) (by decide)
  · cases h

section
variable {c : Corpus F} {ix : Index F} {depth : Nat} {id : Text} {v : Verification F} {s : Snapshot F}

/-- The row the Snapshot is read from is the only one of its id. -/
theorem row_of_read (hix : ix.Keyed) (h : getSnapshot ix (.str id) = .ok s) :
    ∃ row entries, row ∈ ix.snapshots ∧ row (.field .snapshotId) = .text id ∧
      snapshotFromRow row entries = .ok s ∧
      ∀ r ∈ ix.snapshots, r (.field .snapshotId) = .text id → r = row := by
  obtain ⟨row, rest, rows, entries, hrow, -, -, hs⟩ := getSnapshot_eq_ok.1 h
  have his {r : Row SnapshotColumn F} :
      snapshotSchema.is (.field .snapshotId) (.text id) r = true ↔ r (.field .snapshotId) = .text id :=
    agrees_text
  rw [Schema.select, bind_text (encodable_of_read h)] at hrow
  have hfilter : ix.snapshots.filter (snapshotSchema.is (.field .snapshotId) (.text id)) = row :: rest :=
    Except.ok.inj hrow
  have hmem (r) : r ∈ row :: rest ↔ r ∈ ix.snapshots ∧ r (.field .snapshotId) = .text id := by
    rw [← hfilter, List.mem_filter, his]
  have hpair : (row :: rest).Pairwise fun a b => snapshotSchema.clash a b = false := by
    rw [← hfilter]
    exact hix.snapshots.filter _
  obtain ⟨hin, hrowid⟩ := (hmem row).1 List.mem_cons_self
  refine ⟨row, entries, hin, hrowid, hs, fun r hr hid => ?_⟩
  rcases List.mem_cons.1 ((hmem r).2 ⟨hr, hid⟩) with rfl | hrest
  · rfl
  · -- two rows of one id clash
    have hclash : snapshotSchema.clash row r = true := by
      refine List.any_eq_true.2 ⟨[.field .snapshotId], by decide, ?_⟩
      simp [hrowid, hid, Cell.agrees]
    rw [(List.pairwise_cons.1 hpair).1 r hrest] at hclash
    cases hclash

theorem scopeIds_of_summary {row : Row SnapshotColumn F} {entries : List (Entry F)}
    {summary : SnapshotSummary F} (h : snapshotFromRow row entries = .ok s)
    (hs : summaryFromRow row = .ok summary) : summary.scopeIds = s.scopeIds := by
  simp only [snapshotFromRow, bind_eq_ok, py_eq_ok] at h
  obtain ⟨_, -, _, -, _, -, scopes, hscopes, ids, hids, _, -, _, -, h⟩ := h
  cases h
  simp only [summaryFromRow, bind_eq_ok] at hs
  obtain ⟨_, -, scopes', hscopes', ids', hids', hs⟩ := hs
  cases hs
  rw [hscopes] at hscopes'
  cases hscopes'
  rw [hids] at hids'
  cases hids'
  rfl

/-- The inventory shows the Snapshot with its scopes. -/
theorem validateScope_eq_ok (hix : ix.Keyed) (h : getSnapshot ix (.str id) = .ok s) {scope : Text}
    (hlisted : holdsText s.scopeIds scope = true) :
    validateScope ix id (some scope) = .ok () ↔ Ok (listSnapshots ix none) := by
  rw [validateScope]
  cases hlist : listSnapshots ix none with
  | error e =>
    refine iff_of_false (fun hc => ?_) (not_ok_error e)
    obtain ⟨summaries, hsum, -⟩ := bind_eq_ok.1 hc
    exact not_ok_safeCall e ⟨_, hsum⟩
  | ok summaries =>
    refine iff_of_true ?_ (ok_ok _)
    obtain ⟨row, entries, hrow, hrowid, hs, honly⟩ := row_of_read hix h
    have hmap := mapM_eq_ok.1 (py_eq_ok.1 hlist)
    have hid {r : Row SnapshotColumn F} {summary : SnapshotSummary F} (hr : summaryFromRow r = .ok summary) :
        summary.snapshotId.eq (.str id) = true ↔ r (.field .snapshotId) = .text id := by
      simp only [summaryFromRow, bind_eq_ok] at hr
      obtain ⟨_, -, _, -, _, -, hr⟩ := hr
      cases hr
      rw [Value.eq_str, Cell.toValue_eq_str]
    cases hfind : summaries.find? fun item => item.snapshotId.eq (.str id) with
    | none =>
      obtain ⟨summary, hmem, hr⟩ := forall₂_mem_left hmap ((List.mem_insertionSort _).2 hrow)
      exact absurd ((hid hr).2 hrowid) (by simpa using List.find?_eq_none.1 hfind summary hmem)
    | some summary =>
      obtain ⟨r, hr, hsummary⟩ := forall₂_mem_right hmap (List.mem_of_find?_eq_some hfind)
      have hr' : r = row := honly r ((List.mem_insertionSort _).1 hr)
        ((hid hsummary).1 (by simpa using List.find?_some hfind))
      rw [safeCall_ok, ok_bind_ok, hfind]
      show (if _ then _ else _) = _
      rw [scopeIds_of_summary (hr' ▸ hs) hsummary, hlisted]
      rfl

/-! ## The two pages -/

theorem validatePage_recorded {limit : Int} (hlimit : 1 ≤ limit ∧ limit ≤ 1000) {p : Text} (h : RecordedPath p) :
    validatePage limit 0 (some p) = .ok () := by
  have hparent : p ≠ txt ".." ∧ p.startsWith (txt "../") = false := by
    rcases h.canonical with rfl | hc
    · decide
    · have hnot : txt ".." ∉ Path.components p := fun hmem => (hc _ hmem).2.2 rfl
      rw [Path.mem_components (by decide), not_or, not_or] at hnot
      exact ⟨hnot.1, Bool.eq_false_iff.2 hnot.2.1⟩
  rw [validatePage]
  simp only [Option.any_some, h.canonical.relative, hparent.1, hparent.2, decide_false, Bool.or_false,
    Bool.false_eq_true, if_false, decide_eq_true hlimit.1, decide_eq_true hlimit.2, Bool.and_self,
    Bool.not_true, lt_irrefl, if_false]
  rfl

theorem ValidSnapshot.page (hv : ValidSnapshot c ix depth id v s) {scope p : Text} (hl : Location s scope p)
    {limit : Nat} (hlimit : 1 ≤ limit ∧ limit ≤ 1000) :
    ∃ page, listSnapshotEntries ix (.str id) (atLocation scope p) limit 0 = .ok page ∧
      verifiedSnapshotEntries c ix depth (.str id) (atLocation scope p) limit 0 = .ok (v, s, page) ∧
      (∀ e ∈ page.entries, e.inScope scope = true) ∧
      page.entries.filter (·.hasPath p) = if s.shadowed scope p < limit then s.located scope p else [] := by
  obtain ⟨page, hpage, hscope, hfilter⟩ := pageAt_eq (encodable_of_read hv.read) hv.read hv.keyed
    hl.recorded hl.scope_encodable hl.path limit
  have hvalid : validatePage limit 0 (atLocation scope p).pathPrefix = .ok () :=
    validatePage_recorded ⟨by exact_mod_cast hlimit.1, by exact_mod_cast hlimit.2⟩ hl.path
  have hlisted : ((atLocation scope p).scopeId.any fun t => !holdsText s.scopeIds t) = false := by
    rw [atLocation, Option.any_some, hl.listed]
    rfl
  refine ⟨page, ?_, ?_, hscope, hfilter⟩
  · rw [listSnapshotEntries, hvalid, ok_bind_ok]
    exact hpage
  · rw [verifiedSnapshotEntries, hvalid, ok_bind_ok, hv.verified, ok_bind_ok, hv.read, ok_bind_ok, hlisted]
    simp only [Bool.false_eq_true, if_false]
    exact bind_eq_ok.2 ⟨page, hpage, rfl⟩

theorem located_cases (hv : ValidSnapshot c ix depth id v s) (scope p : Text) :
    s.located scope p = [] ∨ ∃ e, s.located scope p = [e] := by
  have hid := encodable_of_read hv.read
  by_cases hex : ∃ r ∈ snapshotRows ix id, Located scope p r
  · obtain ⟨r, hr, hl⟩ := hex
    exact .inr ⟨_, located_eq hid hv.read hv.keyed hr hl⟩
  · refine .inl (List.filter_eq_nil_iff.2 fun e he hloc => hex ?_)
    rw [(entries_of_getSnapshot hid hv.read).2] at he
    obtain ⟨r, hr, rfl⟩ := List.mem_map.1 he
    exact ⟨r, (List.mem_insertionSort _).1 hr, located_entryOf.1 hloc⟩

/-- What the facade returns once its budget let the call begin. -/
theorem resolve_run (hv : ValidSnapshot c ix depth id v s) {scope p : Text} (hl : Location s scope p)
    (hinv : Ok (listSnapshots ix none)) {b b' : SharedToolBudget} (hlimit : Ok (b.effectiveLimit (some 1)))
    (hbegin : b.beginCall none = .ok b') (size : EntryResolution F → Nat) (elapsed : Nat) :
    (stewardResolveEntryReference c ix depth size elapsed id scope p b).1 =
      match if s.shadowed scope p < 2 then s.located scope p else [] with
      | [e] => (b'.consumeResult 1 (size (resolutionOf v id scope p e)) elapsed).map fun _ =>
          ⟨txt "steward_resolve_entry_reference", [id], some scope, resolutionOf v id scope p e, some 1, some 1,
            size (resolutionOf v id scope p e), elapsed⟩
      | _ => .error notResolved := by
  obtain ⟨page, hpage, -, -, hfilter⟩ := @ValidSnapshot.page _ _ _ _ _ _ _ _ hv _ _ hl 2 (by decide)
  obtain ⟨limit, hlimit⟩ := hlimit
  have hverified : verification c ix depth id = .ok v := by
    rw [verification, hv.verified]
    exact if_pos hv.valid
  have hscope := (validateScope_eq_ok hv.keyed hv.read hl.listed).2 hinv
  have hpath := validateRelativePath_recorded hl.path (txt "relative_path")
  have hpage : listSnapshotEntries ix (.str id) (atLocation scope p) 2 0 = .ok page := hpage
  simp only [stewardResolveEntryReference, charge, Stateful.bind_run, Stateful.lift, Stateful.get,
    Stateful.modify, hscope, hpath, hlimit, hbegin, hverified, hpage, safeCall_ok, hfilter]
  generalize (if s.shadowed scope p < 2 then s.located scope p else []) = found
  rcases found with _ | ⟨e, _ | _⟩
  · rfl
  · simp only [Stateful.bind_run, Stateful.lift, Stateful.get, Stateful.modify, resolutionOf]
    cases b'.consumeResult 1 (size ⟨v, id, scope, p, e, true, txt "filesystem_metadata_or_search"⟩) elapsed <;> rfl
  · rfl

theorem encodable_entryId {a b d o : Text} (h : entryId (F := F) a b d = .ok o) : o.encodable = true := by
  rw [entryId] at h
  split at h
  · cases h
    exact sha256_encodable _
  · cases h

theorem safe_referencePayload (m : TaskObjectMemory) (kind : TaskObjectKind) {objectId a scope p : Text}
    (ho : objectId.encodable = true) (ha : a.encodable = true) (hs : scope.encodable = true)
    (hp : p.encodable = true) :
    (referencePayload (F := F) m kind objectId (some a) (some scope) (some p)).safe = true := by
  have hkind : kind.value.encodable = true := by cases kind <;> decide
  rw [referencePayload, Value.safe_dict]
  refine ⟨?_, ?_⟩
  · have hall : ([txt "domain", txt "task_digest", txt "authority_domain_digest", txt "kind", txt "object_id",
        txt "snapshot_id", txt "scope_id", txt "relative_path"].all Text.encodable) = true := by decide
    exact fun t ht => List.all_eq_true.1 hall t ht
  · simp only [List.forall_mem_cons, List.not_mem_nil, false_imp_iff, implies_true, and_true, textOrNull,
      Option.elim_some, Value.safe_str]
    exact ⟨by decide, m.taskDigest_encodable, m.authorityDomainDigest_encodable, hkind, ho, ha, hs, hp⟩

/-- What the session returns for a path it admits. -/
theorem remember_run (hv : ValidSnapshot c ix depth id v s) {scope p : Text} (hl : Location s scope p)
    (hadm : admitsRelativePath p = true) (m : TaskObjectMemory) :
    if s.shadowed scope p < 1 ∧ s.located scope p ≠ [] then
      ∃ r, (rememberEntry c ix depth id scope p m).1 = .ok r ∧ r.kind = .entry ∧ r.snapshotId = some id ∧
        r.scopeId = some scope ∧ r.relativePath = some p
    else (rememberEntry c ix depth id scope p m).1 =
      .error (.selectionNotFound (txt "task Entry does not exist")) := by
  obtain ⟨page, -, hpage, hin, hfilter⟩ := @ValidSnapshot.page _ _ _ _ _ _ _ _ hv _ _ hl 1 (by decide)
  have hpage : verifiedSnapshotEntries c ix depth (.str id) (atLocation scope p) 1 0 = .ok (v, s, page) := hpage
  have hfound : (page.entries.find? fun e => e.inScope scope && e.hasPath p) =
      if s.shadowed scope p < 1 then (s.located scope p).head? else none := by
    rw [← List.head?_filter, List.filter_congr (q := (·.hasPath p)) fun e he => by rw [hin e he, Bool.true_and],
      hfilter]
    split_ifs <;> rfl
  obtain ⟨objectId, hobject⟩ := (ok_entryId (F := F)).2
    ⟨encodable_of_read hv.read, hl.scope_encodable, hl.path.encodable⟩
  obtain ⟨d, hdigest⟩ := ok_digestOf.2 (safe_referencePayload (F := F) m .entry (encodable_entryId hobject)
    (encodable_of_read hv.read) hl.scope_encodable hl.path.encodable)
  by_cases hlt : s.shadowed scope p < 1
  · rw [if_pos hlt] at hfound
    rcases located_cases hv scope p with hloc | ⟨e, hloc⟩
    · rw [if_neg fun hc => hc.2 hloc]
      rw [hloc] at hfound
      simp only [rememberEntry, Stateful.bind_run, raising, Stateful.lift, hadm, hpage, hv.valid, hfound,
        Except.mapError, Bool.not_true, Bool.false_eq_true, if_false, ne_eq, not_true, List.head?_nil,
        Option.isNone_none, Bool.true_or, if_true, Stateful.raise_run]
    · rw [if_pos ⟨hlt, by rw [hloc]; exact List.cons_ne_nil _ _⟩]
      rw [hloc, List.head?_cons] at hfound
      simp only [rememberEntry, recordReference, Stateful.bind_run, raising, Stateful.lift, Stateful.get,
        Stateful.modify, hadm, hpage, hv.valid, hfound, hl.listed, hobject, hdigest, py_ok, Except.mapError,
        Bool.not_true, Bool.false_eq_true, if_false, ne_eq, not_true, Option.isNone_some, Bool.or_false,
        Stateful.pure_run]
      exact ⟨_, rfl, rfl, rfl, rfl, rfl⟩
  · rw [if_neg fun hc => hlt hc.1]
    rw [if_neg hlt] at hfound
    simp only [rememberEntry, Stateful.bind_run, raising, Stateful.lift, hadm, hpage, hv.valid, hfound,
      Except.mapError, Bool.not_true, Bool.false_eq_true, if_false, ne_eq, not_true, Option.isNone_none,
      Bool.true_or, if_true, Stateful.raise_run]

/-! ## When both report the location -/

/-- A call that gets past its budget leaves a result or the one error of a missing entry. -/
theorem opens_of_resolve (hv : ValidSnapshot c ix depth id v s) {scope p : Text} (hl : Location s scope p)
    {size : EntryResolution F → Nat} {elapsed : Nat} {b : SharedToolBudget}
    (h : Ok (stewardResolveEntryReference c ix depth size elapsed id scope p b).1 ∨
      (stewardResolveEntryReference c ix depth size elapsed id scope p b).1 = .error notResolved) :
    Ok (listSnapshots ix none) ∧ b.Opens := by
  have hfails {e : AgentToolError} (hne : e ≠ notResolved)
      (hr : (stewardResolveEntryReference c ix depth size elapsed id scope p b).1 = .error e) : False := by
    rw [hr] at h
    rcases h with h | h
    · exact not_ok_error e h
    · exact hne (Except.error.inj h)
  have hscope := validateScope_eq_ok hv.keyed hv.read hl.listed
  have hpath := validateRelativePath_recorded hl.path (txt "relative_path")
  have hinv : Ok (listSnapshots ix none) := by
    cases hlist : listSnapshots ix none with
    | ok l => exact ok_ok l
    | error e =>
      cases hcall : safeCall (.error e : Result (List (SnapshotSummary F))) with
      | ok l => exact absurd ⟨l, hcall⟩ (not_ok_safeCall e)
      | error e' =>
        refine (hfails (e := e') (fun he => safeCall_ne _ (he ▸ hcall)) ?_).elim
        simp only [stewardResolveEntryReference, Stateful.bind_run, Stateful.lift, validateScope, hlist, hcall,
          error_bind]
  have hscope := hscope.2 hinv
  refine ⟨hinv, ?_, ?_⟩
  · cases hlimit : b.effectiveLimit (some 1) with
    | ok l => exact ok_ok l
    | error e =>
      refine (hfails (e := e) (fun he => effectiveLimit_ne b _ (he ▸ hlimit)) ?_).elim
      simp only [stewardResolveEntryReference, Stateful.bind_run, Stateful.lift, Stateful.get, hscope, hpath, hlimit]
  · cases hlimit : b.effectiveLimit (some 1) with
    | error e =>
      refine (hfails (e := e) (fun he => effectiveLimit_ne b _ (he ▸ hlimit)) ?_).elim
      simp only [stewardResolveEntryReference, Stateful.bind_run, Stateful.lift, Stateful.get, hscope, hpath, hlimit]
    | ok l =>
      cases hbegin : b.beginCall none with
      | ok b' => exact ok_ok b'
      | error e =>
        refine (hfails (e := e) (fun he => beginCall_ne b (he ▸ hbegin)) ?_).elim
        simp only [stewardResolveEntryReference, charge, Stateful.bind_run, Stateful.lift, Stateful.get, hscope,
          hpath, hlimit, hbegin]

/-- Both lookups report a location as the Snapshot has it exactly when the rows that come before its path
leave room for it on their pages. -/
theorem reportsLocation_iff (hv : ValidSnapshot c ix depth id v s) {scope p : Text} (hl : Location s scope p)
    (size : EntryResolution F → Nat) (elapsed : Nat) (b : SharedToolBudget) (m : TaskObjectMemory) :
    ReportsLocation c ix depth size elapsed b m id v s scope p ↔
      Resolvable ix size elapsed b id v s scope p := by
  have hremember := fun hadm => remember_run hv hl hadm m
  rcases located_cases hv scope p with hloc | ⟨e, hloc⟩
  · -- nothing is there
    simp only [ReportsLocation, hloc]
    constructor
    · rintro ⟨hresolve, -⟩
      obtain ⟨hinv, hopens⟩ := opens_of_resolve hv hl (.inr hresolve)
      exact ⟨hinv, hopens, by simp [hloc], fun hne => absurd hloc hne, fun hne => absurd hloc hne⟩
    · intro hr
      obtain ⟨hlimit, b', hbegin⟩ := hr.opens
      refine ⟨?_, fun hadm => ?_⟩
      · rw [resolve_run hv hl hr.inventory hlimit hbegin, hloc, ite_self]
      · have := hremember hadm
        rwa [if_neg fun hc => hc.2 hloc] at this
  · have hne : s.located scope p ≠ [] := by rw [hloc]; exact List.cons_ne_nil _ _
    simp only [ReportsLocation, hloc]
    constructor
    · rintro ⟨⟨env, hresolve, -⟩, hsession⟩
      obtain ⟨hinv, hopens⟩ := opens_of_resolve hv hl (.inl ⟨env, hresolve⟩)
      obtain ⟨hlimit, b', hbegin⟩ := hopens
      rw [resolve_run hv hl hinv hlimit hbegin, hloc] at hresolve
      have hfacade : s.shadowed scope p < 2 := by
        by_contra hlt
        rw [if_neg hlt] at hresolve
        cases hresolve
      refine ⟨hinv, ⟨hlimit, b', hbegin⟩, fun e' he' b'' hb'' => ?_, fun _ => hfacade, fun _ hadm => ?_⟩
      · rw [hloc, List.mem_singleton] at he'
        rw [hbegin] at hb''
        cases hb''
        subst he'
        rw [if_pos hfacade] at hresolve
        exact ok_map.1 ⟨_, hresolve⟩
      · by_contra hlt
        have := hremember hadm
        rw [if_neg fun hc => hlt hc.1] at this
        obtain ⟨r, hr, -⟩ := hsession hadm
        rw [this] at hr
        cases hr
    · intro hr
      obtain ⟨hlimit, b', hbegin⟩ := hr.opens
      obtain ⟨used, hused⟩ := hr.affords e (by rw [hloc]; exact List.mem_singleton_self e) b' hbegin
      refine ⟨?_, fun hadm => ?_⟩
      · rw [resolve_run hv hl hr.inventory hlimit hbegin, if_pos (hr.facade hne), hloc]
        simp only [hused]
        exact ⟨_, rfl, rfl⟩
      · have := hremember hadm
        rwa [if_pos ⟨hr.session hne hadm, hne⟩] at this

end

/-! ## A file beside a directory of another case -/

/-- `A/x` and `A/y` come before `a` on its page. -/
def siblings : Shelf :=
  [(txt ".", .directory), (txt "A", .directory), (txt "A/x", .regularFile), (txt "A/y", .regularFile),
    (txt "a", .regularFile)]

theorem siblings_shelved : Shelved siblings where
  safe p hp := by
    have hall : (siblings.all fun p => safePath (F := Integral) (.str p.1) && p.1.encodable) = true := by
      decide
    exact Bool.and_eq_true_iff.1 (List.all_eq_true.1 hall p hp)
  ordered := by decide +kernel
  separate := by decide +kernel

theorem siblings_recorded : ∀ p ∈ siblings, RecordedPath p.1 := by
  intro p hp
  have hall : (siblings.all fun p => decide (Path.Canonical p.1) && p.1.encodable &&
      p.1.all fun c => c.val ≠ 0) = true := by decide
  have := List.all_eq_true.1 hall p hp
  rw [Bool.and_eq_true, Bool.and_eq_true, decide_eq_true_eq] at this
  exact ⟨this.1.1, this.1.2, fun c hc => of_decide_eq_true (List.all_eq_true.1 this.2 c hc)⟩

theorem siblings_valid : ∃ v, ValidSnapshot (shelfCorpus siblings_shelved) (shelfIndex siblings) 0 shelfId v
    (shelfRead siblings) := by
  obtain ⟨v, hv, hvalid⟩ := shelf_verifies siblings_shelved 0
  exact ⟨v, shelfIndex_keyed siblings_shelved, hv, hvalid, getSnapshot_shelf siblings_shelved⟩

theorem siblings_location : Location (shelfRead siblings) (txt "managed") (txt "a") where
  listed := by
    rw [shelfRead_scopeIds siblings_shelved]
    decide
  scope_encodable := by decide
  path := siblings_recorded (txt "a", .regularFile) (by decide)
  recorded e he _ := by
    rw [shelfRead_entries siblings_shelved] at he
    obtain ⟨p, hp, rfl⟩ := List.mem_map.1 he
    exact ⟨p.1, rfl, siblings_recorded p hp⟩

theorem siblings_shadowed : (shelfRead siblings).shadowed (txt "managed") (txt "a") = 2 := by
  rw [Snapshot.shadowed, shelfRead_entries siblings_shelved]
  decide

/-- A turn without limits. -/
def unlimited : SharedToolBudget := ⟨⟨none, none, none, none, none, none, none, none⟩, ⟨0, 0, 0, 0⟩⟩

def emptyMemory : TaskObjectMemory := ⟨txt "0a", txt "0b", [], by decide, by decide⟩

theorem siblings_entry : ∃ e, (shelfRead siblings).located (txt "managed") (txt "a") = [e] := by
  obtain ⟨v, hv⟩ := siblings_valid
  rcases located_cases hv (txt "managed") (txt "a") with hnone | hone
  · have hmem : shelfEntry (txt "a", .regularFile) ∈
        (shelfRead siblings).located (txt "managed") (txt "a") := by
      rw [Snapshot.located, shelfRead_entries siblings_shelved, List.mem_filter]
      exact ⟨List.mem_map_of_mem (by decide), by decide⟩
    rw [hnone] at hmem
    cases hmem
  · exact hone

section
variable {v : Verification Integral}
  (hv : ValidSnapshot (shelfCorpus siblings_shelved) (shelfIndex siblings) 0 shelfId v (shelfRead siblings))
include hv

theorem siblings_resolve (size : EntryResolution Integral → Nat) (elapsed : Nat) :
    (stewardResolveEntryReference (shelfCorpus siblings_shelved) (shelfIndex siblings) 0 size elapsed shelfId
      (txt "managed") (txt "a") unlimited).1 = .error notResolved := by
  have hlimit : Ok (unlimited.effectiveLimit (some 1)) := ⟨_, rfl⟩
  have hbegin : unlimited.beginCall none = .ok ⟨unlimited.limits, ⟨1, 0, 0, 0⟩⟩ := rfl
  rw [resolve_run hv siblings_location (ok_listSnapshots_shelf siblings) hlimit hbegin, siblings_shadowed,
    if_neg (lt_irrefl 2)]

theorem siblings_remember :
    (rememberEntry (shelfCorpus siblings_shelved) (shelfIndex siblings) 0 shelfId (txt "managed") (txt "a")
      emptyMemory).1 = .error (.selectionNotFound (txt "task Entry does not exist")) := by
  have hadm : admitsRelativePath (txt "a") = true := by decide
  have hremember := remember_run hv siblings_location hadm emptyMemory
  rwa [siblings_shadowed, if_neg fun hc => absurd hc.1 (by decide)] at hremember

end

/-- The entry `a` of a `VALID` Snapshot is reported missing by both lookups. -/
theorem shadowed_entry_lost : ∃ v, ValidSnapshot (shelfCorpus siblings_shelved) (shelfIndex siblings) 0 shelfId v
      (shelfRead siblings) ∧ Location (shelfRead siblings) (txt "managed") (txt "a") ∧
    (∃ e, (shelfRead siblings).located (txt "managed") (txt "a") = [e]) ∧
    (stewardResolveEntryReference (shelfCorpus siblings_shelved) (shelfIndex siblings) 0 (fun _ => 0) 0 shelfId
      (txt "managed") (txt "a") unlimited).1 = .error notResolved ∧
    (rememberEntry (shelfCorpus siblings_shelved) (shelfIndex siblings) 0 shelfId (txt "managed") (txt "a")
      emptyMemory).1 = .error (.selectionNotFound (txt "task Entry does not exist")) := by
  obtain ⟨v, hv⟩ := siblings_valid
  exact ⟨v, hv, siblings_location, siblings_entry, siblings_resolve hv _ _, siblings_remember hv⟩

theorem reportsLocation_iff_siblings : ∃ v,
    ValidSnapshot (shelfCorpus siblings_shelved) (shelfIndex siblings) 0 shelfId v (shelfRead siblings) ∧
    (ReportsLocation (shelfCorpus siblings_shelved) (shelfIndex siblings) 0 (fun _ => 0) 0 unlimited emptyMemory
        shelfId v (shelfRead siblings) (txt "managed") (txt "a") ↔
      Resolvable (shelfIndex siblings) (fun _ => 0) 0 unlimited shelfId v (shelfRead siblings) (txt "managed")
        (txt "a")) := by
  obtain ⟨v, hv⟩ := siblings_valid
  exact ⟨v, hv, reportsLocation_iff hv siblings_location _ _ _ _⟩

end Steward.Session
