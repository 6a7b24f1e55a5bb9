import Steward.Snapshot.Written

/-!
# Building a Snapshot

`_snapshot`: the counts and digests of the entries of one scan. The Snapshot it
returns is coherent, so the validator accepts the Evidence it makes.
-/

namespace Steward

open Py Sqlite

variable {F : Type} [SqliteFloat F]

/-- What `_snapshot` is given: the ids and times it draws, its Run, and what `scan` returned. -/
structure Acquisition (F : Type) where
  snapshotId : Text
  runId : Value F
  started : Text
  completed : Text
  configDigest : Text
  scopeIds : List Text
  budget : BudgetKey → Value F
  entries : List (Entry F)
  isPartial : Bool

/-- `entry.size_bytes or 0`, for regular files. -/
def Entry.regularSize (e : Entry F) : Option (Value F) :=
  if e.objectType = .regularFile then
    some (if (e.field .sizeBytes).truthy then e.field .sizeBytes else .int 0)
  else none

/-- The fields of `meta` that are computed from the entries. -/
structure Totals (F : Type) where
  observed : Nat
  regularFileBytes : Value F
  maxDepth : Nat
  entriesDigest : Text
  snapshotDigest : Text

/-- The Snapshot with given totals. -/
def Acquisition.snapshot (a : Acquisition F) (t : Totals F) : Snapshot F where
  field
    | .snapshotId => .str a.snapshotId
    | .runId => a.runId
    | .createdAt | .completedAt => .str a.completed
    | .startedAt => .str a.started
    | .configDigest => .str a.configDigest
    | .entryCount => .int a.entries.length
    | .observedCount => .int t.observed
    | .errorCount => .int (a.entries.length - t.observed : Nat)
    | .excludedCount => .int (a.entries.countP fun e => e.flag .excluded)
    | .totalRegularFileBytes => t.regularFileBytes
    | .maxDepthObserved => .int t.maxDepth
    | .entriesDigest => .str t.entriesDigest
    | .snapshotDigest => .str t.snapshotDigest
    | .evidenceId | .evidenceRelativePath => .none
  status := if a.isPartial || t.observed ≠ a.entries.length then .partialStatus else .complete
  consistency := .bestEffortPointInTime
  scopeIds := a.scopeIds.map .str
  budget := a.budget
  entries := a.entries
  v2 := none

/-- `_snapshot`; `meta` is the digested part of the Snapshot's own dictionary, its budget copied. -/
def createSnapshot (a : Acquisition F) : Result (Snapshot F) := do
  let data ← a.entries.mapM entryDict
  let entriesDigest ← digestOf (.list data)
  let observed := a.entries.countP fun e => e.observationStatus = .observed
  let bytes ← py (Value.sum (a.entries.filterMap Entry.regularSize))
  let depths ← a.entries.mapM fun e => py (depthOf (e.field .relativePath))
  let totals : Totals F := ⟨observed, bytes.toValue, depths.foldl max 0, entriesDigest, []⟩
  let _ ← jsonCopy (budgetDict a.budget)
  let snapshotDigest ← digestOf (.dict (record Named.name SnapshotKey.digestedV1 (a.snapshot totals).value))
  pure (a.snapshot { totals with snapshotDigest })

/-! ## The entries of a scan -/

/-- What the validator needs of an entry. -/
structure Entry.Observes (e : Entry F) (sid : Text) (scopes : List Text) : Prop where
  v1 : e.v2 = none
  wf : e.Wf
  safe : e.toDict.safe = true
  snapshotId : e.field .snapshotId = .str sid
  located : ∃ scope ∈ scopes, ∃ path, e.field .scopeId = .str scope ∧ e.field .relativePath = .str path ∧
    safePath (F := F) (.str path) = true ∧
      e.field .entryId = .str (Runtime.sha256 F (Text.utf8 (entryIdText sid scope path)))
  size : e.field .sizeBytes = .none ∨ ∃ n, e.field .sizeBytes = .int n

section

omit [SqliteFloat F]

theorem Entry.keys_v1 {e : Entry F} (h : e.v2 = none) : e.keys = EntryKey.v1 := by rw [Entry.keys, h]; rfl

/-- A field of a published entry. -/
theorem keyOf_entryDoc {e : Entry F} (hwf : e.Wf) {k : EntryKey} (hk : k ∈ e.keys) :
    keyOf e.toDict.sortKeys k = (e.value k).sortKeys := by
  rw [keyOf_sortKeys (Entry.wf_toDict hwf), Entry.toDict]
  exact congrArg _ (fieldOf_record hk)

theorem hasKeys_entryDoc (e : Entry F) : ∃ fs, e.toDict.sortKeys = .dict fs ∧
    hasKeys (names e.keys) fs = true := by
  refine ⟨_, Value.sortKeys_dict _, hasKeys_iff.2 fun k => ?_⟩
  rw [(Value.keys_sortKeys_perm _).mem_iff, keys_record]
  rfl

end

namespace Entry.Observes
variable {e : Entry F} {sid : Text} {scopes : List Text} (h : e.Observes sid scopes)
include h

theorem keyOf_field (f : EntryField) :
    keyOf e.toDict.sortKeys (EntryKey.field f) = (e.field f).sortKeys :=
  keyOf_entryDoc h.wf (by rw [Entry.keys_v1 h.v1]; cases f <;> decide)

theorem keyOf_flag (f : EntryFlag) :
    keyOf e.toDict.sortKeys (EntryKey.flag f) = .bool (e.flag f) :=
  keyOf_entryDoc h.wf (by rw [Entry.keys_v1 h.v1]; cases f <;> decide)

theorem keyOf_objectType : keyOf e.toDict.sortKeys EntryKey.objectType = nameValue e.objectType :=
  keyOf_entryDoc h.wf (by rw [Entry.keys_v1 h.v1]; decide)

theorem keyOf_status :
    keyOf e.toDict.sortKeys EntryKey.observationStatus = nameValue e.observationStatus :=
  keyOf_entryDoc h.wf (by rw [Entry.keys_v1 h.v1]; decide)

theorem hasKey {k : EntryKey} (hk : k ∈ EntryKey.v1) : Steward.hasKey e.toDict.sortKeys k = true := by
  obtain ⟨fs, hfs, hkeys⟩ := hasKeys_entryDoc e
  rw [hfs, Steward.hasKey, lookup_isSome_iff]
  exact (hasKeys_iff.1 hkeys _).2 (mem_names (by rw [Entry.keys_v1 h.v1]; exact hk))

theorem accepted : EntryAcceptedV1 (some sid) (.list (scopes.map .str)) e.toDict.sortKeys := by
  obtain ⟨scope, hmem, path, hscope, hpath, hsafe, hid⟩ := h.located
  obtain ⟨fs, hfs, hkeys⟩ := hasKeys_entryDoc e
  have hscope' : keyOf e.toDict.sortKeys (EntryKey.field .scopeId) = .str scope := by
    rw [h.keyOf_field, hscope]; rfl
  have hpath' : keyOf e.toDict.sortKeys (EntryKey.field .relativePath) = .str path := by
    rw [h.keyOf_field, hpath]; rfl
  have hsid : keyOf e.toDict.sortKeys (EntryKey.field .snapshotId) = .str sid := by
    rw [h.keyOf_field, h.snapshotId]; rfl
  have henc (f : EntryField) {t : Text} (hf : e.field f = .str t) : t.encodable = true := by
    have hmem : (Named.name (EntryKey.field f), e.value (.field f)) ∈ record Named.name e.keys e.value :=
      List.mem_map_of_mem (by rw [Entry.keys_v1 h.v1]; cases f <;> decide)
    have := (Value.safe_dict.1 h.safe).2 _ hmem
    rwa [Entry.value, hf, Value.safe_str] at this
  refine ⟨?_, fun f => by rw [h.keyOf_flag]; rfl, ?_, 
    ⟨Runtime.sha256 F (Text.utf8 (entryIdText sid scope path)), ?_, ?_⟩, by rw [hpath']; exact hsafe⟩
  · rw [hfs]
    rw [Entry.keys_v1 h.v1] at hkeys
    exact hkeys
  · rw [scopeMember, hsid, hscope', if_pos]
    · refine congrArg Except.ok (List.any_eq_true.2 ⟨.str scope, List.mem_map_of_mem hmem, ?_⟩)
      exact Value.same_str.2 rfl
    · rw [Bool.and_eq_true]
      exact ⟨Value.eq_str.2 rfl, rfl⟩
  · rw [hscope', hpath', entryId, Text.encode, if_pos]
    · rfl
    · simp only [entryIdText, Text.encodable_append]
      exact ⟨⟨⟨⟨henc _ h.snapshotId, by decide⟩, henc _ hscope⟩, by decide⟩, henc _ hpath⟩
  · rw [h.keyOf_field, hid]; rfl

theorem countable : Countable e.toDict.sortKeys = true := by
  obtain ⟨scope, -, path, -, hpath, -⟩ := h.located
  simp only [Countable, Bool.and_eq_true, Bool.or_eq_true]
  refine ⟨⟨⟨⟨h.hasKey (by decide), h.hasKey (by decide)⟩, h.hasKey (by decide)⟩,
    .inr (h.hasKey (by decide))⟩, ?_⟩
  rw [h.keyOf_field, hpath]; rfl

theorem sizeOf : sizeOf? e.toDict.sortKeys = e.regularSize := by
  have hs : (e.field .sizeBytes).sortKeys = e.field .sizeBytes := by
    rcases h.size with hn | ⟨n, hn⟩ <;> rw [hn] <;> rfl
  have hr : isRegularFile e.toDict.sortKeys = decide (e.objectType = .regularFile) := by
    rw [isRegularFile, h.keyOf_objectType, Bool.eq_iff_iff, decide_eq_true_eq]
    exact Value.eq_str.trans ⟨fun he => Named.name_inj (Value.str.inj he), fun he => by rw [he]; rfl⟩
  rw [sizeOf?, Entry.regularSize, hr, h.keyOf_field, hs]
  simp only [decide_eq_true_eq]

theorem depth : depthOf (e.field .relativePath) =
    .ok (pathDepth (keyOf e.toDict.sortKeys (EntryKey.field .relativePath))) := by
  obtain ⟨scope, -, path, -, hpath, -⟩ := h.located
  rw [depthOf_eq_ok, h.keyOf_field, hpath]
  exact ⟨rfl, rfl⟩

end Entry.Observes

/-! ## The Snapshot is coherent -/

theorem sum_flags {α : Type} (p : α → Bool) (xs : List α) :
    Value.sum (xs.map fun x => (.bool (p x) : Value F)) = .ok (.int (xs.countP p)) := by
  have key (n : Int) : (xs.map fun x => (.bool (p x) : Value F)).foldlM Value.Num.add (.int n) =
      .ok (.int (n + xs.countP p)) := by
    induction xs generalizing n with
    | nil => simp
    | cons x xs ih =>
      have hadd : Value.Num.add (.int n) (.bool (p x) : Value F) =
          .ok (.int (n + if p x then 1 else 0)) := rfl
      rw [List.map_cons, List.foldlM_cons, hadd, ok_bind_ok, ih, List.countP_cons]
      cases p x <;> simp [add_comm, add_left_comm]
  rw [Value.sum, key, zero_add]

theorem sum_regularSizes {es : List (Entry F)}
    (h : ∀ e ∈ es, e.field .sizeBytes = .none ∨ ∃ n, e.field .sizeBytes = .int n) :
    ∃ n, Value.sum (es.filterMap Entry.regularSize) = .ok (.int n) := by
  refine sum_eq_int fun v hv => ?_
  obtain ⟨e, he, hev⟩ := List.mem_filterMap.1 hv
  rw [Entry.regularSize] at hev
  split_ifs at hev with hr ht
  · cases hev
    rcases h e he with hn | ⟨n, hn⟩
    · rw [hn] at ht; cases ht
    · exact ⟨n, by rw [hn]; rfl⟩
  · cases hev
    exact ⟨0, rfl⟩

/-- What the texts of an acquisition must be for strict JSON. -/
structure Acquisition.Writable (a : Acquisition F) : Prop where
  snapshotId : a.snapshotId.encodable = true
  run : a.runId.wf = true ∧ a.runId.safe = true
  started : a.started.encodable = true
  completed : a.completed.encodable = true
  configDigest : a.configDigest.encodable = true
  scopeIds : ∀ t ∈ a.scopeIds, t.encodable = true
  budget : ∀ k, (a.budget k).wf = true ∧ (a.budget k).safe = true
  entries : ∀ e ∈ a.entries, e.Observes a.snapshotId a.scopeIds
  ordered : (a.entries.map fun e => e.toDict.sortKeys).Pairwise Precedes

section
variable {a : Acquisition F} (h : a.Writable)
include h

theorem safe_budgetDict : (budgetDict a.budget).safe = true :=
  safe_record fun k _ => (h.budget k).2

/-- Every field of the Snapshot is strict JSON when the totals are. -/
theorem safe_snapshotValue {t : Totals F} (hb : t.regularFileBytes.safe = true)
    (he : t.entriesDigest.encodable = true) (hs : t.snapshotDigest.encodable = true) (k : SnapshotKey) :
    ((a.snapshot t).value k).safe = true := by
  cases k with
  | field f =>
    cases f
    case snapshotId => exact h.snapshotId
    case runId => exact h.run.2
    case startedAt => exact h.started
    case createdAt | completedAt => exact h.completed
    case configDigest => exact h.configDigest
    case totalRegularFileBytes => exact hb
    case entriesDigest => exact he
    case snapshotDigest => exact hs
    all_goals rfl
  | status =>
    exact Named.encodable (a.snapshot t).status
  | consistency =>
    exact Named.encodable SnapshotConsistency.bestEffortPointInTime
  | scopeIds =>
    refine Value.safe_list.2 fun v hv => ?_
    obtain ⟨s, hs, rfl⟩ := List.mem_map.1 hv
    exact h.scopeIds s hs
  | budget => exact safe_budgetDict h
  | entries =>
    refine Value.safe_list.2 fun v hv => ?_
    obtain ⟨e, he, rfl⟩ := List.mem_map.1 hv
    exact (h.entries e he).safe
  | _ => rfl

theorem wf_snapshot {t : Totals F} (hb : t.regularFileBytes.wf = true) : (a.snapshot t).Wf where
  field f := by cases f <;> first | rfl | exact h.run.1 | exact hb
  scopeIds v hv := by obtain ⟨s, -, rfl⟩ := List.mem_map.1 hv; rfl
  budget k := (h.budget k).1
  entries e he := (h.entries e he).wf
  schemaVersion v hv := by cases hv
  hashPolicy v hv := by cases hv
  allocated v hv := by cases hv
  summary v hv := by cases hv

/-- The counts of the Snapshot are those the validator computes. -/
theorem summary_coherent {t : Totals F} {n : Int}
    (ho : t.observed = a.entries.countP fun e => e.observationStatus = .observed)
    (hd : t.maxDepth = maxDepth (a.snapshot t).documents)
    (hn : Value.sum (a.entries.filterMap Entry.regularSize) = .ok (.int n))
    (hb : t.regularFileBytes = .int n) :
    ∃ st, snapshotStatistics (a.snapshot t).documents = .ok st ∧
      ∀ f ∈ st.items, ((a.snapshot t).field f.1).sortKeys.eq f.2 = true := by
  have hdocs : (a.snapshot t).documents = a.entries.map fun e => e.toDict.sortKeys := rfl
  have hflags : excludedFlags (a.snapshot t).documents =
      a.entries.map fun e => .bool (e.flag .excluded) := by
    rw [excludedFlags, hdocs, List.map_map]
    exact List.map_congr_left fun e he => (h.entries e he).keyOf_flag .excluded
  have hsizes : regularSizes (a.snapshot t).documents = a.entries.filterMap Entry.regularSize := by
    rw [regularSizes, hdocs, List.filterMap_map]
    exact List.filterMap_congr fun e he => (h.entries e he).sizeOf
  have hobserved : observedCount (a.snapshot t).documents = t.observed := by
    rw [observedCount, hdocs, List.countP_map, ho]
    refine List.countP_congr fun e he => ?_
    rw [Function.comp_apply, (h.entries e he).keyOf_status, decide_eq_true_eq]
    exact Value.eq_str.trans ⟨fun he => Named.name_inj (Value.str.inj he), fun he => by rw [he]; rfl⟩
  have hlength : (a.snapshot t).documents.length = a.entries.length := List.length_map _
  refine ⟨_, snapshotStatistics_eq_ok.2 ⟨fun d hd => ?_, _, _, by rw [hflags]; exact sum_flags _ _,
    by rw [hsizes]; exact hn, rfl⟩, ?_⟩
  · obtain ⟨e, he, rfl⟩ := List.mem_map.1 hd
    exact (h.entries e he).countable
  · rw [hobserved, hlength, ← hd]
    simp only [Statistics.items, List.forall_mem_cons, List.not_mem_nil, false_imp_iff, implies_true,
      and_true]
    have hint (n : Int) : (.int n : Value F).eq (.int n) = true := by
      simp [Value.eq, Value.same, Value.atomSame, Value.num?, Value.Num.same]
    refine ⟨?_, ?_, ?_, ?_, ?_, ?_⟩
    · exact hint _
    · exact hint _
    · exact hint _
    · exact hint _
    · change t.regularFileBytes.sortKeys.eq (.int n) = true
      rw [hb]
      exact hint _
    · exact hint _

theorem createSnapshot_coherent :
    ∃ t, createSnapshot a = .ok (a.snapshot t) ∧ CoherentV1 (a.snapshot t) a.snapshotId := by
  obtain ⟨n, hn⟩ := sum_regularSizes fun e he => (h.entries e he).size
  set docs := a.entries.map fun e => e.toDict.sortKeys with hdocs
  have hdata : a.entries.mapM entryDict = .ok docs :=
    entryDicts fun e he => ⟨(h.entries e he).wf, (h.entries e he).safe⟩
  have hdocsSafe : (Value.list docs).safe = true := by
    refine Value.safe_list.2 fun d hd => ?_
    obtain ⟨e, he, rfl⟩ := List.mem_map.1 hd
    rw [Value.safe_sortKeys]
    exact (h.entries e he).safe
  have hdepths : a.entries.mapM (fun e => py (depthOf (e.field .relativePath))) =
      .ok (docs.map fun d => pathDepth (keyOf d (EntryKey.field .relativePath))) := by
    rw [mapM_eq_ok, hdocs, List.map_map, List.forall₂_map_right_iff, List.forall₂_same]
    exact fun e he => py_eq_ok.2 (h.entries e he).depth
  set t0 : Totals F := ⟨a.entries.countP fun e => e.observationStatus = .observed, .int n,
    (docs.map fun d => pathDepth (keyOf d (EntryKey.field .relativePath))).foldl max 0,
    sha (.list docs), []⟩ with ht0
  have hmeta : (Value.dict (record Named.name SnapshotKey.digestedV1 (a.snapshot t0).value)).safe = true :=
    safe_record fun k _ => safe_snapshotValue h rfl (sha_encodable _) rfl k
  set t : Totals F := { t0 with
    snapshotDigest := sha (.dict (record Named.name SnapshotKey.digestedV1 (a.snapshot t0).value)) } with ht
  have hsame : record Named.name SnapshotKey.digestedV1 (a.snapshot t).value =
      record Named.name SnapshotKey.digestedV1 (a.snapshot t0).value :=
    record_congr fun k hk => by
      cases k with
      | field f => cases f <;> first | rfl | exact absurd hk (by decide)
      | _ => rfl
  refine ⟨t, ?_, ?_⟩
  · rw [createSnapshot, hdata, ok_bind_ok, digestOf_eq_ok.2 ⟨hdocsSafe, rfl⟩, ok_bind_ok, hn, py_ok,
      ok_bind_ok, hdepths, ok_bind_ok, jsonCopy_of_safe (safe_budgetDict h)
      (wf_record Named.nodup fun k => (h.budget k).1), ok_bind_ok]
    exact bind_eq_ok.2 ⟨_, digestOf_eq_ok.2 ⟨hmeta, rfl⟩, rfl⟩
  · have hwf : (a.snapshot t).Wf := wf_snapshot h rfl
    have hscopes : (a.snapshot t).scopeIds.map Value.sortKeys = a.scopeIds.map .str := by
      simp [Acquisition.snapshot, Value.sortKeys]
    exact {
      v1 := rfl
      wf := hwf
      safe := safe_record fun k _ => safe_snapshotValue h rfl (sha_encodable _) (sha_encodable _) k
      id := rfl
      entries := fun d hd => by
        obtain ⟨e, he, rfl⟩ := List.mem_map.1 hd
        rw [hscopes]
        exact (h.entries e he).accepted
      ordered := h.ordered
      summary := summary_coherent h rfl rfl hn rfl
      entriesDigest := rfl
      snapshotDigest := by rw [hsame]; rfl }

/-- The Snapshot of an acquisition; the second case never arises for a writable one. -/
def Acquisition.created (a : Acquisition F) : Snapshot F :=
  match createSnapshot a with
  | .ok s => s
  | .error _ => a.snapshot ⟨0, .none, 0, [], []⟩

theorem Acquisition.Writable.created : ∃ t, a.created = a.snapshot t ∧ CoherentV1 a.created a.snapshotId := by
  obtain ⟨t, ht, hc⟩ := createSnapshot_coherent h
  have hcreated : a.created = a.snapshot t := by rw [Acquisition.created, ht]
  exact ⟨t, hcreated, by rw [hcreated]; exact hc⟩

end

end Steward
