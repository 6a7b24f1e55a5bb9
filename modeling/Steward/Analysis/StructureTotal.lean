import Steward.Analysis.StructureTree

/-!
# Every accepted snapshot has a structure

The tree of a scope is evaluated to its leaves, the check of the logical bytes
holds, and what is encoded can be encoded.
-/

namespace Steward

open Py Sqlite

/-- All the texts of a snapshot that a structure encodes. -/
structure StructureEncodable (s : FilesystemSnapshot) : Prop where
  snapshotId : s.snapshotId.encodable = true
  scopeIds : ∀ scopeId ∈ s.scopeIds, scopeId.encodable = true
  paths : ∀ e ∈ s.entries, e.relativePath.encodable = true

theorem encodable_iff {t : Text} : t.encodable = true ↔ ∀ c ∈ t, Text.isSurrogate c = false := by
  induction t with
  | nil => exact iff_of_true rfl (List.forall_mem_nil _)
  | cons c t ih => rw [Text.encodable_cons, ih, List.forall_mem_cons]

/-- What the points of a path are, those of its ancestors are. -/
theorem points_of_prefix {P : CodePoint → Prop} (hpoint : ∀ c, c = ch '.' ∨ c = ch '/' → P c) {parts p : List Text}
    (hp : p <+: parts) (h : ∀ c ∈ pathOfParts parts, P c) : ∀ c ∈ pathOfParts p, P c := by
  intro c hc
  by_cases hslash : c = ch '/'
  · exact hpoint c (.inr hslash)
  unfold pathOfParts at hc h
  split_ifs at hc with hnil
  · exact hpoint c (.inl (List.mem_singleton.1 hc))
  · obtain ⟨part, hpart, hcp⟩ := PurePath.mem_intercalate hslash hc
    have hne : parts ≠ [] := by
      rintro rfl
      exact hnil (List.prefix_nil.1 hp)
    rw [if_neg hne] at h
    exact h c (PurePath.mem_intercalate_of_mem (hp.subset hpart) hcp)

/-- What is part of an encodable path is encodable. -/
theorem encodable_prefix {parts p : List Text} (h : (pathOfParts parts).encodable = true) (hp : p <+: parts) :
    (pathOfParts p).encodable = true := by
  rw [encodable_iff] at h ⊢
  exact points_of_prefix (by rintro c (rfl | rfl) <;> decide) hp h

section
variable {F : Type} [SqliteFloat F] {s : FilesystemSnapshot} {scopeId : Text} {p : List Text}

theorem IsNodePath.encodable (hs : StructureAccepted s) (henc : StructureEncodable s)
    (h : IsNodePath (scopeEntries s scopeId) p) : (pathOfParts p).encodable = true := by
  rcases h with rfl | ⟨e, he, hp⟩
  · decide
  · have he := (mem_scopeEntries.1 (List.mem_of_mem_filter he)).1
    have hparts : p <+: partsOf e := by
      refine hp.trans ?_
      unfold homeOf entryHome
      split_ifs
      · exact List.prefix_refl _
      · exact List.dropLast_prefix _
    refine encodable_prefix ?_ hparts
    rw [(validPath_eq_ok (hs.valid e he)).2]
    exact henc.paths e he

theorem ok_pathBytes_of_encodable {path : Text} (h : path.encodable = true) : Ok (pathBytes path) :=
  ⟨_, pathBytes_of_encodable h⟩

theorem ok_structureNodeId {snapshotId path : Text} (hid : snapshotId.encodable = true)
    (hscope : scopeId.encodable = true) (hpath : path.encodable = true) :
    Ok (structureNodeId F snapshotId scopeId path) := by
  have hkeys : ∀ k ∈ [txt "structure_schema_version", txt "algorithm", txt "algorithm_version", txt "snapshot_id",
      txt "scope_id", txt "relative_directory_path"], k.encodable = true := by decide
  refine ok_digestOf.2 (Value.safe_dict.2 ⟨hkeys, fun f hf => ?_⟩)
  simp only [List.mem_cons, List.not_mem_nil, or_false] at hf
  rcases hf with rfl | rfl | rfl | rfl | rfl | rfl
  · rfl
  · exact (by decide : (txt "storage_structure").encodable = true)
  · rfl
  · exact hid
  · exact hscope
  · exact hpath

/-- The nodes of a scope are computed. -/
theorem ok_scopeNodes {es : List FilesystemEntry} {snapshotId : Text}
    (hvalid : ∀ e ∈ es, validPath e.relativePath = .ok (partsOf e))
    (hroot : ∀ e ∈ es, partsOf e = [] → e.objectType = .directory) (hbytes : ∀ e ∈ es, Ok (pathBytes e.relativePath))
    (hpaths : ∀ q, IsNodePath es q → (pathOfParts q).encodable = true) (hid : snapshotId.encodable = true)
    (hscope : scopeId.encodable = true) : Ok (scopeNodes F snapshotId scopeId es) := by
  unfold scopeNodes
  obtain ⟨values, hvalues⟩ : Ok (sortedByM entrySortKey es) := ok_sort_entries.2 hbytes
  rw [hvalues, ok_bind_ok]
  have hperm := sortedByM_perm hvalues
  obtain ⟨t, ht, hgrown⟩ := @foldlM_addStructureEntry _ _ values PathTree.grown_root
    (fun e he => hvalid e (hperm.mem_iff.1 he)) fun e he => hroot e (hperm.mem_iff.1 he)
  rw [List.nil_append] at hgrown
  rw [ht, ok_bind_ok]
  have hpath : ∀ q ∈ PathTree.paths t, (pathOfParts q).encodable = true := fun q hq =>
    hpaths q ((isNodePath_perm hperm).1 ((grown_isNodePath hgrown).1 hq))
  have hcombine : ∀ q ∈ PathTree.paths t, ∀ v gs, Ok (aggregateNode F snapshotId scopeId q v gs) := by
    intro q hq v gs
    exact (ok_bind_of_total fun _ => ok_pure _).2 (ok_structureNodeId hid hscope (hpath q hq))
  have horder : ∀ q b, PathTree.branchAt t q = some b → ∃ cs, orderChildren b.children = .ok cs ∧ cs.Perm b.children := by
    intro q b hb
    have hok : Ok (orderChildren b.children) := ok_sortedByM.2 fun c hc =>
      ok_pathBytes_of_encodable (hpath c (hgrown.wellFormed.child hb hc).1)
    obtain ⟨cs, hcs⟩ := hok
    exact ⟨cs, hcs, orderChildren_perm hcs⟩
  have hresolve : Ok (PathTree.resolve (.python .keyError) .stackOverflow orderChildren
      (aggregateNode F snapshotId scopeId) t (PathTree.depth t + 1) []) := by
    refine PathTree.resolve_ok hgrown.wellFormed hcombine horder hgrown.wellFormed.root ?_
    rw [List.length_nil]
    omega
  obtain ⟨resolved, hresolved⟩ := hresolve
  rw [hresolved, ok_bind_ok]
  have hspec : PathTree.Resolved t (structureNode F snapshotId scopeId values) [] resolved :=
    PathTree.resolve_spec hgrown.wellFormed (fun _ _ _ _ hcs => orderChildren_perm hcs)
      (fun q b cs hb hcs g hg => aggregateNode_eq hgrown hb hcs hg) hresolved
  refine ok_sortedByM.2 fun node hnode => ?_
  obtain ⟨⟨q, g⟩, hqg, rfl⟩ := List.mem_map.1 hnode
  obtain ⟨hq, -, rfl⟩ := (hspec.2.2 q g).1 hqg
  exact (ok_bind_of_total fun _ => ok_pure _).2 (ok_pathBytes_of_encodable (hpath q hq))

/-! ## The check of the logical bytes -/

theorem sum_knownLogicalBytes (counts : List NodeCounts) :
    counts.sum.knownLogicalBytes = (counts.map NodeCounts.knownLogicalBytes).sum := by
  induction counts with
  | nil => rfl
  | cons c counts ih => rw [List.sum_cons, NodeCounts.add_knownLogicalBytes, ih, List.map_cons, List.sum_cons]

/-- Everything that is counted in a scope is at or below its root. -/
theorem total_root (es : List FilesystemEntry) :
    PathTree.total (countsAt es) [] = ((activeEntries es).map entryCounts).sum := by
  unfold PathTree.total countsAt
  rw [List.filter_eq_self.2 (fun _ _ => decide_eq_true List.nil_prefix), List.map_map]
  rfl

theorem knownLogicalBytes_entry (e : FilesystemEntry) :
    (entryCounts e).knownLogicalBytes = (knownRegularSize e).getD 0 := by
  unfold entryCounts knownRegularSize
  cases e.objectType <;> try rfl
  by_cases hstatus : e.observationStatus = .observed
  · cases e.sizeBytes <;> simp [hstatus]
  · simp [hstatus]

/-- The bytes of a list of entries, counted where their size is known. -/
def knownBytes (es : List FilesystemEntry) : Int := ((activeEntries es).map fun e => (knownRegularSize e).getD 0).sum

theorem coverage_knownLogicalBytes (es : List FilesystemEntry) :
    (structureCoverage es).knownLogicalBytes = knownBytes es := by
  unfold structureCoverage knownRegular knownBytes
  dsimp only
  induction activeEntries es with
  | nil => rfl
  | cons e es ih =>
    cases hknown : knownRegularSize e with
    | none =>
      rw [List.filter_cons_of_neg (by simp [hknown]), ih, List.map_cons, List.sum_cons, hknown]
      simp
    | some size =>
      rw [List.filter_cons_of_pos (by simp [hknown]), List.map_cons, List.sum_cons, ih, List.map_cons, List.sum_cons]

theorem root_knownLogicalBytes (es : List FilesystemEntry) :
    (PathTree.total (countsAt es) []).knownLogicalBytes = knownBytes es := by
  rw [total_root, sum_knownLogicalBytes, List.map_map]
  exact congrArg List.sum (List.map_congr_left fun e _ => knownLogicalBytes_entry e)

theorem activeEntries_scope (es : List FilesystemEntry) (scopeId : Text) :
    activeEntries (es.filter fun e => e.scopeId = scopeId) = (activeEntries es).filter fun e => e.scopeId = scopeId :=
  List.filter_comm ..

/-- Each entry is in one scope. -/
theorem sum_scopes {M : Type} [AddCommMonoid M] {scopes : List Text} (hnodup : scopes.Nodup) (g : FilesystemEntry → M)
    {es : List FilesystemEntry} (hscopes : ∀ e ∈ es, e.scopeId ∈ scopes) :
    (scopes.map fun scopeId => ((activeEntries (es.filter fun e => e.scopeId = scopeId)).map g).sum).sum =
      ((activeEntries es).map g).sum := by
  simp only [activeEntries_scope]
  exact sum_fibers hnodup g fun e he => hscopes e (List.mem_of_mem_filter he)

/-! ## The parts of a structure -/

/-- The summary of a scope whose nodes are there: its root's. -/
theorem scopeSummary_eq {nodes : List PathAggregateNode} {node : PathAggregateNode} (hnode : node ∈ nodes)
    (hscope : node.scopeId = scopeId) (hpath : node.relativeDirectoryPath = txt ".")
    (hunique : ∀ m ∈ nodes, m.scopeId = scopeId → m.relativeDirectoryPath = txt "." → m = node) :
    scopeSummary s.snapshotId nodes scopeId = .ok ⟨s.snapshotId, scopeId, node.pathNodeId, node.recursive⟩ := by
  unfold scopeSummary
  cases hfind : nodes.find? fun m => m.scopeId = scopeId ∧ m.relativeDirectoryPath = txt "." with
  | none =>
    have hnone := List.find?_eq_none.1 hfind node hnode
    exact absurd (decide_eq_true ⟨hscope, hpath⟩) hnone
  | some m =>
    have hfound := List.find?_some hfind
    obtain ⟨hms, hmp⟩ := of_decide_eq_true hfound
    rw [hunique m (List.mem_of_find?_eq_some hfind) hms hmp]

theorem ok_orderedReferences_of_encodable {es : List FilesystemEntry} (h : ∀ e ∈ es, e.relativePath.encodable = true) :
    Ok (orderedReferences es) := ok_orderedReferences.2 fun e he => ok_pathBytes_of_encodable (h e he)

theorem encodable_references (henc : StructureEncodable s) (hs : StructureAccepted s) {es : List FilesystemEntry}
    (hsub : ∀ e ∈ es, e ∈ s.entries) {rs : List SnapshotEntryReference} (h : orderedReferences es = .ok rs) :
    ∀ r ∈ rs, r.encodable = true := by
  intro r hr
  obtain ⟨e, he, rfl⟩ := (mem_orderedReferences h).1 hr
  have hmem := hsub e he
  unfold SnapshotEntryReference.encodable reference
  simp only [Bool.and_eq_true]
  exact ⟨⟨hs.located.snapshotId e hmem ▸ henc.snapshotId, henc.scopeIds _ (hs.scopeId e hmem)⟩, henc.paths e hmem⟩

theorem mem_overlappingHints {es members : List FilesystemEntry} (h : members ∈ overlappingHints es) :
    ∀ e ∈ members, e ∈ es := by
  unfold overlappingHints repeatedHints at h
  obtain ⟨g, hg, rfl⟩ := List.mem_map.1 (List.mem_of_mem_filter (List.mem_of_mem_filter h))
  intro e he
  rw [(mem_groupBy.1 hg).2] at he
  exact List.mem_of_mem_filter (List.mem_of_mem_filter (List.mem_of_mem_filter he))

/-- The limitations of a snapshot are listed, and can be encoded. -/
theorem ok_structureLimitations (hs : StructureAccepted s) (henc : StructureEncodable s) :
    ∃ limitations, structureLimitations s.entries = .ok limitations ∧
      ∀ l ∈ limitations, l.code.encodable = true ∧ ∀ r ∈ l.entries, r.encodable = true := by
  have hpaths {es : List FilesystemEntry} (hsub : ∀ e ∈ es, e ∈ s.entries) : Ok (orderedReferences es) :=
    ok_orderedReferences_of_encodable fun e he => henc.paths e (hsub e he)
  obtain ⟨overlaps, hoverlaps⟩ : Ok ((overlappingHints s.entries).mapM fun members => do
      let references ← orderedReferences members
      return (⟨txt "SCOPE_OVERLAP_OBJECT_HINT", references⟩ : StructureLimitation)) :=
    ok_mapM.2 fun members hmembers => (ok_bind_of_total fun _ => ok_pure _).2 (hpaths (mem_overlappingHints hmembers))
  have hover : ∀ l ∈ overlaps, l.code.encodable = true ∧ ∀ r ∈ l.entries, r.encodable = true := by
    intro l hl
    obtain ⟨members, hmembers, hok⟩ := exists_of_mem_mapM hoverlaps hl
    obtain ⟨references, hreferences, hok⟩ := bind_eq_ok.1 hok
    cases hok
    exact ⟨(by decide : (txt "SCOPE_OVERLAP_OBJECT_HINT").encodable = true),
      encodable_references henc hs (mem_overlappingHints hmembers) hreferences⟩
  have hunavailable : ∀ e ∈ unavailableHints s.entries, e ∈ s.entries := fun e he =>
    List.mem_of_mem_filter (List.mem_of_mem_filter he)
  have hsorted {limitations : List StructureLimitation}
      (h : ∀ l ∈ limitations, l.code.encodable = true ∧ ∀ r ∈ l.entries, r.encodable = true) :
      ∃ sorted, sortedByM limitationSortKey limitations = .ok sorted ∧
        ∀ l ∈ sorted, l.code.encodable = true ∧ ∀ r ∈ l.entries, r.encodable = true := by
    obtain ⟨sorted, hsorted⟩ : Ok (sortedByM limitationSortKey limitations) := by
      refine ok_sortedByM.2 fun l hl => (ok_bind_of_total fun _ => ok_pure _).2 ?_
      exact ok_mapM.2 fun r hr => ⟨_, referenceSortKey_of_encodable ((h l hl).2 r hr)⟩
    exact ⟨sorted, hsorted, fun l hl => h l ((mem_sortedByM hsorted).1 hl)⟩
  unfold structureLimitations
  rw [hoverlaps, ok_bind_ok]
  by_cases hnone : unavailableHints s.entries = []
  · rw [if_pos hnone]
    refine hsorted fun l hl => ?_
    rw [List.append_nil] at hl
    exact hover l hl
  · obtain ⟨references, hreferences⟩ := hpaths hunavailable
    rw [if_neg hnone, hreferences, ok_bind_ok]
    refine hsorted fun l hl => ?_
    rcases List.mem_append.1 hl with hl | hl
    · exact hover l hl
    · rw [List.mem_singleton.1 hl]
      exact ⟨(by decide : (txt "OBJECT_HINT_UNAVAILABLE").encodable = true),
        encodable_references henc hs hunavailable hreferences⟩

/-! ## The result -/

theorem encodable_structureNodeId (p : List Text) (es : List FilesystemEntry) :
    (structureNode F s.snapshotId scopeId es p).pathNodeId.encodable = true := by
  unfold structureNode structureNodeId
  dsimp only
  rcases digestOf_cases (F := F) (.dict [(txt "structure_schema_version", .int 1), (txt "algorithm", .str (txt "storage_structure")),
    (txt "algorithm_version", .int 1), (txt "snapshot_id", .str s.snapshotId), (txt "scope_id", .str scopeId),
    (txt "relative_directory_path", .str (pathOfParts p))]) with ⟨d, h⟩ | h
  · rw [h]
    rw [(digestOf_eq_ok.1 h).2]
    exact sha_encodable _
  · rw [h]
    rfl

theorem safe_nodeCountsData {kind : Text} (hkind : kind.encodable = true) (counts : NodeCounts) :
    (Value.dict (nodeCountsData (F := F) kind counts)).safe = true := by
  have hnames : ∀ name ∈ [txt "_regular_file_count", txt "_known_logical_bytes", txt "_unknown_size_regular_count",
      txt "_directory_count", txt "_symlink_count", txt "_special_object_count"], name.encodable = true := by decide
  refine Value.safe_dict.2 ⟨fun k hk => ?_, fun f hf => ?_⟩
  · obtain ⟨name, hname, rfl⟩ : ∃ name ∈ [txt "_regular_file_count", txt "_known_logical_bytes",
        txt "_unknown_size_regular_count", txt "_directory_count", txt "_symlink_count", txt "_special_object_count"],
        kind ++ name = k := by
      simpa [nodeCountsData, keys, eq_comm] using hk
    exact Text.encodable_append.2 ⟨hkind, hnames name hname⟩
  · simp only [nodeCountsData, List.mem_cons, List.not_mem_nil, or_false] at hf
    rcases hf with rfl | rfl | rfl | rfl | rfl | rfl <;> rfl

theorem safe_append {fs gs : List (Text × Value F)} (hf : (Value.dict fs).safe = true) (hg : (Value.dict gs).safe = true) :
    (Value.dict (fs ++ gs)).safe = true := by
  rw [Value.safe_dict] at hf hg ⊢
  constructor
  · intro k hk
    rw [keys, List.map_append] at hk
    exact (List.mem_append.1 hk).elim (hf.1 k) (hg.1 k)
  · intro f hmem
    exact (List.mem_append.1 hmem).elim (hf.2 f) (hg.2 f)

theorem safe_structureNodeData {node : PathAggregateNode} (hid : node.pathNodeId.encodable = true)
    (hsnapshot : node.snapshotId.encodable = true) (hscope : node.scopeId.encodable = true)
    (hpath : node.relativeDirectoryPath.encodable = true) : (structureNodeData (F := F) node).safe = true := by
  have hkeys : ∀ k ∈ [txt "path_node_id", txt "snapshot_id", txt "scope_id", txt "relative_directory_path",
      txt "observed_directory_entry"], k.encodable = true := by decide
  unfold structureNodeData
  refine safe_append (safe_append (Value.safe_dict.2 ⟨hkeys, fun f hf => ?_⟩) (safe_nodeCountsData (by decide) _))
    (safe_nodeCountsData (by decide) _)
  simp only [List.mem_cons, List.not_mem_nil, or_false] at hf
  rcases hf with rfl | rfl | rfl | rfl | rfl
  · exact hid
  · exact hsnapshot
  · exact hscope
  · exact hpath
  · rfl

theorem safe_scopeSummaryData {summary : ScopeStructureSummary} (hsnapshot : summary.snapshotId.encodable = true)
    (hscope : summary.scopeId.encodable = true) (hroot : summary.rootNodeId.encodable = true) :
    (scopeSummaryData (F := F) summary).safe = true := by
  have hkeys : ∀ k ∈ [txt "snapshot_id", txt "scope_id", txt "root_node_id"], k.encodable = true := by decide
  unfold scopeSummaryData
  refine safe_append (Value.safe_dict.2 ⟨hkeys, fun f hf => ?_⟩) (safe_nodeCountsData (by decide) _)
  simp only [List.mem_cons, List.not_mem_nil, or_false] at hf
  rcases hf with rfl | rfl | rfl
  · exact hsnapshot
  · exact hscope
  · exact hroot

theorem safe_structureCoverageData (coverage : StructureCoverageSummary) :
    (structureCoverageData (F := F) coverage).safe = true := by
  have hkeys : ∀ k ∈ [txt "total_entry_count", txt "regular_file_entry_count", txt "known_size_regular_file_count",
      txt "unknown_size_regular_file_count", txt "known_logical_bytes", txt "directory_entry_count",
      txt "symlink_entry_count", txt "special_object_entry_count", txt "excluded_entry_count",
      txt "metadata_failed_entry_count", txt "scope_overlap_object_hint_count",
      txt "repeated_known_object_hint_path_count", txt "object_hint_unavailable_entry_count", txt "complete"],
      k.encodable = true := by decide
  refine Value.safe_dict.2 ⟨hkeys, fun f hf => ?_⟩
  simp only [List.mem_cons, List.not_mem_nil, or_false] at hf
  rcases hf with rfl | rfl | rfl | rfl | rfl | rfl | rfl | rfl | rfl | rfl | rfl | rfl | rfl | rfl <;> rfl

theorem safe_limitationData {limitation : StructureLimitation} (hcode : limitation.code.encodable = true)
    (hentries : ∀ r ∈ limitation.entries, r.encodable = true) : (limitationData (F := F) limitation).safe = true := by
  have hkeys : ∀ k ∈ [txt "code", txt "entries"], k.encodable = true := by decide
  refine Value.safe_dict.2 ⟨hkeys, fun f hf => ?_⟩
  simp only [List.mem_cons, List.not_mem_nil, or_false] at hf
  rcases hf with rfl | rfl
  · exact hcode
  · exact safe_referencesData.2 hentries

theorem safe_physicalBoundaryData (boundary : StructurePhysicalBoundary) :
    (physicalBoundaryData (F := F) boundary).safe = true := by
  have hkeys : ∀ k ∈ [txt "allocation_status", txt "physical_block_sharing_status", txt "reclaimable_bytes",
      txt "reclaimable_status", txt "object_aware_capacity_status"], k.encodable = true := by decide
  refine Value.safe_dict.2 ⟨hkeys, fun f hf => ?_⟩
  simp only [List.mem_cons, List.not_mem_nil, or_false] at hf
  rcases hf with rfl | rfl | rfl | rfl | rfl
  · exact Named.encodable _
  · exact Named.encodable _
  · rfl
  · exact Named.encodable _
  · exact Named.encodable _

/-- The summary of a scope, from the node of its root. -/
def rootSummary (F : Type) [SqliteFloat F] (s : FilesystemSnapshot) (scopeId : Text) : ScopeStructureSummary :=
  let root := structureNode F s.snapshotId scopeId (scopeEntries s scopeId) []
  ⟨s.snapshotId, scopeId, root.pathNodeId, root.recursive⟩

/-- The summaries of the scopes are those of their roots. -/
theorem mapM_scopeSummary (hs : StructureAccepted s) {nodes : List (List PathAggregateNode)}
    (h : (sortedKeys s.scopeIds).mapM (fun scopeId => scopeNodes F s.snapshotId scopeId (scopeEntries s scopeId)) = .ok nodes) :
    (sortedKeys s.scopeIds).mapM (scopeSummary s.snapshotId nodes.flatten) =
      .ok ((sortedKeys s.scopeIds).map (rootSummary F s)) := by
  have hmem := mem_scopeNodes hs h
  have hsummary : ∀ scopeId ∈ sortedKeys s.scopeIds,
      scopeSummary s.snapshotId nodes.flatten scopeId = .ok (rootSummary F s scopeId) := by
    intro scopeId hscope
    refine scopeSummary_eq ((hmem _).2 ⟨scopeId, mem_sortedKeys.1 hscope, [], .inl rfl, rfl⟩) rfl rfl ?_
    intro m hm hmscope hmpath
    obtain ⟨scopeId', -, p, hp, rfl⟩ := (hmem m).1 hm
    have hscopes : scopeId' = scopeId := hmscope
    subst hscopes
    have hvalid := hp.valid fun e he => hs.valid e (mem_scopeEntries.1 he).1
    have hnil : p = [] := (pathOfParts_eq_dot hvalid).1 hmpath
    rw [hnil]
  exact mapM_eq_ok.2 (List.forall₂_map_right_iff.2 (List.forall₂_same.2 hsummary))

/-- The bytes of the scopes are the bytes of the snapshot, so that the check of them holds. -/
theorem sum_rootSummary (hs : StructureAccepted s) :
    (((sortedKeys s.scopeIds).map (rootSummary F s)).map fun summary => summary.recursive.knownLogicalBytes).sum =
      (structureCoverage s.entries).knownLogicalBytes := by
  rw [coverage_knownLogicalBytes, knownBytes, ← sum_scopes nodup_sortedKeys _
    fun e he => mem_sortedKeys.2 (hs.scopeId e he), List.map_map]
  exact congrArg List.sum (List.map_congr_left fun scopeId _ => root_knownLogicalBytes _)

/-- A snapshot that is accepted, and can be encoded, has a structure. -/
theorem ok_computeSnapshotStructure (h : validateEntries s = .ok ()) (henc : StructureEncodable s) :
    Ok (computeSnapshotStructure F s) := by
  have hs := validateEntries_accepted h
  unfold computeSnapshotStructure
  rw [h, ok_bind_ok]
  obtain ⟨nodes, hnodes⟩ : Ok ((sortedKeys s.scopeIds).mapM fun scopeId =>
      scopeNodes F s.snapshotId scopeId (scopeEntries s scopeId)) :=
    ok_mapM.2 fun scopeId hscope => ok_scopeNodes (fun e he => hs.valid e (mem_scopeEntries.1 he).1)
      (fun e he => hs.root e (mem_scopeEntries.1 he).1)
      (fun e he => ok_pathBytes_of_encodable (henc.paths e (mem_scopeEntries.1 he).1))
      (fun q hq => hq.encodable hs henc) henc.snapshotId (henc.scopeIds scopeId (mem_sortedKeys.1 hscope))
  have hsummaries := mapM_scopeSummary hs hnodes
  obtain ⟨limitations, hlimitations, hlimited⟩ := ok_structureLimitations hs henc
  unfold scopeEntries at hnodes
  dsimp only
  rw [hnodes, ok_bind_ok, hsummaries, ok_bind_ok, hlimitations, ok_bind_ok]
  rw [if_neg (not_not.2 (sum_rootSummary hs))]
  have hkeys : ∀ k ∈ [txt "domain", txt "structure_schema_version", txt "algorithm", txt "algorithm_version",
      txt "snapshot_id", txt "scope_summaries", txt "path_nodes", txt "coverage", txt "limitations",
      txt "physical_boundary"], k.encodable = true := by decide
  unfold structureResult
  refine (ok_bind_of_total fun _ => ok_pure _).2 (ok_digestOf.2 (Value.safe_dict.2 ⟨hkeys, fun f hf => ?_⟩))
  simp only [List.mem_cons, List.not_mem_nil, or_false] at hf
  rcases hf with rfl | rfl | rfl | rfl | rfl | rfl | rfl | rfl | rfl | rfl
  · exact (by decide : (txt "local_steward.storage_structure.v1").encodable = true)
  · rfl
  · exact (by decide : (txt "storage_structure").encodable = true)
  · rfl
  · exact henc.snapshotId
  · refine Value.safe_list.2 fun v hv => ?_
    obtain ⟨summary, hsummary, rfl⟩ := List.mem_map.1 hv
    obtain ⟨scopeId, hscope, rfl⟩ := List.mem_map.1 hsummary
    exact safe_scopeSummaryData henc.snapshotId (henc.scopeIds scopeId (mem_sortedKeys.1 hscope))
      (encodable_structureNodeId [] (scopeEntries s scopeId))
  · refine Value.safe_list.2 fun v hv => ?_
    obtain ⟨node, hnode, rfl⟩ := List.mem_map.1 hv
    obtain ⟨scopeId, hscope, p, hp, rfl⟩ := (mem_scopeNodes hs hnodes node).1 hnode
    exact safe_structureNodeData (encodable_structureNodeId p (scopeEntries s scopeId)) henc.snapshotId
      (henc.scopeIds scopeId hscope)
      (hp.encodable hs henc)
  · exact safe_structureCoverageData _
  · refine Value.safe_list.2 fun v hv => ?_
    obtain ⟨limitation, hl, rfl⟩ := List.mem_map.1 hv
    exact safe_limitationData (hlimited limitation hl).1 (hlimited limitation hl).2
  · exact safe_physicalBoundaryData _

end

end Steward
