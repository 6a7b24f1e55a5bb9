import Steward.Analysis.StructureOrder
import Steward.Projection.Selection
import Steward.Routing.PackRequest

/-!
# The hierarchy of a snapshot diagnostic

The entries a policy selects, and the storage nodes presented with them: every
scope root and every ancestor of a selected entry, and then the largest nodes
while there is room. The two budgets of a policy are set apart, so the ancestors
may not fit: `hierarchy_fits_iff`.
-/

namespace Steward.Projection

open Py Sqlite

/-! ## Sources and requests -/

/-- What building a projection raises. -/
inductive ProjectionFailure where
  /-- `ObservationProjectionRequestError` -/
  | request (code : Text)
  /-- `ObservationProjectionInvariantError` -/
  | invariant (code : Text)
  | raised (e : Exc)
  deriving DecidableEq, Repr

abbrev Built (α : Type) := Except ProjectionFailure α

/-- A step that raises no projection error of its own. -/
def orRaised {α : Type} (x : Result α) : Built α := x.mapError .raised

@[simp] theorem orRaised_ok {α : Type} (a : α) : orRaised (.ok a : Result α) = .ok a := rfl

/-- `SnapshotDiagnosticRequest`, as the product asks: with the hierarchy, and without overlays. -/
structure SnapshotDiagnosticRequest where
  primarySnapshotId : Text
  scope : Option Text
  pathPrefix : Option Text
  depth : Option Int
  rank : Option Text
  minBytes : Option Int

/-- `_LoadedSources` without the overlays. -/
structure LoadedSources where
  primary : FilesystemSnapshot
  primaryIdentity : SnapshotSourceIdentity
  storage : Option StorageStructureResult

/-- `_path_selected` -/
def pathSelected (path : Text) (base : Option Text) : Bool :=
  match base with
  | none => true
  | some base => base = txt "." || path = base || path.startsWith (base ++ txt "/")

/-- `_universe` -/
def universeOf (snapshot : FilesystemSnapshot) (request : SnapshotDiagnosticRequest) : Built (List FilesystemEntry) :=
  if request.scope.any fun scope => scope ∉ snapshot.scopeIds then .error (.request (txt "SCOPE_UNKNOWN"))
  else
    let inScope := snapshot.entries.filter fun e => request.scope.all fun scope => e.scopeId = scope
    if request.pathPrefix.any fun base => base ≠ txt "." then
      let selected := inScope.filter fun e => pathSelected e.relativePath request.pathPrefix
      if selected = [] then .error (.request (txt "PATH_PREFIX_INVALID")) else .ok selected
    else .ok inScope

/-! ## Candidates -/

/-- The reasons that come from the observed payload of a v2 entry. -/
def payloadReasons (e : FilesystemEntry) : List SelectionReason :=
  match e.v2 with
  | none => []
  | some facts =>
    (if facts.payloadObservation.status = .notLocal then [.nonLocal]
      else if e.objectType = .regularFile ∧ facts.payloadObservation.status ∉ [.hashed, .emptyFileHashed] then
        [.payloadUnknown]
      else []) ++
    if facts.payloadObservation.provenance.isSome then [.reuseProvenance] else []

/-- `_entry_reasons` -/
def entryReasons (e : FilesystemEntry) (request : SnapshotDiagnosticRequest) : List SelectionReason :=
  normalizeReasons
    ((if e.observationStatus ≠ .observed then
        .metadataFailure :: if e.observationStatus = .permissionDenied then [.accessFailure] else []
      else []) ++
    (if e.objectType = .regularFile ∧ e.sizeBytes = none then [.unknownSize] else []) ++
    (if e.excluded then [.excluded] else []) ++
    (if ¬ e.readable then [.unreadable] else []) ++
    payloadReasons e ++
    if request.scope.isSome ∨ request.pathPrefix.isSome then [.userRequestedLocation] else [])

/-- `_namespace` of the structure. -/
def structureNamespace (sources : LoadedSources) (storage : StorageStructureResult) : ResultNamespace :=
  ⟨.structureResult, .one sources.primaryIdentity, some storage.structureDigest⟩

/-- `root_ids.get(scope_id)`; a later node of one scope replaces an earlier one. -/
def rootId (storage : StorageStructureResult) (scopeId : Text) : Option Text :=
  ((storage.pathNodes.filter fun node => node.relativeDirectoryPath = txt "." ∧ node.scopeId = scopeId).map
    PathAggregateNode.pathNodeId).getLast?

/-- `(-(entry.size_bytes or 0), entry.scope_id, …)` -/
def sizeRankKey (e : FilesystemEntry) : Result (Int ×ₗ LocationKey) := do
  let key ← entrySortKey e
  pure (toLex (-(e.sizeBytes.getD 0), key))

def isSizedFile (e : FilesystemEntry) : Bool := e.objectType = .regularFile && !e.excluded && e.sizeBytes.isSome

/-- The candidates that stand for their logical bytes. -/
def contributors (entries : List FilesystemEntry) (sources : LoadedSources) (storage : StorageStructureResult) :
    Result (List SelectionCandidate) := do
  let largest ← sortedByM sizeRankKey (entries.filter isSizedFile)
  pure (largest.map fun e => ⟨e, [.logicalByteContributor],
    (rootId storage e.scopeId).toList.map fun id => ⟨structureNamespace sources storage, id⟩, false⟩)

/-- `_representative_candidates` -/
def representativeCandidates (entries : List FilesystemEntry) (sources : LoadedSources)
    (request : SnapshotDiagnosticRequest) : Result (List SelectionCandidate) := do
  let values := (entries.filter fun e => entryReasons e request ≠ []).map fun e =>
    (⟨e, entryReasons e request, [], false⟩ : SelectionCandidate)
  match sources.storage with
  | none => pure values
  | some storage => do
    let largest ← contributors entries sources storage
    pure (values ++ largest)

/-! ## Ancestors -/

/-- `path.rsplit("/", 1)[0] if "/" in path else "."` -/
def parentDirectory (path : Text) : Text :=
  if ch '/' ∈ path then [ch '/'].intercalate (Path.components path).dropLast else txt "."

/-- The turns of the loop over the parents of an entry, which ends at the root. -/
def parentsFrom : Nat → Text → List Text
  | 0, _ => []
  | fuel + 1, parent => parent :: if parent = txt "." then [] else parentsFrom fuel (parentDirectory parent)

/-- Every directory the loop meets; a turn leaves a component. -/
def parents (path : Text) : List Text := parentsFrom ((Path.components path).length + 1) (parentDirectory path)

/-! ## Nodes -/

/-- `(node.scope_id, node.relative_directory_path)` -/
def nodeKey (node : PathAggregateNode) : Text × Text := (node.scopeId, node.relativeDirectoryPath)

/-- The scopes whose roots are presented. -/
def requestedScopes (sources : LoadedSources) (request : SnapshotDiagnosticRequest) : List Text :=
  match request.scope with
  | some scope => [scope]
  | none => sources.primary.scopeIds

/-- `required` -/
def requiredKeys (nodes : List PathAggregateNode) (scopes : List Text) (selected : List SelectionCandidate) :
    List (Text × Text) :=
  ((scopes.map fun scope => (scope, txt ".")) ++
    selected.flatMap fun c => (parents c.entry.relativePath).map fun parent => (c.entry.scopeId, parent)).filter
    (fun key => key ∈ nodes.map nodeKey) |>.dedup

/-- `(-node.recursive_known_logical_bytes, node.scope_id, …)` -/
def optionalKey (node : PathAggregateNode) : Result (Int ×ₗ LocationKey) := do
  let key ← structureNodeKey node
  pure (toLex (-node.recursive.knownLogicalBytes, key))

/-- The nodes that are presented while there is room. -/
def optionalNodes (nodes : List PathAggregateNode) (required : List (Text × Text))
    (request : SnapshotDiagnosticRequest) : Result (List PathAggregateNode) :=
  sortedByM optionalKey (nodes.filter fun node => nodeKey node ∉ required ∧
    (request.scope.all fun scope => node.scopeId = scope) ∧ pathSelected node.relativeDirectoryPath request.pathPrefix)

/-- The loop that fills what room the required nodes leave. -/
def keepNodes (total : Int) : List (Text × Text) → List PathAggregateNode → List (Text × Text)
  | kept, [] => kept
  | kept, node :: rest => if total ≤ kept.length then kept else keepNodes total (kept ++ [nodeKey node]) rest

/-- `(item[0], item[1].encode("utf-8", "surrogateescape"))` -/
def keptKey (key : Text × Text) : Result LocationKey := do
  let bytes ← pathBytes key.2
  pure (toLex (key.1, bytes))

/-! ## Items -/

inductive HierarchyPresentationState where
  | folded | expanded
  deriving DecidableEq, Repr

structure ExpansionDescriptor where
  snapshotIds : List Text
  resultKind : ResultKind
  space : ResultNamespace
  scope : Text
  pathPrefix : Text
  depth : Option Int
  rank : Option Text
  minBytes : Option Int
  limit : Int
  offset : Int
  localId : Text

structure HierarchyItem where
  nodeReference : ResultLocalReference
  scopeId : Text
  relativeDirectoryPath : Text
  observedDirectoryEntry : Bool
  directMetrics : NodeCounts
  recursiveMetrics : NodeCounts
  presentation : HierarchyPresentationState
  selectionReasons : List SelectionReason
  anchorReferences : List SnapshotEntryReference
  boundaryReferences : List ResultLocalReference
  expansionDescriptor : ExpansionDescriptor

/-- The selected entries at or below a node. -/
def nodeAnchors (selected : List SelectionCandidate) (node : PathAggregateNode) : List SnapshotEntryReference :=
  (selected.map fun c => reference c.entry).filter fun r =>
    r.scopeId = node.scopeId ∧ pathSelected r.relativePath (some node.relativeDirectoryPath)

/-- The presentation of a node. -/
def hierarchyItem (sources : LoadedSources) (storage : StorageStructureResult) (request : SnapshotDiagnosticRequest)
    (selected : List SelectionCandidate) (node : PathAggregateNode) : HierarchyItem where
  nodeReference := ⟨structureNamespace sources storage, node.pathNodeId⟩
  scopeId := node.scopeId
  relativeDirectoryPath := node.relativeDirectoryPath
  observedDirectoryEntry := node.observedDirectoryEntry
  directMetrics := node.direct
  recursiveMetrics := node.recursive
  presentation := if nodeAnchors selected node = [] then .folded else .expanded
  selectionReasons := [.structureAnchor]
  anchorReferences := nodeAnchors selected node
  boundaryReferences := []
  expansionDescriptor := ⟨[sources.primary.snapshotId], .structureResult, structureNamespace sources storage,
    node.scopeId, node.relativeDirectoryPath, request.depth, request.rank, request.minBytes, 100, 0, node.pathNodeId⟩

/-- `nodes[key]` -/
def nodeAt (nodes : List PathAggregateNode) (key : Text × Text) : Result PathAggregateNode :=
  match nodes.find? fun node => nodeKey node = key with
  | some node => .ok node
  | none => .error (.python .keyError)

def decompositionUnsupported : ProjectionFailure := .invariant (txt "ACCOUNTING_DECOMPOSITION_UNSUPPORTED")

/-- The part of `_hierarchy` after the required nodes are known to fit. -/
def presentNodes (sources : LoadedSources) (storage : StorageStructureResult) (request : SnapshotDiagnosticRequest)
    (selected : List SelectionCandidate) (total : Int) (nodes : List PathAggregateNode) (required : List (Text × Text)) :
    Result (List HierarchyItem) := do
  let optional ← optionalNodes nodes required request
  let keys ← sortedByM keptKey (keepNodes total required optional)
  keys.mapM fun key => do
    let node ← nodeAt nodes key
    pure (hierarchyItem sources storage request selected node)

/-- `_hierarchy` -/
def hierarchy (sources : LoadedSources) (request : SnapshotDiagnosticRequest) (selected : List SelectionCandidate)
    (budget : ProjectionBudget) : Built (List HierarchyItem) :=
  match sources.storage with
  | none => .ok []
  | some storage =>
    match budget.hierarchyNodeTotal with
    | .requiresCalibration => .error (.request (txt "BUDGET_INVALID"))
    | .count total =>
      let nodes := collectBy nodeKey storage.pathNodes
      let required := requiredKeys nodes (requestedScopes sources request) selected
      if total < required.length then .error decompositionUnsupported
      else orRaised (presentNodes sources storage request selected total nodes required)

/-- The selection and the hierarchy of `build_snapshot_diagnostic_projection`. -/
def selectAndDecompose (sources : LoadedSources) (request : SnapshotDiagnosticRequest) (budget : ProjectionBudget) :
    Built (List SelectionCandidate × List HierarchyItem) := do
  let entries ← universeOf sources.primary request
  let candidates ← orRaised (representativeCandidates entries sources request)
  let selected ← orRaised (selectCandidates candidates budget)
  let items ← hierarchy sources request selected budget
  pure (selected, items)

/-! ## What the loop over the parents meets -/

theorem parentDirectory_pathOfParts {parts : List Text} (h : ValidParts parts) :
    parentDirectory (pathOfParts parts) = pathOfParts parts.dropLast := by
  rcases eq_or_ne parts [] with rfl | hne
  · decide
  have hcomponents := PurePath.components_intercalate (fun part hpart => (h part hpart).2.2.2) hne
  rw [parentDirectory, pathOfParts, if_neg hne, hcomponents]
  split_ifs with hslash
  · have hparent : parts.dropLast ≠ [] := by
      intro hnil
      have hlast := List.dropLast_append_getLast hne
      rw [hnil, List.nil_append] at hlast
      rw [← hlast, List.intercalate_singleton] at hslash
      exact (h _ (List.getLast_mem hne)).2.2.2 hslash
    rw [pathOfParts, if_neg hparent]
  · rw [Path.components_name hslash] at hcomponents
    rw [← hcomponents]
    exact (if_pos rfl).symm

theorem prefix_iff_dropLast {parts p : List Text} (hne : parts ≠ []) : p <+: parts ↔ p = parts ∨ p <+: parts.dropLast := by
  conv_lhs => rw [← List.dropLast_append_getLast hne]
  rw [List.prefix_concat_iff, List.dropLast_append_getLast hne]

theorem mem_parentsFrom {path : Text} : ∀ {fuel : Nat} {parts : List Text}, ValidParts parts → parts.length < fuel →
    (path ∈ parentsFrom fuel (pathOfParts parts) ↔ ∃ p, p <+: parts ∧ path = pathOfParts p)
  | fuel + 1, parts, h, hfuel => by
    rw [parentsFrom, List.mem_cons]
    rcases eq_or_ne parts [] with rfl | hne
    · rw [if_pos ((pathOfParts_eq_dot h).2 rfl)]
      simp
    · have hlast : parts.dropLast.length < fuel := by
        have hpos := List.length_pos_of_ne_nil hne
        rw [List.length_dropLast]
        omega
      rw [if_neg fun hdot => hne ((pathOfParts_eq_dot h).1 hdot), parentDirectory_pathOfParts h,
        mem_parentsFrom (h.ofPrefix (List.dropLast_prefix _)) hlast]
      simp only [prefix_iff_dropLast hne]
      constructor
      · rintro (rfl | ⟨p, hp, rfl⟩)
        · exact ⟨parts, .inl rfl, rfl⟩
        · exact ⟨p, .inr hp, rfl⟩
      · rintro ⟨p, rfl | hp, rfl⟩
        · exact .inl rfl
        · exact .inr ⟨p, hp, rfl⟩

/-- The loop meets the root and every other proper ancestor. -/
theorem mem_parents {e : FilesystemEntry} (h : validPath e.relativePath = .ok (partsOf e)) {path : Text} :
    path ∈ parents e.relativePath ↔ ∃ p, p <+: (partsOf e).dropLast ∧ path = pathOfParts p := by
  obtain ⟨hvalid, hpath⟩ := validPath_eq_ok h
  have hlength : (partsOf e).dropLast.length < (Path.components e.relativePath).length + 1 := by
    rw [← hpath]
    rcases eq_or_ne (partsOf e) [] with hnil | hne
    · rw [hnil]
      exact Nat.succ_pos _
    · rw [pathOfParts, if_neg hne, PurePath.components_intercalate (fun part hpart => (hvalid part hpart).2.2.2) hne,
        List.length_dropLast]
      omega
  rw [parents]
  conv_lhs => rw [← hpath, parentDirectory_pathOfParts hvalid, hpath]
  exact mem_parentsFrom (hvalid.ofPrefix (List.dropLast_prefix _)) hlength

/-! ## The required nodes -/

/-- A node every presentation has: the root of a requested scope, or an ancestor of a selected entry. -/
def RequiredNode (s : FilesystemSnapshot) (scopes : List Text) (selected : List SelectionCandidate) (scopeId : Text)
    (p : List Text) : Prop :=
  scopeId ∈ s.scopeIds ∧ HasNode (scopeEntries s scopeId) p ∧
    (scopeId ∈ scopes ∧ p = [] ∨ ∃ c ∈ selected, c.entry.scopeId = scopeId ∧ p <+: (partsOf c.entry).dropLast)

/-- The keys of the required nodes, each once. -/
structure RequiredKeys (s : FilesystemSnapshot) (scopes : List Text) (selected : List SelectionCandidate)
    (keys : List (Text × Text)) : Prop where
  nodup : keys.Nodup
  required : ∀ scopeId path, (scopeId, path) ∈ keys ↔
    ∃ p, path = pathOfParts p ∧ RequiredNode s scopes selected scopeId p

section
variable {F : Type} [SqliteFloat F] {s : FilesystemSnapshot} {storage : StorageStructureResult}

theorem mem_nodeKeys (h : Aggregates s storage) {scopeId path : Text} :
    (scopeId, path) ∈ storage.pathNodes.map nodeKey ↔
      scopeId ∈ s.scopeIds ∧ ∃ p, HasNode (scopeEntries s scopeId) p ∧ path = pathOfParts p := by
  rw [← h.nodes, List.mem_map]
  exact exists_congr fun node => and_congr_right fun _ => Prod.mk.injEq _ _ _ _ ▸ Iff.rfl

/-- The paths of nodes were encoded to sort them. -/
theorem ok_pathBytes_node (h : computeSnapshotStructure F s = .ok storage) {node : PathAggregateNode}
    (hnode : node ∈ storage.pathNodes) : Ok (pathBytes node.relativeDirectoryPath) := by
  obtain ⟨-, nodes, limitations, hnodes, -, h⟩ := computeSnapshotStructure_eq_ok.1 h
  obtain ⟨digest, -, h⟩ := bind_eq_ok.1 h
  cases h
  obtain ⟨ns, hns, hin⟩ := List.mem_flatten.1 hnode
  obtain ⟨scopeId, -, hok⟩ := exists_of_mem_mapM hnodes hns
  unfold scopeNodes at hok
  obtain ⟨values, -, hok⟩ := bind_eq_ok.1 hok
  obtain ⟨builders, -, hok⟩ := bind_eq_ok.1 hok
  obtain ⟨resolved, -, hsorted⟩ := bind_eq_ok.1 hok
  exact (ok_bind_of_total fun _ => ok_pure _).1 (ok_sortedByM.1 ⟨ns, hsorted⟩ node ((mem_sortedByM hsorted).1 hin))

/-- The keys the loops collect are those of the required nodes. -/
theorem requiredKeys_spec (hs : StructureAccepted s) (h : Aggregates s storage) (scopes : List Text)
    {selected : List SelectionCandidate} (hselected : ∀ c ∈ selected, c.entry ∈ s.entries) :
    RequiredKeys s scopes selected (requiredKeys storage.pathNodes scopes selected) := by
  refine ⟨List.nodup_dedup _, fun scopeId path => ?_⟩
  have hcollected : (scopeId, path) ∈ (scopes.map fun scope => (scope, txt ".")) ++
      (selected.flatMap fun c => (parents c.entry.relativePath).map fun parent => (c.entry.scopeId, parent)) ↔
      ∃ p, path = pathOfParts p ∧ (scopeId ∈ scopes ∧ p = [] ∨
        ∃ c ∈ selected, c.entry.scopeId = scopeId ∧ p <+: (partsOf c.entry).dropLast) := by
    rw [List.mem_append, List.mem_map, List.mem_flatMap]
    constructor
    · rintro (⟨scope, hscope, heq⟩ | ⟨c, hc, hmem⟩)
      · cases heq
        exact ⟨[], rfl, .inl ⟨hscope, rfl⟩⟩
      · obtain ⟨parent, hparent, heq⟩ := List.mem_map.1 hmem
        cases heq
        obtain ⟨p, hp, rfl⟩ := (mem_parents (hs.valid _ (hselected c hc))).1 hparent
        exact ⟨p, rfl, .inr ⟨c, hc, rfl, hp⟩⟩
    · rintro ⟨p, rfl, ⟨hscope, rfl⟩ | ⟨c, hc, rfl, hp⟩⟩
      · exact .inl ⟨scopeId, hscope, rfl⟩
      · exact .inr ⟨c, hc, List.mem_map_of_mem ((mem_parents (hs.valid _ (hselected c hc))).2 ⟨p, hp, rfl⟩)⟩
  rw [requiredKeys, List.mem_dedup, List.mem_filter, decide_eq_true_eq, hcollected, mem_nodeKeys h]
  constructor
  · rintro ⟨⟨p, rfl, hrequired⟩, hscope, q, hq, heq⟩
    have hvalidq := (isNodePath_iff.2 hq).valid fun e he => hs.valid e (mem_scopeEntries.1 he).1
    have hvalidp : ValidParts p := by
      rcases hrequired with ⟨-, rfl⟩ | ⟨c, hc, -, hp⟩
      · exact List.forall_mem_nil _
      · exact (validPath_eq_ok (hs.valid _ (hselected c hc))).1.ofPrefix (hp.trans (List.dropLast_prefix _))
    rw [pathOfParts_inj hvalidp hvalidq heq] at hrequired ⊢
    exact ⟨q, rfl, hscope, hq, hrequired⟩
  · rintro ⟨p, rfl, hscope, hp, hrequired⟩
    exact ⟨⟨p, rfl, hrequired⟩, hscope, p, hp, rfl⟩

end

/-! ## The presented nodes -/

theorem keepNodes_eq {total : Int} : ∀ {rest : List PathAggregateNode} {kept : List (Text × Text)},
    keepNodes total kept rest = kept ++ (rest.map nodeKey).take (total - kept.length).toNat
  | [], kept => by simp [keepNodes]
  | node :: rest, kept => by
    rw [keepNodes]
    split_ifs with hfull
    · rw [Int.toNat_eq_zero.2 (by omega), List.take_zero, List.append_nil]
    · obtain ⟨room, hroom⟩ : ∃ room : Nat, (total - kept.length).toNat = room + 1 :=
        ⟨(total - kept.length).toNat - 1, by omega⟩
      have hnext : (total - (kept ++ [nodeKey node]).length).toNat = room := by
        rw [List.length_append, List.length_singleton]
        omega
      rw [keepNodes_eq, hnext, hroom, List.map_cons, List.take_succ_cons, List.append_assoc]
      rfl

/-- A presentation is within its total and has every required node. -/
structure Presents (items : List HierarchyItem) (total : Int) (keys : List (Text × Text)) : Prop where
  within : items.length ≤ total
  complete : ∀ key ∈ keys, ∃ item ∈ items, (item.scopeId, item.relativeDirectoryPath) = key

section
variable {nodes : List PathAggregateNode} {required : List (Text × Text)} {total : Int}

theorem nodeAt_of_mem {key : Text × Text} (h : key ∈ nodes.map nodeKey) :
    ∃ node, nodeAt nodes key = .ok node ∧ nodeKey node = key := by
  unfold nodeAt
  cases hfind : nodes.find? fun node => nodeKey node = key with
  | none =>
    obtain ⟨node, hnode, rfl⟩ := List.mem_map.1 h
    exact absurd rfl (of_decide_eq_false (Bool.eq_false_iff.2 (List.find?_eq_none.1 hfind node hnode)))
  | some node =>
    have hkey := List.find?_some hfind
    exact ⟨node, rfl, of_decide_eq_true hkey⟩

/-- Required nodes that fit are presented. -/
theorem presentNodes_presents (sources : LoadedSources) (storage : StorageStructureResult)
    (request : SnapshotDiagnosticRequest) (selected : List SelectionCandidate)
    (hpaths : ∀ node ∈ nodes, Ok (pathBytes node.relativeDirectoryPath)) (hknown : ∀ key ∈ required, key ∈ nodes.map nodeKey)
    (hfit : required.length ≤ total) :
    ∃ items, presentNodes sources storage request selected total nodes required = .ok items ∧
      Presents items total required := by
  have hkey : ∀ node ∈ nodes, Ok (optionalKey node) := fun node hnode =>
    (ok_bind_of_total fun _ => ok_pure _).2 ((ok_bind_of_total fun _ => ok_pure _).2 (hpaths node hnode))
  obtain ⟨optional, hoptional⟩ : Ok (optionalNodes nodes required request) :=
    ok_sortedByM.2 fun node hnode => hkey node (List.mem_of_mem_filter hnode)
  have hkept : ∀ key ∈ keepNodes total required optional, key ∈ nodes.map nodeKey := by
    intro key hmem
    rw [keepNodes_eq, List.mem_append] at hmem
    rcases hmem with hmem | hmem
    · exact hknown key hmem
    · obtain ⟨node, hnode, rfl⟩ := List.mem_map.1 (List.mem_of_mem_take hmem)
      exact List.mem_map_of_mem (List.mem_of_mem_filter ((mem_sortedByM hoptional).1 hnode))
  have hlength : (keepNodes total required optional).length ≤ total := by
    rw [keepNodes_eq, List.length_append, List.length_take]
    omega
  obtain ⟨keys, hkeys⟩ : Ok (sortedByM keptKey (keepNodes total required optional)) := by
    refine ok_sortedByM.2 fun key hmem => ?_
    obtain ⟨node, hnode, rfl⟩ := List.mem_map.1 (hkept key hmem)
    exact (ok_bind_of_total fun _ => ok_pure _).2 (hpaths node hnode)
  have hitem : ∀ key ∈ keys, ∃ item : HierarchyItem, (do
      let node ← nodeAt nodes key
      pure (hierarchyItem sources storage request selected node)) = Except.ok item ∧
        (item.scopeId, item.relativeDirectoryPath) = key := by
    intro key hmem
    obtain ⟨node, hnode, rfl⟩ := nodeAt_of_mem (hkept key ((mem_sortedByM hkeys).1 hmem))
    exact ⟨_, by rw [hnode]; rfl, rfl⟩
  obtain ⟨items, hitems⟩ := ok_mapM.2 fun key hmem => (hitem key hmem).imp fun _ h => h.1
  refine ⟨items, ?_, ?_, fun key hmem => ?_⟩
  · rw [presentNodes, hoptional, ok_bind_ok, hkeys, ok_bind_ok, hitems]
  · rw [length_of_mapM hitems, (sortedByM_perm hkeys).length_eq]
    exact hlength
  · have hin : key ∈ keys := (mem_sortedByM hkeys).2 (by
      rw [keepNodes_eq]
      exact List.mem_append_left _ hmem)
    obtain ⟨item, hitem', hkey'⟩ := hitem key hin
    obtain ⟨item', hmem', hok⟩ := exists_mapM_of_mem hitems hin
    cases hitem'.symm.trans hok
    exact ⟨item, hmem', hkey'⟩

end

/-! ## The selected entries -/

section
variable {s : FilesystemSnapshot} {request : SnapshotDiagnosticRequest} {entries : List FilesystemEntry}

theorem universeOf_subset (h : universeOf s request = .ok entries) {e : FilesystemEntry} (he : e ∈ entries) :
    e ∈ s.entries := by
  unfold universeOf at h
  dsimp only at h
  split_ifs at h
  · cases h
    exact List.mem_of_mem_filter (List.mem_of_mem_filter he)
  · cases h
    exact List.mem_of_mem_filter he

/-- Candidates are made of the entries that are looked at. -/
theorem representativeCandidates_of_encodable (sources : LoadedSources) (request : SnapshotDiagnosticRequest)
    (hpaths : ∀ e ∈ entries, Ok (pathBytes e.relativePath)) :
    ∃ candidates, representativeCandidates entries sources request = .ok candidates ∧ ∀ c ∈ candidates, c.entry ∈ entries := by
  have hreasons : ∀ c ∈ (entries.filter fun e => entryReasons e request ≠ []).map fun e =>
      (⟨e, entryReasons e request, [], false⟩ : SelectionCandidate), c.entry ∈ entries := by
    intro c hc
    obtain ⟨e, he, rfl⟩ := List.mem_map.1 hc
    exact List.mem_of_mem_filter he
  unfold representativeCandidates
  cases sources.storage with
  | none => exact ⟨_, rfl, hreasons⟩
  | some storage =>
    obtain ⟨largest, hlargest⟩ : Ok (sortedByM sizeRankKey (entries.filter isSizedFile)) := by
      refine ok_sortedByM.2 fun e he => ?_
      exact (ok_bind_of_total fun _ => ok_pure _).2 ((ok_bind_of_total fun _ => ok_pure _).2
        (hpaths e (List.mem_of_mem_filter he)))
    dsimp only
    rw [contributors, hlargest]
    refine ⟨_, rfl, fun c hc => ?_⟩
    rcases List.mem_append.1 hc with hc | hc
    · exact hreasons c hc
    · obtain ⟨e, he, rfl⟩ := List.mem_map.1 hc
      exact List.mem_of_mem_filter ((mem_sortedByM hlargest).1 he)

end

/-! ## The product's policies -/

/-- The budget of a policy as its dataclass holds it. -/
def limitsOf (budget : Steward.ProjectionBudget) : ProjectionBudget where
  explicitEntryTotal := .count budget.explicitEntryTotal
  hierarchyNodeTotal := .count budget.hierarchyNodeTotal
  trackingItemTotal := .count budget.trackingItemTotal
  relationComponentTotal := .count budget.relationComponentTotal
  duplicateAliasComponentTotal := .count budget.duplicateAliasComponentTotal
  membersPerComponent := .count budget.membersPerComponent
  scopeMinimumGuarantee := .count budget.scopeMinimumGuarantee
  priorityQuotas := budget.priorityQuotas.map fun quota => (quota.1, .count quota.2)
  serializedBytesSoft := .count budget.serializedBytesSoft

/-- A request the product makes: by the decoder, or for a route whose bounds were admitted. -/
inductive ProductRequest (F : Type) (decoder : Decoder) : AgentContextPackRequest → Prop where
  | built {arguments : List (Text × Value F)} {pack : AgentContextPackRequest} :
      decoder.buildPackRequest arguments = .ok pack → ProductRequest F decoder pack
  | routed {route : StewardRouteRequest} {question : Value F} {pack : AgentContextPackRequest} :
      validateBounds route.bounds = .ok () → decoder.packRequest route question = .ok pack →
        ProductRequest F decoder pack

/-- The diagnostic request of a pack; what it leaves out keeps its default. -/
def diagnosticOf : ProjectionRequest → Option SnapshotDiagnosticRequest
  | .snapshotDiagnostic primarySnapshotId scope pathPrefix =>
    some ⟨primarySnapshotId, scope, pathPrefix, none, none, none⟩
  | .pairTracking _ _ _ _ => none

section
variable {F : Type} {decoder : Decoder} {pack : AgentContextPackRequest}

theorem policy_of_buildPackRequest {arguments : List (Text × Value F)} (h : decoder.buildPackRequest arguments = .ok pack) :
    pack.projectionPolicy = balancedV1ProjectionPolicy := by
  unfold Decoder.buildPackRequest at h
  split at h
  · split_ifs at h
    · cases h
    · obtain ⟨intent, -, h⟩ := bind_eq_ok.1 h
      obtain ⟨projection, -, h⟩ := bind_eq_ok.1 h
      cases h
      rfl
  · cases h

/-- The product's own policy, or the policy with its totals bounded by a positive limit. -/
theorem ProductRequest.budget (h : ProductRequest F decoder pack) :
    pack.projectionPolicy.budget = balancedV1ProjectionPolicy.budget ∨
      ∃ limit, 1 ≤ limit ∧ pack.projectionPolicy.budget = balancedV1ProjectionPolicy.budget.limited limit := by
  cases h with
  | built h => exact .inl (congrArg ProjectionPolicy.budget (policy_of_buildPackRequest h))
  | @routed route question pack hbounds h =>
    unfold Decoder.packRequest at h
    split at h
    · rename_i bounds scopeId hroute hscope
      obtain ⟨source, -, h⟩ := bind_eq_ok.1 h
      obtain ⟨unlimited, hbuilt, h⟩ := bind_eq_ok.1 h
      cases h
      refine .inr ⟨bounds.limit, (validateBounds_eq_ok.1 hbounds bounds hroute).1.1, ?_⟩
      rw [AgentContextPackRequest.limited, policy_of_buildPackRequest hbuilt]
    · cases h

/-- Every budget of the product is accepted. -/
theorem ProductRequest.accepted (h : ProductRequest F decoder pack) :
    validateBudget false (limitsOf pack.projectionPolicy.budget) = .ok () := by
  rcases h.budget with hbudget | ⟨limit, hlimit, hbudget⟩
  · rw [hbudget]
    decide
  · rw [hbudget, validateBudget, if_pos]
    simp only [limitsOf, ProjectionBudget.values, Steward.ProjectionBudget.limited, balancedV1ProjectionPolicy,
      BudgetLimit.admitted, List.map_cons, List.map_nil, List.cons_append, List.nil_append, List.all_cons, List.all_nil,
      Bool.and_true, Bool.and_eq_true, decide_eq_true_eq]
    omega

end

/-! ## What fits -/

/-- The entries the policy selects among those that are looked at. -/
def Selects (sources : LoadedSources) (request : SnapshotDiagnosticRequest) (budget : ProjectionBudget)
    (entries : List FilesystemEntry) (selected : List SelectionCandidate) : Prop :=
  ∃ candidates, representativeCandidates entries sources request = .ok candidates ∧
    selectCandidates candidates budget = .ok selected ∧ ∀ c ∈ selected, c.entry ∈ entries

section
variable {F : Type} [SqliteFloat F] {s : FilesystemSnapshot} {identity : SnapshotSourceIdentity}
  {storage : StorageStructureResult} {request : SnapshotDiagnosticRequest} {budget : ProjectionBudget}
  {entries : List FilesystemEntry}

variable (identity budget) in
theorem exists_selects (hstorage : computeSnapshotStructure F s = .ok storage)
    (huniverse : universeOf s request = .ok entries) :
    ∃ selected, Selects ⟨s, identity, some storage⟩ request budget entries selected := by
  have hsub : ∀ e ∈ entries, e ∈ s.entries := fun e he => universeOf_subset huniverse he
  obtain ⟨-, hpaths, -⟩ := computeSnapshotStructure_spec hstorage
  obtain ⟨candidates, hcandidates, hof⟩ := representativeCandidates_of_encodable ⟨s, identity, some storage⟩ request
    fun e he => hpaths e (hsub e he)
  obtain ⟨selected, hselected, hfrom⟩ := selectCandidates_of_encodable budget
    fun v hv => hpaths v.entry (hsub _ (hof v hv))
  refine ⟨selected, candidates, hcandidates, hselected, fun c hc => ?_⟩
  obtain ⟨v, hv, heq⟩ := hfrom c hc
  exact heq ▸ hof v hv

/-- What follows a selection: the nodes it requires are presented when they fit, and nothing is otherwise. -/
theorem selectAndDecompose_of_selects (hstorage : computeSnapshotStructure F s = .ok storage)
    (huniverse : universeOf s request = .ok entries) {total : Int} (htotal : budget.hierarchyNodeTotal = .count total)
    {selected : List SelectionCandidate} (hselects : Selects ⟨s, identity, some storage⟩ request budget entries selected)
    {keys : List (Text × Text)}
    (hkeys : RequiredKeys s (requestedScopes ⟨s, identity, some storage⟩ request) selected keys) :
    (keys.length ≤ total → ∃ items, selectAndDecompose ⟨s, identity, some storage⟩ request budget =
      .ok (selected, items) ∧ Presents items total keys) ∧
    (total < keys.length →
      selectAndDecompose ⟨s, identity, some storage⟩ request budget = .error decompositionUnsupported) := by
  obtain ⟨candidates, hcandidates, hselected, hfrom⟩ := hselects
  obtain ⟨hs, -, -⟩ := computeSnapshotStructure_spec hstorage
  have haggregates := aggregates_of_computed hstorage
  have hspec := requiredKeys_spec hs haggregates (requestedScopes ⟨s, identity, some storage⟩ request) fun c hc =>
    universeOf_subset huniverse (hfrom c hc)
  have hcollect : collectBy nodeKey storage.pathNodes = storage.pathNodes := collectBy_of_nodup _ haggregates.unique
  have hsame : ∀ key, key ∈ requiredKeys storage.pathNodes
      (requestedScopes ⟨s, identity, some storage⟩ request) selected ↔ key ∈ keys := fun key =>
    (hspec.required key.1 key.2).trans (hkeys.required key.1 key.2).symm
  have hlength := ((List.perm_ext_iff_of_nodup hspec.nodup hkeys.nodup).2 hsame).length_eq
  have hrun : selectAndDecompose ⟨s, identity, some storage⟩ request budget = (do
      let items ← hierarchy ⟨s, identity, some storage⟩ request selected budget
      pure (selected, items)) := by
    rw [selectAndDecompose]
    dsimp only
    rw [huniverse, ok_bind_ok, hcandidates, orRaised_ok, ok_bind_ok, hselected, orRaised_ok, ok_bind_ok]
  rw [hrun, hierarchy, htotal]
  dsimp only
  rw [hcollect, hlength]
  refine ⟨fun hfit => ?_, fun hover => ?_⟩
  · have hknown : ∀ key ∈ requiredKeys storage.pathNodes (requestedScopes ⟨s, identity, some storage⟩ request) selected,
        key ∈ storage.pathNodes.map nodeKey := fun key hkey =>
      of_decide_eq_true (List.mem_filter.1 (List.mem_dedup.1 hkey)).2
    obtain ⟨items, hitems, hpresents⟩ := presentNodes_presents ⟨s, identity, some storage⟩ storage request selected
      (fun node hnode => ok_pathBytes_node hstorage hnode) hknown (hlength.symm ▸ hfit)
    rw [if_neg (by omega), hitems]
    exact ⟨items, rfl, hpresents.within, fun key hkey => hpresents.complete key ((hsame key).2 hkey)⟩
  · rw [if_pos hover]
    rfl

end

/-- Selection succeeds, and the hierarchy exactly when its required nodes are no more than its total;
otherwise the decomposition is refused. -/
def DecomposesWithin (sources : LoadedSources) (request : SnapshotDiagnosticRequest) (budget : ProjectionBudget)
    (total : Int) (entries : List FilesystemEntry) : Prop :=
  ∃ selected keys, Selects sources request budget entries selected ∧
    RequiredKeys sources.primary (requestedScopes sources request) selected keys ∧
    (Ok (selectAndDecompose sources request budget) ↔ keys.length ≤ total) ∧
    (keys.length ≤ total → ∃ items, selectAndDecompose sources request budget = .ok (selected, items) ∧
      Presents items total keys) ∧
    (total < keys.length → selectAndDecompose sources request budget = .error decompositionUnsupported)

/-- Under the product's policies every snapshot with a structure is decomposed when the roots and the
ancestors of what is selected fit, and refused by the one guard when they do not. -/
theorem hierarchy_fits_iff (F : Type) [SqliteFloat F] (decoder : Decoder) (pack : AgentContextPackRequest)
    (hproduct : ProductRequest F decoder pack) (request : SnapshotDiagnosticRequest) (s : FilesystemSnapshot)
    (identity : SnapshotSourceIdentity) (storage : StorageStructureResult)
    (hstorage : computeSnapshotStructure F s = .ok storage) (entries : List FilesystemEntry)
    (huniverse : universeOf s request = .ok entries) :
    validateBudget false (limitsOf pack.projectionPolicy.budget) = .ok () ∧
      DecomposesWithin ⟨s, identity, some storage⟩ request (limitsOf pack.projectionPolicy.budget)
        pack.projectionPolicy.budget.hierarchyNodeTotal entries := by
  obtain ⟨selected, hselects⟩ := exists_selects identity (limitsOf pack.projectionPolicy.budget) hstorage
    huniverse
  obtain ⟨hs, -, -⟩ := computeSnapshotStructure_spec hstorage
  have hkeys := requiredKeys_spec hs (aggregates_of_computed hstorage)
    (requestedScopes ⟨s, identity, some storage⟩ request) fun c hc =>
      universeOf_subset huniverse (hselects.choose_spec.2.2 c hc)
  obtain ⟨hfit, hover⟩ := selectAndDecompose_of_selects hstorage huniverse rfl hselects hkeys
  refine ⟨hproduct.accepted, selected, _, hselects, hkeys, ⟨fun h => ?_, fun h => ?_⟩, hfit, hover⟩
  · by_contra hlong
    rw [hover (not_le.1 hlong)] at h
    exact not_ok_error _ h
  · obtain ⟨items, hitems, -⟩ := hfit h
    exact ⟨_, hitems⟩

/-! ### A directory thirteen levels down -/

/-- A directory of the snapshot below. -/
def directoryAt (names : List Text) (readable : Bool) : FilesystemEntry :=
  ⟨txt "2c5ea4c0-4067-11e9-8bad-9b1deb4d3b7d", txt "home", pathOfParts names, .directory, none, none, none, none, none,
    none, none, none, none, none, none, readable, true, false, .observed, none, none, false, none⟩

/-- Twelve directories, each in the one before, and an unreadable one in the last. -/
def deepSnapshot : FilesystemSnapshot :=
  ⟨txt "2c5ea4c0-4067-11e9-8bad-9b1deb4d3b7d", [], [], [txt "home"],
    ((List.range 13).map fun depth => directoryAt (List.replicate depth (txt "d")) true) ++
      [directoryAt (List.replicate 13 (txt "d")) false]⟩

/-- The pack request for a diagnostic of all of it. -/
def deepArguments : List (Text × Value Integral) :=
  [(txt "profile", .str profileName),
    (txt "source", .dict [(txt "kind", .str (txt "SNAPSHOT_DIAGNOSTIC")),
      (txt "snapshot_id", .str (txt "2c5ea4c0-4067-11e9-8bad-9b1deb4d3b7d"))]),
    (txt "user_intent", .dict [(txt "question", .str (txt "q"))])]

def deepRequest : SnapshotDiagnosticRequest :=
  ⟨txt "2c5ea4c0-4067-11e9-8bad-9b1deb4d3b7d", none, none, none, none, none⟩

def deepPack : AgentContextPackRequest :=
  ⟨.snapshotDiagnostic (txt "2c5ea4c0-4067-11e9-8bad-9b1deb4d3b7d") none none, balancedV1ProjectionPolicy,
    ⟨txt "q", none, none⟩, balancedV1ContextBudget⟩

theorem deepSnapshot_computed : ∃ storage, computeSnapshotStructure Integral deepSnapshot = .ok storage :=
  ok_computeSnapshotStructure (by decide +kernel) ⟨by decide, by decide, by decide⟩

theorem deepPack_built : plainDecoder.buildPackRequest deepArguments = .ok deepPack := by decide +kernel

theorem deepSnapshot_decomposes : ∃ storage, computeSnapshotStructure Integral deepSnapshot = .ok storage ∧
    DecomposesWithin ⟨deepSnapshot, ⟨deepSnapshot.snapshotId, 1, none⟩, some storage⟩ deepRequest
      (limitsOf deepPack.projectionPolicy.budget) 12 deepSnapshot.entries := by
  obtain ⟨storage, hstorage⟩ := deepSnapshot_computed
  exact ⟨storage, hstorage, (hierarchy_fits_iff Integral plainDecoder deepPack (.built deepPack_built) deepRequest
    deepSnapshot ⟨deepSnapshot.snapshotId, 1, none⟩ storage hstorage deepSnapshot.entries (by decide)).2⟩

/-- The unreadable directory is selected, and its thirteen ancestors do not fit. -/
theorem deepSnapshot_refused : ∃ storage, computeSnapshotStructure Integral deepSnapshot = .ok storage ∧
    plainDecoder.buildPackRequest deepArguments = .ok deepPack ∧
    diagnosticOf deepPack.projectionRequest = some deepRequest ∧
    universeOf deepSnapshot deepRequest = .ok deepSnapshot.entries ∧
    selectAndDecompose ⟨deepSnapshot, ⟨deepSnapshot.snapshotId, 1, none⟩, some storage⟩ deepRequest
      (limitsOf deepPack.projectionPolicy.budget) =
        .error (.invariant (txt "ACCOUNTING_DECOMPOSITION_UNSUPPORTED")) := by
  obtain ⟨storage, hstorage⟩ := deepSnapshot_computed
  have hentries : universeOf deepSnapshot deepRequest = .ok deepSnapshot.entries := by decide
  refine ⟨storage, hstorage, deepPack_built, rfl, hentries, ?_⟩
  have hselects : Selects ⟨deepSnapshot, ⟨deepSnapshot.snapshotId, 1, none⟩, some storage⟩ deepRequest
      (limitsOf deepPack.projectionPolicy.budget) deepSnapshot.entries
      [⟨directoryAt (List.replicate 13 (txt "d")) false, [.unreadable], [], false⟩] :=
    ⟨[⟨directoryAt (List.replicate 13 (txt "d")) false, [.unreadable], [], false⟩], rfl, by decide +kernel, by decide⟩
  obtain ⟨hs, -, -⟩ := computeSnapshotStructure_spec hstorage
  have hkeys := requiredKeys_spec hs (aggregates_of_computed hstorage) deepSnapshot.scopeIds fun c hc =>
    universeOf_subset hentries (hselects.choose_spec.2.2 c hc)
  refine (selectAndDecompose_of_selects hstorage hentries rfl hselects hkeys).2 ?_
  have hparent : ∀ depth ∈ List.range 13, List.replicate depth (txt "d") <+:
      (partsOf (directoryAt (List.replicate 13 (txt "d")) false)).dropLast := by decide +kernel
  have hproper : ∀ depth ∈ List.range 13, List.replicate depth (txt "d") ≠
      partsOf (directoryAt (List.replicate 13 (txt "d")) false) := by decide +kernel
  have hlocked : directoryAt (List.replicate 13 (txt "d")) false ∈ activeEntries (scopeEntries deepSnapshot (txt "home")) := by
    decide
  -- the root and the twelve directories are thirteen keys
  have hmany : ((List.range 13).map fun depth => (txt "home", pathOfParts (List.replicate depth (txt "d")))).Subperm
      (requiredKeys storage.pathNodes deepSnapshot.scopeIds
        [⟨directoryAt (List.replicate 13 (txt "d")) false, [.unreadable], [], false⟩]) := by
    refine List.Nodup.subperm (by decide +kernel) fun key hkey => ?_
    obtain ⟨depth, hdepth, rfl⟩ := List.mem_map.1 hkey
    exact (hkeys.required _ _).2 ⟨List.replicate depth (txt "d"), rfl, by decide,
      .inr (.inl ⟨_, hlocked, (hparent depth hdepth).trans (List.dropLast_prefix _), hproper depth hdepth⟩),
      .inr ⟨_, List.mem_singleton_self _, rfl, hparent depth hdepth⟩⟩
  have hlength := hmany.length_le
  rw [List.length_map, List.length_range] at hlength
  exact Int.ofNat_le.2 hlength

end Steward.Projection
