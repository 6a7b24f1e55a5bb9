import Steward.Analysis.Duplicates
import Steward.Py.Path
import Steward.Py.PathTree

/-!
# Storage structure of a snapshot

`compute_snapshot_structure` of `storage_structure.py`: a node for each directory
of a scope, with what is directly in it and what is anywhere below it. A path of
the tree is the list of its components, the scope root the empty list. A negative
size is refused before any size is read.
-/

namespace Steward

open Py Sqlite

/-- The six counters of a node. -/
@[ext] structure NodeCounts where
  regularFileCount : Int
  knownLogicalBytes : Int
  unknownSizeRegularCount : Int
  directoryCount : Int
  symlinkCount : Int
  specialObjectCount : Int
  deriving DecidableEq, Repr

namespace NodeCounts

instance : Zero NodeCounts := ⟨⟨0, 0, 0, 0, 0, 0⟩⟩

instance : Add NodeCounts where
  add a b :=
    { regularFileCount := a.regularFileCount + b.regularFileCount
      knownLogicalBytes := a.knownLogicalBytes + b.knownLogicalBytes
      unknownSizeRegularCount := a.unknownSizeRegularCount + b.unknownSizeRegularCount
      directoryCount := a.directoryCount + b.directoryCount
      symlinkCount := a.symlinkCount + b.symlinkCount
      specialObjectCount := a.specialObjectCount + b.specialObjectCount }

@[simp] theorem zero_regularFileCount : (0 : NodeCounts).regularFileCount = 0 := rfl
@[simp] theorem zero_knownLogicalBytes : (0 : NodeCounts).knownLogicalBytes = 0 := rfl
@[simp] theorem zero_unknownSizeRegularCount : (0 : NodeCounts).unknownSizeRegularCount = 0 := rfl
@[simp] theorem zero_directoryCount : (0 : NodeCounts).directoryCount = 0 := rfl
@[simp] theorem zero_symlinkCount : (0 : NodeCounts).symlinkCount = 0 := rfl
@[simp] theorem zero_specialObjectCount : (0 : NodeCounts).specialObjectCount = 0 := rfl

section
variable (a b : NodeCounts)

@[simp] theorem add_regularFileCount : (a + b).regularFileCount = a.regularFileCount + b.regularFileCount := rfl
@[simp] theorem add_knownLogicalBytes : (a + b).knownLogicalBytes = a.knownLogicalBytes + b.knownLogicalBytes := rfl
@[simp] theorem add_unknownSizeRegularCount :
    (a + b).unknownSizeRegularCount = a.unknownSizeRegularCount + b.unknownSizeRegularCount := rfl
@[simp] theorem add_directoryCount : (a + b).directoryCount = a.directoryCount + b.directoryCount := rfl
@[simp] theorem add_symlinkCount : (a + b).symlinkCount = a.symlinkCount + b.symlinkCount := rfl
@[simp] theorem add_specialObjectCount : (a + b).specialObjectCount = a.specialObjectCount + b.specialObjectCount := rfl

end

instance : AddCommMonoid NodeCounts where
  add_assoc a b c := by ext <;> simp [Int.add_assoc]
  zero_add a := by ext <;> simp
  add_zero a := by ext <;> simp
  add_comm a b := by ext <;> simp [Int.add_comm]
  nsmul := nsmulRec

end NodeCounts

/-- What the builder of a node holds besides its children. -/
structure NodeBuilder where
  observedDirectoryEntry : Bool
  direct : NodeCounts
  deriving DecidableEq, Repr

structure PathAggregateNode where
  pathNodeId : Text
  snapshotId : Text
  scopeId : Text
  relativeDirectoryPath : Text
  observedDirectoryEntry : Bool
  direct : NodeCounts
  recursive : NodeCounts
  deriving DecidableEq, Repr

structure ScopeStructureSummary where
  snapshotId : Text
  scopeId : Text
  rootNodeId : Text
  recursive : NodeCounts
  deriving DecidableEq, Repr

structure StructureCoverageSummary where
  totalEntryCount : Nat
  regularFileEntryCount : Nat
  knownSizeRegularFileCount : Nat
  unknownSizeRegularFileCount : Nat
  knownLogicalBytes : Int
  directoryEntryCount : Nat
  symlinkEntryCount : Nat
  specialObjectEntryCount : Nat
  excludedEntryCount : Nat
  metadataFailedEntryCount : Nat
  scopeOverlapObjectHintCount : Nat
  repeatedKnownObjectHintPathCount : Nat
  objectHintUnavailableEntryCount : Nat
  complete : Bool
  deriving DecidableEq, Repr

structure StructureLimitation where
  code : Text
  entries : List SnapshotEntryReference
  deriving DecidableEq

structure StructurePhysicalBoundary where
  allocationStatus : DuplicateStorageKnowledgeStatus
  physicalBlockSharingStatus : DuplicateStorageKnowledgeStatus
  reclaimableStatus : DuplicateStorageKnowledgeStatus
  objectAwareCapacityStatus : DuplicateStorageKnowledgeStatus
  deriving DecidableEq

structure StorageStructureResult where
  structureSchemaVersion : Int
  algorithm : Text
  algorithmVersion : Int
  snapshotId : Text
  scopeSummaries : List ScopeStructureSummary
  pathNodes : List PathAggregateNode
  coverage : StructureCoverageSummary
  limitations : List StructureLimitation
  physicalBoundary : StructurePhysicalBoundary
  structureDigest : Text

/-! ## Paths -/

def structureInvalid {α : Type} : Result α := .error (.steward .structureError)

/-- `_valid_path` -/
def validPath (path : Text) : Result (List Text) :=
  if path = txt "." then .ok []
  else if path = [] ∨ path.startsWith (txt "/") then structureInvalid
  else
    let parts := Path.components path
    if parts.any fun part => part = [] ∨ part = txt "." ∨ part = txt ".." then structureInvalid else .ok parts

/-- `_path` -/
def pathOfParts (parts : List Text) : Text := if parts = [] then txt "." else [ch '/'].intercalate parts

/-! ## Entries -/

/-- `_known_regular_size` -/
def knownRegularSize (e : FilesystemEntry) : Option Int :=
  if e.objectType = .regularFile ∧ e.observationStatus = .observed then e.sizeBytes else none

def isSpecial (e : FilesystemEntry) : Bool :=
  e.objectType ∉ [FilesystemObjectType.regularFile, .directory, .symlink]

/-- What an entry adds to the node it is counted in. -/
def entryCounts (e : FilesystemEntry) : NodeCounts :=
  match e.objectType with
  | .regularFile =>
    match knownRegularSize e with
    | some size => { (0 : NodeCounts) with regularFileCount := 1, knownLogicalBytes := size }
    | none => { (0 : NodeCounts) with regularFileCount := 1, unknownSizeRegularCount := 1 }
  | .directory => { (0 : NodeCounts) with directoryCount := 1 }
  | .symlink => { (0 : NodeCounts) with symlinkCount := 1 }
  | _ => { (0 : NodeCounts) with specialObjectCount := 1 }

/-- The first loop of `_validate_entries`: the entries before, and one more. -/
def validateEntry (snapshotId : Text) (scopeIds : List Text) (before : List FilesystemEntry) (e : FilesystemEntry) :
    Result (List FilesystemEntry) :=
  if e.snapshotId ≠ snapshotId then structureInvalid
  else if e.scopeId ∉ scopeIds then structureInvalid
  else do
    let _ ← validPath e.relativePath
    if before.any fun a => a.location = e.location then structureInvalid
    else if e.sizeBytes.any fun size => size < 0 then structureInvalid
    else return before ++ [e]

/-- The second loop: ancestors that are entries are directories, and so is a scope root. -/
def validateHierarchy (entries : List FilesystemEntry) (e : FilesystemEntry) : Result Unit := do
  let parts ← validPath e.relativePath
  (List.range' 1 (parts.length - 1)).forM fun length =>
    match entries.find? fun a => a.location = (e.scopeId, pathOfParts (parts.take length)) with
    | some ancestor => if ancestor.objectType ≠ .directory then structureInvalid else .ok ()
    | none => .ok ()
  if e.relativePath = txt "." ∧ e.objectType ≠ .directory then structureInvalid else .ok ()

def validateEntries (snapshot : FilesystemSnapshot) : Result Unit := do
  let entries ← snapshot.entries.foldlM (validateEntry snapshot.snapshotId snapshot.scopeIds) []
  entries.forM (validateHierarchy entries)

/-! ## Nodes of a scope -/

section
variable (F : Type) [SqliteFloat F]

/-- `_node_id` -/
def structureNodeId (snapshotId scopeId path : Text) : Result Text :=
  digestOf (F := F) (.dict [(txt "structure_schema_version", .int 1), (txt "algorithm", .str (txt "storage_structure")),
    (txt "algorithm_version", .int 1), (txt "snapshot_id", .str snapshotId), (txt "scope_id", .str scopeId),
    (txt "relative_directory_path", .str path)])

def NodeBuilder.fresh : NodeBuilder := ⟨false, 0⟩

def NodeBuilder.record (b : NodeBuilder) (e : FilesystemEntry) : NodeBuilder :=
  { observedDirectoryEntry := b.observedDirectoryEntry || e.objectType = .directory
    direct := b.direct + entryCounts e }

/-- The path of the node an entry is counted in: a directory's own, and else the parent's. -/
def entryHome (e : FilesystemEntry) (parts : List Text) : List Text :=
  if e.objectType = .directory then parts else parts.dropLast

/-- One turn of the loop of `_scope_nodes`. -/
def addStructureEntry (builders : PathTree.Tree Text NodeBuilder) (e : FilesystemEntry) :
    Result (PathTree.Tree Text NodeBuilder) :=
  if e.excluded then .ok builders
  else do
    let parts ← validPath e.relativePath
    let builders ← PathTree.ensurePrefixes (.python .keyError) .fresh parts parts.length builders
    let builders ← PathTree.ensure (.python .keyError) .fresh builders (entryHome e parts)
    return PathTree.modify builders (entryHome e parts) (PathTree.setValue (·.record e))

/-- `sorted(builder.children, key=…)` -/
def orderChildren (children : List (List Text)) : Result (List (List Text)) :=
  sortedByM (fun child => pathBytes (pathOfParts child)) children

/-- The node of a path, from its builder and the nodes of its children. -/
def aggregateNode (snapshotId scopeId : Text) (path : List Text) (builder : NodeBuilder)
    (children : List PathAggregateNode) : Result PathAggregateNode := do
  let pathNodeId ← structureNodeId F snapshotId scopeId (pathOfParts path)
  return { pathNodeId, snapshotId, scopeId
           relativeDirectoryPath := pathOfParts path
           observedDirectoryEntry := builder.observedDirectoryEntry
           direct := builder.direct
           recursive := builder.direct + (children.map PathAggregateNode.recursive).sum }

/-- `_node_key` -/
def structureNodeKey (node : PathAggregateNode) : Result (Text ×ₗ List Byte) := do
  let bytes ← pathBytes node.relativeDirectoryPath
  return toLex (node.scopeId, bytes)

/-- `_scope_nodes` -/
def scopeNodes (snapshotId scopeId : Text) (entries : List FilesystemEntry) : Result (List PathAggregateNode) := do
  let values ← sortedByM entrySortKey entries
  let builders ← values.foldlM addStructureEntry [([], ⟨NodeBuilder.fresh, []⟩)]
  let resolved ← PathTree.resolve (.python .keyError) .stackOverflow orderChildren
    (aggregateNode F snapshotId scopeId) builders (PathTree.depth builders + 1) []
  sortedByM structureNodeKey (resolved.2.map Prod.snd)

end

/-! ## Coverage -/

def activeEntries (entries : List FilesystemEntry) : List FilesystemEntry := entries.filter fun e => !e.excluded

/-- `known_regular` -/
def knownRegular (entries : List FilesystemEntry) : List FilesystemEntry :=
  (activeEntries entries).filter fun e => (knownRegularSize e).isSome

/-- `unknown_regular` -/
def unknownRegular (entries : List FilesystemEntry) : List FilesystemEntry :=
  (activeEntries entries).filter fun e => e.objectType = .regularFile && (knownRegularSize e).isNone

/-- `metadata_failed` -/
def metadataFailed (entries : List FilesystemEntry) : List FilesystemEntry :=
  (activeEntries entries).filter fun e => e.observationStatus ≠ .observed

/-- `repeated`: the active regular files that share device and inode. -/
def repeatedHints (entries : List FilesystemEntry) : List (List FilesystemEntry) :=
  ((groupBy objectHint ((activeEntries entries).filter fun e => e.objectType = .regularFile && hasObjectHint e)).map
    Prod.snd).filter fun members => 2 ≤ members.length

/-- `overlap` -/
def overlappingHints (entries : List FilesystemEntry) : List (List FilesystemEntry) :=
  (repeatedHints entries).filter fun members => 2 ≤ (members.map FilesystemEntry.scopeId).dedup.length

/-- `unavailable_hints` -/
def unavailableHints (entries : List FilesystemEntry) : List FilesystemEntry :=
  (activeEntries entries).filter fun e => e.objectType = .regularFile && !hasObjectHint e

def structureCoverage (entries : List FilesystemEntry) : StructureCoverageSummary where
  totalEntryCount := entries.length
  regularFileEntryCount := (regularEntries entries).length
  knownSizeRegularFileCount := (knownRegular entries).length
  unknownSizeRegularFileCount := (unknownRegular entries).length
  knownLogicalBytes := ((knownRegular entries).map fun e => (knownRegularSize e).getD 0).sum
  directoryEntryCount := entries.countP fun e => e.objectType = .directory
  symlinkEntryCount := entries.countP fun e => e.objectType = .symlink
  specialObjectEntryCount := entries.countP isSpecial
  excludedEntryCount := entries.countP FilesystemEntry.excluded
  metadataFailedEntryCount := (metadataFailed entries).length
  scopeOverlapObjectHintCount := (overlappingHints entries).length
  repeatedKnownObjectHintPathCount := ((repeatedHints entries).map List.length).sum
  objectHintUnavailableEntryCount := (unavailableHints entries).length
  complete := unknownRegular entries = [] ∧ metadataFailed entries = []

/-- The key by which limitations are sorted. -/
def limitationSortKey (limitation : StructureLimitation) : Result (Text ×ₗ List ReferenceKey) := do
  let keys ← limitation.entries.mapM referenceSortKey
  return toLex (limitation.code, keys)

/-- `ordered_limitations` -/
def structureLimitations (entries : List FilesystemEntry) : Result (List StructureLimitation) := do
  let overlaps ← (overlappingHints entries).mapM fun members => do
    let references ← orderedReferences members
    return (⟨txt "SCOPE_OVERLAP_OBJECT_HINT", references⟩ : StructureLimitation)
  let unavailable ←
    if unavailableHints entries = [] then pure []
    else do
      let references ← orderedReferences (unavailableHints entries)
      pure [(⟨txt "OBJECT_HINT_UNAVAILABLE", references⟩ : StructureLimitation)]
  sortedByM limitationSortKey (overlaps ++ unavailable)

/-! ## The result -/

section
variable {F : Type}

/-- The six counters under the names a prefix gives them. -/
def nodeCountsData (kind : Text) (counts : NodeCounts) : List (Text × Value F) :=
  [(kind ++ txt "_regular_file_count", .int counts.regularFileCount),
    (kind ++ txt "_known_logical_bytes", .int counts.knownLogicalBytes),
    (kind ++ txt "_unknown_size_regular_count", .int counts.unknownSizeRegularCount),
    (kind ++ txt "_directory_count", .int counts.directoryCount),
    (kind ++ txt "_symlink_count", .int counts.symlinkCount),
    (kind ++ txt "_special_object_count", .int counts.specialObjectCount)]

/-- `_node_data` -/
def structureNodeData (node : PathAggregateNode) : Value F :=
  .dict ([(txt "path_node_id", .str node.pathNodeId), (txt "snapshot_id", .str node.snapshotId),
    (txt "scope_id", .str node.scopeId), (txt "relative_directory_path", .str node.relativeDirectoryPath),
    (txt "observed_directory_entry", .bool node.observedDirectoryEntry)] ++
    nodeCountsData (txt "direct") node.direct ++ nodeCountsData (txt "recursive") node.recursive)

/-- `_scope_data` -/
def scopeSummaryData (summary : ScopeStructureSummary) : Value F :=
  .dict ([(txt "snapshot_id", .str summary.snapshotId), (txt "scope_id", .str summary.scopeId),
    (txt "root_node_id", .str summary.rootNodeId)] ++ nodeCountsData (txt "recursive") summary.recursive)

/-- `_coverage_data` -/
def structureCoverageData (coverage : StructureCoverageSummary) : Value F :=
  .dict [(txt "total_entry_count", .int coverage.totalEntryCount),
    (txt "regular_file_entry_count", .int coverage.regularFileEntryCount),
    (txt "known_size_regular_file_count", .int coverage.knownSizeRegularFileCount),
    (txt "unknown_size_regular_file_count", .int coverage.unknownSizeRegularFileCount),
    (txt "known_logical_bytes", .int coverage.knownLogicalBytes),
    (txt "directory_entry_count", .int coverage.directoryEntryCount),
    (txt "symlink_entry_count", .int coverage.symlinkEntryCount),
    (txt "special_object_entry_count", .int coverage.specialObjectEntryCount),
    (txt "excluded_entry_count", .int coverage.excludedEntryCount),
    (txt "metadata_failed_entry_count", .int coverage.metadataFailedEntryCount),
    (txt "scope_overlap_object_hint_count", .int coverage.scopeOverlapObjectHintCount),
    (txt "repeated_known_object_hint_path_count", .int coverage.repeatedKnownObjectHintPathCount),
    (txt "object_hint_unavailable_entry_count", .int coverage.objectHintUnavailableEntryCount),
    (txt "complete", .bool coverage.complete)]

/-- `_limitation_data` -/
def limitationData (limitation : StructureLimitation) : Value F :=
  .dict [(txt "code", .str limitation.code), (txt "entries", referencesData limitation.entries)]

/-- `_physical_data` -/
def physicalBoundaryData (boundary : StructurePhysicalBoundary) : Value F :=
  .dict [(txt "allocation_status", .str (Named.name boundary.allocationStatus)),
    (txt "physical_block_sharing_status", .str (Named.name boundary.physicalBlockSharingStatus)),
    (txt "reclaimable_bytes", .none),
    (txt "reclaimable_status", .str (Named.name boundary.reclaimableStatus)),
    (txt "object_aware_capacity_status", .str (Named.name boundary.objectAwareCapacityStatus))]

/-- What `canonical_storage_structure` encodes. -/
def storageStructureData (result : StorageStructureResult) : Value F :=
  .dict [(txt "domain", .str (txt "local_steward.storage_structure.v1")),
    (txt "structure_schema_version", .int result.structureSchemaVersion), (txt "algorithm", .str result.algorithm),
    (txt "algorithm_version", .int result.algorithmVersion), (txt "snapshot_id", .str result.snapshotId),
    (txt "scope_summaries", .list (result.scopeSummaries.map scopeSummaryData)),
    (txt "path_nodes", .list (result.pathNodes.map structureNodeData)),
    (txt "coverage", structureCoverageData result.coverage),
    (txt "limitations", .list (result.limitations.map limitationData)),
    (txt "physical_boundary", physicalBoundaryData result.physicalBoundary)]

end

section
variable (F : Type) [SqliteFloat F]

/-- `_result` -/
def structureResult (snapshotId : Text) (summaries : List ScopeStructureSummary) (nodes : List PathAggregateNode)
    (coverage : StructureCoverageSummary) (limitations : List StructureLimitation) : Result StorageStructureResult := do
  let provisional : StorageStructureResult :=
    { structureSchemaVersion := 1, algorithm := txt "storage_structure", algorithmVersion := 1, snapshotId
      scopeSummaries := summaries, pathNodes := nodes, coverage, limitations
      physicalBoundary := ⟨.unknown, .unknown, .unknown, .unknown⟩, structureDigest := [] }
  let structureDigest ← digestOf (F := F) (storageStructureData provisional)
  return { provisional with structureDigest }

/-- The summary of a scope, from its root node. -/
def scopeSummary (snapshotId : Text) (nodes : List PathAggregateNode) (scopeId : Text) : Result ScopeStructureSummary :=
  match nodes.find? fun node => node.scopeId = scopeId ∧ node.relativeDirectoryPath = txt "." with
  | some root => .ok ⟨snapshotId, scopeId, root.pathNodeId, root.recursive⟩
  | none => .error (.python .keyError)

def computeSnapshotStructure (snapshot : FilesystemSnapshot) : Result StorageStructureResult := do
  validateEntries snapshot
  let scopes := sortedKeys snapshot.scopeIds
  let nodes ← scopes.mapM fun scopeId =>
    scopeNodes F snapshot.snapshotId scopeId (snapshot.entries.filter fun e => e.scopeId = scopeId)
  let summaries ← scopes.mapM (scopeSummary snapshot.snapshotId nodes.flatten)
  let coverage := structureCoverage snapshot.entries
  let limitations ← structureLimitations snapshot.entries
  if (summaries.map fun summary => summary.recursive.knownLogicalBytes).sum ≠ coverage.knownLogicalBytes then
    structureInvalid
  else structureResult F snapshot.snapshotId summaries nodes.flatten coverage limitations

end

end Steward
