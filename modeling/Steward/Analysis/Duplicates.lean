import Mathlib.Data.Finset.Card
import Steward.Analysis.Entry

/-!
# Duplicate payloads of a snapshot

`compute_snapshot_duplicate_analysis` of `duplicate_analysis.py`: regular files
grouped by payload, their hard-link alias sets, the storage units behind each
group, and what the observations contradict.
-/

namespace Steward

open Py Sqlite

/-- The only conclusion about physical storage: `UNKNOWN`. -/
inductive DuplicateStorageKnowledgeStatus where
  | unknown
  deriving DecidableEq, Repr

instance : Named DuplicateStorageKnowledgeStatus where
  all := [.unknown]
  name _ := txt "UNKNOWN"
  complete a := by cases a; decide
  nodup := by simp
  ascii := List.all_eq_true.2 (List.forall_mem_map.2 fun a _ => by cases a; exact all_txt (by decide))

structure HardLinkAliasSet where
  aliasSetId : Text
  deviceId : Int
  inode : Int
  memberEntries : List SnapshotEntryReference
  deriving DecidableEq

structure StorageUnit where
  deviceId : Option Int
  inode : Option Int
  memberEntries : List SnapshotEntryReference
  membershipKnown : Bool
  integrityConflicted : Bool
  logicalSizeBytes : Int
  allocatedSizeBytes : Option Int
  deriving DecidableEq

structure PayloadEqualityGroup where
  payloadGroupId : Text
  algorithm : Text
  algorithmVersion : Int
  digest : Text
  logicalSizeBytes : Int
  memberEntries : List SnapshotEntryReference
  aliasSetIds : List Text
  storageUnits : List StorageUnit
  knownStorageUnitCount : Nat
  unknownStorageUnitCount : Nat
  isExactDuplicate : Bool
  pathLogicalBytes : Int
  knownUnitLogicalBytes : Int
  logicalRedundantBytes : Option Int
  deriving DecidableEq

structure IntegrityConflict where
  code : Text
  entries : List SnapshotEntryReference
  deriving DecidableEq

structure PayloadUnknownReasonCount where
  code : Text
  count : Nat
  deriving DecidableEq

structure CoverageSummary where
  totalEntryCount : Nat
  totalRegularEntryCount : Nat
  payloadAnalyzableRegularEntryCount : Nat
  payloadUnknownRegularEntryCount : Nat
  analyzableLogicalBytes : Int
  unknownLogicalBytes : Int
  payloadStatusCounts : List PayloadUnknownReasonCount
  payloadUnknownReasonCounts : List PayloadUnknownReasonCount
  aliasPathCount : Nat
  knownStorageUnitCount : Nat
  unknownStorageUnitMembershipCount : Nat

structure PhysicalStorageSummary where
  allocatedSizeBytesKnownSum : Int
  allocatedSizeKnownUnitCount : Nat
  allocatedSizeUnknownUnitCount : Nat
  allocationStatus : DuplicateStorageKnowledgeStatus
  physicalBlockSharingStatus : DuplicateStorageKnowledgeStatus
  reclaimableStatus : DuplicateStorageKnowledgeStatus

structure DuplicateAnalysisResult where
  analysisSchemaVersion : Int
  algorithm : Text
  algorithmVersion : Int
  snapshotId : Text
  payloadEqualityGroups : List PayloadEqualityGroup
  hardLinkAliasSets : List HardLinkAliasSet
  coverage : CoverageSummary
  physicalStorage : PhysicalStorageSummary
  integrityConflicts : List IntegrityConflict
  analysisDigest : Text

/-! ## Classes of entries -/

/-- `PayloadKey`: algorithm, version, digest and size. -/
abbrev PayloadEqualityKey := Text ×ₗ Int ×ₗ Text ×ₗ Int

abbrev ObjectHint := Int ×ₗ Int

/-- `_object_hint` of an entry that has one. -/
def objectHint (e : FilesystemEntry) : ObjectHint := toLex (e.deviceId.getD 0, e.inode.getD 0)

/-- `_observed_regular` -/
def observedRegular (e : FilesystemEntry) : Bool :=
  e.objectType = .regularFile && e.observationStatus = .observed

def entryAllocatedSize (e : FilesystemEntry) : Option Int := e.v2.bind PayloadFacts.allocatedSizeBytes

/-- `_payload_key` -/
def payloadKey (reusedPayloadsVerified : Bool) (e : FilesystemEntry) : Option PayloadEqualityKey := do
  let facts ← e.v2
  if ¬ observedRegular e ∨ e.excluded then none
  let payload := facts.payloadObservation
  if ¬ payload.hashed then none
  let algorithm ← payload.algorithm
  let algorithmVersion ← payload.algorithmVersion
  if algorithm ≠ txt "sha256" ∨ algorithmVersion ≠ 1 then none
  let digest ← payload.digest
  if ¬ isSha256Digest digest then none
  let size ← e.sizeBytes
  if payload.bytesHashed ≠ some size then none
  if provenanceAccepted reusedPayloadsVerified payload then
    some (toLex (algorithm, toLex (algorithmVersion, toLex (digest, size))))
  else none

/-- `str.upper` of an ASCII text. -/
def asciiUpper (t : Text) : Text :=
  t.map fun c => if 97 ≤ c.val ∧ c.val ≤ 122 then ⟨c.val - 32, by omega⟩ else c

/-- `_unknown_reason` -/
def unknownReason (reusedPayloadsVerified : Bool) (e : FilesystemEntry) : Text :=
  match e.v2 with
  | none => txt "V1_PAYLOAD_UNAVAILABLE"
  | some facts =>
    let payload := facts.payloadObservation
    if e.excluded then txt "ENTRY_EXCLUDED"
    else if e.observationStatus ≠ .observed then
      txt "METADATA_" ++ asciiUpper (Named.name e.observationStatus)
    else if payload.hashed ∧ payload.provenance = some .reusedFromVerifiedSnapshot ∧
        ¬ reusedPayloadsVerified then txt "SOURCE_INVALID_REUSED"
    else match payload.failureCode with
      | some code => code
      | none => if payload.hashed then txt "MALFORMED_PAYLOAD_OBSERVATION" else Named.name payload.status

/-- The key of `payload_statuses`. -/
def payloadStatusCode (e : FilesystemEntry) : Text :=
  match e.v2 with
  | none => txt "V1_PAYLOAD_UNAVAILABLE"
  | some facts => Named.name facts.payloadObservation.status

def regularEntries (entries : List FilesystemEntry) : List FilesystemEntry :=
  entries.filter fun e => e.objectType = .regularFile

/-- `observed_regular` -/
def observedEntries (entries : List FilesystemEntry) : List FilesystemEntry :=
  (regularEntries entries).filter fun e => observedRegular e && !e.excluded

def analyzableEntries (reusedPayloadsVerified : Bool) (entries : List FilesystemEntry) : List FilesystemEntry :=
  (regularEntries entries).filter fun e => (payloadKey reusedPayloadsVerified e).isSome

def unknownEntries (reusedPayloadsVerified : Bool) (entries : List FilesystemEntry) : List FilesystemEntry :=
  (regularEntries entries).filter fun e => (payloadKey reusedPayloadsVerified e).isNone

/-- `sorted(Counter(codes).items())` -/
def sortedCounts (codes : List Text) : List PayloadUnknownReasonCount :=
  (sortedKeys codes).map fun code => ⟨code, codes.count code⟩

/-- `sum(entry.size_bytes or 0 for entry in entries)` -/
def logicalBytes (entries : List FilesystemEntry) : Int := (entries.map fun e => e.sizeBytes.getD 0).sum

/-! ## Contents -/

/-- A number that may be missing. -/
def optionalInt {F : Type} : Option Int → Value F
  | some n => .int n
  | none => .none

section
variable {F : Type}

/-- `_alias_content` -/
def aliasContent (deviceId inode : Int) (members : List SnapshotEntryReference) : List (Text × Value F) :=
  [(txt "device_id", .int deviceId), (txt "inode", .int inode), (txt "member_entries", referencesData members)]

/-- `_storage_unit_data` -/
def storageUnitData (unit : StorageUnit) : Value F :=
  .dict [(txt "device_id", optionalInt unit.deviceId), (txt "inode", optionalInt unit.inode),
    (txt "member_entries", referencesData unit.memberEntries),
    (txt "membership_known", .bool unit.membershipKnown),
    (txt "integrity_conflicted", .bool unit.integrityConflicted),
    (txt "logical_size_bytes", .int unit.logicalSizeBytes),
    (txt "allocated_size_bytes", optionalInt unit.allocatedSizeBytes)]

/-- `_group_content` -/
def payloadGroupContent (group : PayloadEqualityGroup) : List (Text × Value F) :=
  [(txt "algorithm", .str group.algorithm), (txt "algorithm_version", .int group.algorithmVersion),
    (txt "digest", .str group.digest), (txt "logical_size_bytes", .int group.logicalSizeBytes),
    (txt "member_entries", referencesData group.memberEntries),
    (txt "alias_set_ids", .list (group.aliasSetIds.map .str)),
    (txt "storage_units", .list (group.storageUnits.map storageUnitData)),
    (txt "known_storage_unit_count", .int group.knownStorageUnitCount),
    (txt "unknown_storage_unit_count", .int group.unknownStorageUnitCount),
    (txt "is_exact_duplicate", .bool group.isExactDuplicate),
    (txt "path_logical_bytes", .int group.pathLogicalBytes),
    (txt "known_unit_logical_bytes", .int group.knownUnitLogicalBytes),
    (txt "logical_redundant_bytes", optionalInt group.logicalRedundantBytes)]

/-- `_conflict_data` -/
def conflictData (conflict : IntegrityConflict) : Value F :=
  .dict [(txt "code", .str conflict.code), (txt "entries", referencesData conflict.entries)]

def countsData (counts : List PayloadUnknownReasonCount) : Value F :=
  .list (counts.map fun item => .dict [(txt "code", .str item.code), (txt "count", .int item.count)])

/-- `_coverage_data` -/
def coverageData (coverage : CoverageSummary) : Value F :=
  .dict [(txt "total_entry_count", .int coverage.totalEntryCount),
    (txt "total_regular_entry_count", .int coverage.totalRegularEntryCount),
    (txt "payload_analyzable_regular_entry_count", .int coverage.payloadAnalyzableRegularEntryCount),
    (txt "payload_unknown_regular_entry_count", .int coverage.payloadUnknownRegularEntryCount),
    (txt "analyzable_logical_bytes", .int coverage.analyzableLogicalBytes),
    (txt "unknown_logical_bytes", .int coverage.unknownLogicalBytes),
    (txt "payload_status_counts", countsData coverage.payloadStatusCounts),
    (txt "payload_unknown_reason_counts", countsData coverage.payloadUnknownReasonCounts),
    (txt "alias_path_count", .int coverage.aliasPathCount),
    (txt "known_storage_unit_count", .int coverage.knownStorageUnitCount),
    (txt "unknown_storage_unit_membership_count", .int coverage.unknownStorageUnitMembershipCount)]

/-- `_physical_data` -/
def physicalData (physical : PhysicalStorageSummary) : Value F :=
  .dict [(txt "allocated_size_bytes_known_sum", .int physical.allocatedSizeBytesKnownSum),
    (txt "allocated_size_known_unit_count", .int physical.allocatedSizeKnownUnitCount),
    (txt "allocated_size_unknown_unit_count", .int physical.allocatedSizeUnknownUnitCount),
    (txt "allocation_status", .str (Named.name physical.allocationStatus)),
    (txt "physical_block_sharing_status", .str (Named.name physical.physicalBlockSharingStatus)),
    (txt "reclaimable_bytes", .none),
    (txt "reclaimable_status", .str (Named.name physical.reclaimableStatus))]

/-- Complete canonical content, without the derived result digest. -/
def analysisContent (result : DuplicateAnalysisResult) : Value F :=
  .dict [(txt "domain", .str (txt "local_steward.exact_payload_duplicate_storage.v1")),
    (txt "analysis_schema_version", .int result.analysisSchemaVersion),
    (txt "algorithm", .str result.algorithm), (txt "algorithm_version", .int result.algorithmVersion),
    (txt "snapshot_id", .str result.snapshotId),
    (txt "payload_equality_groups", .list (result.payloadEqualityGroups.map fun group =>
      .dict ((txt "payload_group_id", .str group.payloadGroupId) :: payloadGroupContent group))),
    (txt "hard_link_alias_sets", .list (result.hardLinkAliasSets.map fun set =>
      .dict ((txt "alias_set_id", .str set.aliasSetId) ::
        aliasContent set.deviceId set.inode set.memberEntries))),
    (txt "coverage", coverageData result.coverage),
    (txt "physical_storage", physicalData result.physicalStorage),
    (txt "integrity_conflicts", .list (result.integrityConflicts.map conflictData))]

end

variable (F : Type) [SqliteFloat F]

/-- `canonical_duplicate_analysis` -/
def canonicalDuplicateAnalysis (result : DuplicateAnalysisResult) : Result Text :=
  canonicalJson (F := F) (analysisContent result)

/-! ## Sort keys -/

/-- `_conflict_sort_key` -/
def conflictSortKey (conflict : IntegrityConflict) : Result (Text ×ₗ List ReferenceKey) := do
  let entries ← conflict.entries.mapM referenceSortKey
  pure (toLex (conflict.code, entries))

/-- `_group_sort_key` -/
def payloadGroupSortKey (group : PayloadEqualityGroup) :
    Result (Text ×ₗ Int ×ₗ Text ×ₗ Int ×ₗ List ReferenceKey) := do
  let members ← group.memberEntries.mapM referenceSortKey
  pure (toLex (group.algorithm, toLex (group.algorithmVersion, toLex (group.digest,
    toLex (group.logicalSizeBytes, members)))))

/-- The key of `sorted(aliases, …)`. -/
def aliasSortKey (set : HardLinkAliasSet) : Result (Int ×ₗ Int ×ₗ List ReferenceKey) := do
  let members ← set.memberEntries.mapM referenceSortKey
  pure (toLex (set.deviceId, toLex (set.inode, members)))

/-- The key of `units.sort(…)`. -/
def unitSortKey (unit : StorageUnit) : Result (Bool ×ₗ Int ×ₗ Int ×ₗ List ReferenceKey) := do
  let members ← unit.memberEntries.mapM referenceSortKey
  pure (toLex (!unit.membershipKnown, toLex (unit.deviceId.getD (-1), toLex (unit.inode.getD (-1), members))))

/-! ## Alias sets -/

/-- Members that share a known hint, hint by hint. -/
def sortedHints (entries : List FilesystemEntry) : List (ObjectHint × List FilesystemEntry) :=
  sortedGroups objectHint (entries.filter hasObjectHint)

/-- `_alias_set` -/
def aliasSet (hint : ObjectHint) (entries : List FilesystemEntry) : Result HardLinkAliasSet := do
  let members ← orderedReferences entries
  let aliasSetId ← digestOf (F := F) (.dict (aliasContent (ofLex hint).1 (ofLex hint).2 members))
  pure ⟨aliasSetId, (ofLex hint).1, (ofLex hint).2, members⟩

/-- The hints of two or more observed regular files. -/
def aliasedHints (entries : List FilesystemEntry) : List (ObjectHint × List FilesystemEntry) :=
  (sortedHints (observedEntries entries)).filter fun g => 2 ≤ g.2.length

def aliasSets (entries : List FilesystemEntry) : Result (List HardLinkAliasSet) :=
  (aliasedHints entries).mapM fun g => aliasSet F g.1 g.2

/-- `aliases_by_hint.get(hint)` -/
def aliasByHint (aliases : List HardLinkAliasSet) (hint : ObjectHint) : Option HardLinkAliasSet :=
  aliases.find? fun set => toLex (set.deviceId, set.inode) = hint

/-! ## Conflicts -/

/-- `len({…}) > 1` -/
def severalValues {α : Type} [DecidableEq α] (values : List α) : Bool := 1 < values.toFinset.card

/-- The codes of the contradictions among the members of one hint. -/
def hintConflictCodes (reusedPayloadsVerified : Bool) (members : List FilesystemEntry) : List Text :=
  [(severalValues (members.filterMap (payloadKey reusedPayloadsVerified)), txt "OBJECT_HINT_PAYLOAD_CONFLICT"),
    (severalValues (members.filterMap FilesystemEntry.sizeBytes), txt "OBJECT_HINT_SIZE_CONFLICT"),
    ((members.filterMap FilesystemEntry.linkCount).any (fun count => count < members.length),
      txt "LINK_COUNT_CONFLICT"),
    (severalValues (members.filterMap entryAllocatedSize), txt "ALLOCATED_SIZE_CONFLICT")].filterMap
    fun test => if test.1 then some test.2 else none

def hintConflicts (reusedPayloadsVerified : Bool) (g : ObjectHint × List FilesystemEntry) :
    Result (List IntegrityConflict) := do
  let references ← orderedReferences g.2
  pure ((hintConflictCodes reusedPayloadsVerified g.2).map fun code => ⟨code, references⟩)

def conflictedHints (reusedPayloadsVerified : Bool) (entries : List FilesystemEntry) : List ObjectHint :=
  ((aliasedHints entries).filter fun g => !(hintConflictCodes reusedPayloadsVerified g.2).isEmpty).map Prod.fst

/-- The key of an analyzable entry. -/
def knownKey (reusedPayloadsVerified : Bool) (e : FilesystemEntry) : PayloadEqualityKey :=
  (payloadKey reusedPayloadsVerified e).getD (toLex ([], toLex (0, toLex ([], 0))))

/-- `key[:3]` -/
def PayloadEqualityKey.digestKey (key : PayloadEqualityKey) : Text ×ₗ Int ×ₗ Text :=
  let (algorithm, rest) := ofLex key
  let (version, rest) := ofLex rest
  toLex (algorithm, toLex (version, (ofLex rest).1))

/-- `key[3]` -/
def PayloadEqualityKey.size (key : PayloadEqualityKey) : Int := (ofLex (ofLex (ofLex key).2).2).2

/-- The digests that come with more than one size. -/
def sizeConflicts (reusedPayloadsVerified : Bool) (entries : List FilesystemEntry) :
    List ((Text ×ₗ Int ×ₗ Text) × List FilesystemEntry) :=
  (sortedGroups (fun e => (knownKey reusedPayloadsVerified e).digestKey)
    (analyzableEntries reusedPayloadsVerified entries)).filter fun g =>
      severalValues (g.2.map fun e => (knownKey reusedPayloadsVerified e).size)

def sizeConflict (members : List FilesystemEntry) : Result IntegrityConflict := do
  let references ← orderedReferences members
  pure ⟨txt "PAYLOAD_SIZE_CONFLICT", references⟩

/-! ## Groups -/

/-- The groups of two or more payloads of one key, free of size conflicts. -/
def equalPayloads (reusedPayloadsVerified : Bool) (entries : List FilesystemEntry)
    (sizeConflictEntries : List SnapshotEntryReference) : List (PayloadEqualityKey × List FilesystemEntry) :=
  (sortedGroups (knownKey reusedPayloadsVerified)
    ((analyzableEntries reusedPayloadsVerified entries).filter fun e => reference e ∉ sizeConflictEntries)).filter
      fun g => 2 ≤ g.2.length

/-- `next(iter(values)) if len(values) == 1 else None` -/
def singleValue (values : List Int) : Option Int :=
  match values.dedup with
  | [value] => some value
  | _ => none

/-- The unit of the members of one hint. -/
def knownUnit (aliases : List HardLinkAliasSet) (conflicted : List ObjectHint) (logicalSize : Int)
    (hint : ObjectHint) (unitMembers : List FilesystemEntry) : Result StorageUnit := do
  let unitReferences ← match aliasByHint aliases hint with
    | some set => .ok set.memberEntries
    | none => orderedReferences unitMembers
  let allocation := if unitMembers.length = unitReferences.length then
    singleValue (unitMembers.filterMap entryAllocatedSize) else none
  pure ⟨some (ofLex hint).1, some (ofLex hint).2, unitReferences, true, hint ∈ conflicted, logicalSize, allocation⟩

/-- The unit of a member without device or inode. -/
def unknownUnit (logicalSize : Int) (member : FilesystemEntry) : StorageUnit :=
  ⟨none, none, [reference member], false, false, logicalSize, none⟩

/-- `sorted(…, key=lambda item: _reference_key(_reference(item)))` -/
def sortMembers (members : List FilesystemEntry) : Result (List FilesystemEntry) :=
  sortedByM (fun e => referenceSortKey (reference e)) members

/-- `units`, sorted -/
def storageUnits (aliases : List HardLinkAliasSet) (conflicted : List ObjectHint) (logicalSize : Int)
    (members : List FilesystemEntry) : Result (List StorageUnit) := do
  let known ← (sortedHints members).mapM fun g => knownUnit aliases conflicted logicalSize g.1 g.2
  let unknownMembers ← sortMembers (members.filter fun e => !hasObjectHint e)
  sortedByM unitSortKey (known ++ unknownMembers.map (unknownUnit logicalSize))

/-- `known_units` -/
def conflictFreeUnits (units : List StorageUnit) : List StorageUnit :=
  units.filter fun unit => unit.membershipKnown && !unit.integrityConflicted

/-- `alias_set_ids` -/
def aliasSetIds (aliases : List HardLinkAliasSet) (members : List FilesystemEntry) : List Text :=
  sortedKeys ((sortedHints members).filterMap fun g => (aliasByHint aliases g.1).map HardLinkAliasSet.aliasSetId)

/-- `PayloadEqualityGroup` without its identifier. -/
def groupWithoutId (aliases : List HardLinkAliasSet) (key : PayloadEqualityKey) (members : List FilesystemEntry)
    (memberEntries : List SnapshotEntryReference) (units : List StorageUnit) : PayloadEqualityGroup where
  payloadGroupId := []
  algorithm := (ofLex key).1
  algorithmVersion := (ofLex (ofLex key).2).1
  digest := (ofLex (ofLex (ofLex key).2).2).1
  logicalSizeBytes := key.size
  memberEntries
  aliasSetIds := aliasSetIds aliases members
  storageUnits := units
  knownStorageUnitCount := (conflictFreeUnits units).length
  unknownStorageUnitCount := units.countP fun unit => !unit.membershipKnown
  isExactDuplicate := 2 ≤ (conflictFreeUnits units).length
  pathLogicalBytes := key.size * members.length
  knownUnitLogicalBytes := key.size * (conflictFreeUnits units).length
  logicalRedundantBytes :=
    if 2 ≤ (conflictFreeUnits units).length ∧ (units.countP fun unit => !unit.membershipKnown) = 0 ∧
        ¬ units.any StorageUnit.integrityConflicted then
      some (key.size * ((conflictFreeUnits units).length - 1))
    else none

/-- One turn of the loop over `by_payload`. -/
def payloadGroup (aliases : List HardLinkAliasSet) (conflicted : List ObjectHint) (key : PayloadEqualityKey)
    (entries : List FilesystemEntry) : Result PayloadEqualityGroup := do
  let members ← sortMembers entries
  let units ← storageUnits aliases conflicted key.size members
  let memberEntries ← orderedReferences members
  let group := groupWithoutId aliases key members memberEntries units
  let payloadGroupId ← digestOf (F := F) (.dict (payloadGroupContent group))
  pure { group with payloadGroupId }

/-! ## Coverage -/

/-- The allocation of one unit, where it is known. -/
def unitAllocation (conflicted : List ObjectHint) (g : ObjectHint × List FilesystemEntry) : Option Int :=
  if g.1 ∈ conflicted then none
  else if (g.2.filterMap entryAllocatedSize).dedup.length = g.2.length then singleValue (g.2.filterMap entryAllocatedSize)
  else none

/-- `unit_allocations`: the units of known hints, then the members without one. -/
def unitAllocations (conflicted : List ObjectHint) (observed : List FilesystemEntry) : List (Option Int) :=
  (groupBy objectHint (observed.filter hasObjectHint)).map (unitAllocation conflicted) ++
    List.replicate (observed.countP fun e => !hasObjectHint e) none

def coverageSummary (reusedPayloadsVerified : Bool) (entries : List FilesystemEntry)
    (aliases : List HardLinkAliasSet) : CoverageSummary :=
  let regular := regularEntries entries
  let analyzable := analyzableEntries reusedPayloadsVerified entries
  let unknown := unknownEntries reusedPayloadsVerified entries
  let observed := observedEntries entries
  { totalEntryCount := entries.length
    totalRegularEntryCount := regular.length
    payloadAnalyzableRegularEntryCount := analyzable.length
    payloadUnknownRegularEntryCount := regular.length - analyzable.length
    analyzableLogicalBytes := logicalBytes analyzable
    unknownLogicalBytes := logicalBytes unknown
    payloadStatusCounts := sortedCounts (regular.map payloadStatusCode)
    payloadUnknownReasonCounts := sortedCounts (unknown.map (unknownReason reusedPayloadsVerified))
    aliasPathCount := (aliases.map fun set => set.memberEntries.length).sum
    knownStorageUnitCount := (groupBy objectHint (observed.filter hasObjectHint)).length
    unknownStorageUnitMembershipCount := observed.countP fun e => !hasObjectHint e }

def physicalStorageSummary (allocations : List (Option Int)) : PhysicalStorageSummary where
  allocatedSizeBytesKnownSum := (allocations.filterMap id).sum
  allocatedSizeKnownUnitCount := allocations.countP Option.isSome
  allocatedSizeUnknownUnitCount := allocations.countP Option.isNone
  allocationStatus := .unknown
  physicalBlockSharingStatus := .unknown
  reclaimableStatus := .unknown

/-! ## The analysis -/

/-- `_analysis_result` -/
def analysisResult (snapshotId : Text) (groups : List PayloadEqualityGroup) (aliases : List HardLinkAliasSet)
    (coverage : CoverageSummary) (physical : PhysicalStorageSummary) (conflicts : List IntegrityConflict) :
    Result DuplicateAnalysisResult := do
  let orderedGroups ← sortedByM payloadGroupSortKey groups
  let orderedAliases ← sortedByM aliasSortKey aliases
  let orderedConflicts ← sortedByM conflictSortKey conflicts
  let provisional : DuplicateAnalysisResult := ⟨1, txt "exact_payload_duplicate_storage", 1, snapshotId,
    orderedGroups, orderedAliases, coverage, physical, orderedConflicts, []⟩
  let bytes ← canonicalDuplicateAnalysis F provisional
  pure { provisional with analysisDigest := Runtime.sha256 F (Text.utf8 bytes) }

/-- Compute one in-memory analysis from an already validated Snapshot fact. -/
def computeSnapshotDuplicateAnalysis (snapshot : FilesystemSnapshot) (reusedPayloadsVerified : Bool) :
    Result DuplicateAnalysisResult := do
  let entries ← locatedEntries .duplicateAnalysisError snapshot.snapshotId snapshot.entries
  let aliases ← aliasSets F entries
  let conflicted := conflictedHints reusedPayloadsVerified entries
  let byHint ← (aliasedHints entries).mapM (hintConflicts reusedPayloadsVerified)
  let bySize ← (sizeConflicts reusedPayloadsVerified entries).mapM fun g => sizeConflict g.2
  let groups ← (equalPayloads reusedPayloadsVerified entries (bySize.flatMap IntegrityConflict.entries)).mapM
    fun g => payloadGroup F aliases conflicted g.1 g.2
  let coverage := coverageSummary reusedPayloadsVerified entries aliases
  let physical := physicalStorageSummary (unitAllocations conflicted (observedEntries entries))
  analysisResult F snapshot.snapshotId groups aliases coverage physical (byHint.flatten ++ bySize)

end Steward
