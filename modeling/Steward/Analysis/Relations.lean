import Mathlib.Data.Finset.Card
import Steward.Analysis.Entry

/-!
# Relations between two snapshots

`compute_snapshot_relations` of `snapshot_relations.py`: one relation for each
location both snapshots hold, and, for adjacent snapshots, candidates and
ambiguity groups among the regular files whose locations only one of them holds.
-/

namespace Steward

open Py Sqlite

inductive RelationCertainty where
  | fact | candidate | ambiguous | unknown
  deriving DecidableEq, Repr

instance : Named RelationCertainty where
  all := [.fact, .candidate, .ambiguous, .unknown]
  name
    | .fact => txt "FACT"
    | .candidate => txt "CANDIDATE"
    | .ambiguous => txt "AMBIGUOUS"
    | .unknown => txt "UNKNOWN"

inductive RelationKind where
  | sameLocationContinuity | sameLocationMetadataChanged | sameLocationContentChanged
  | sameLocationContentUnknown | sameLocationObjectHintChanged | sameLocationTypeChanged
  | sameLocationSymlinkTargetChanged | renameCandidate | crossScopeTransitionCandidate
  | ambiguousLocationTransition
  deriving DecidableEq, Repr

instance : Named RelationKind where
  all := [.sameLocationContinuity, .sameLocationMetadataChanged, .sameLocationContentChanged,
    .sameLocationContentUnknown, .sameLocationObjectHintChanged, .sameLocationTypeChanged,
    .sameLocationSymlinkTargetChanged, .renameCandidate, .crossScopeTransitionCandidate,
    .ambiguousLocationTransition]
  name
    | .sameLocationContinuity => txt "SAME_LOCATION_CONTINUITY"
    | .sameLocationMetadataChanged => txt "SAME_LOCATION_METADATA_CHANGED"
    | .sameLocationContentChanged => txt "SAME_LOCATION_CONTENT_CHANGED"
    | .sameLocationContentUnknown => txt "SAME_LOCATION_CONTENT_UNKNOWN"
    | .sameLocationObjectHintChanged => txt "SAME_LOCATION_OBJECT_HINT_CHANGED"
    | .sameLocationTypeChanged => txt "SAME_LOCATION_TYPE_CHANGED"
    | .sameLocationSymlinkTargetChanged => txt "SAME_LOCATION_SYMLINK_TARGET_CHANGED"
    | .renameCandidate => txt "RENAME_CANDIDATE"
    | .crossScopeTransitionCandidate => txt "CROSS_SCOPE_TRANSITION_CANDIDATE"
    | .ambiguousLocationTransition => txt "AMBIGUOUS_LOCATION_TRANSITION"

structure RelationItem where
  relationId : Text
  kind : RelationKind
  certainty : RelationCertainty
  reasonCodes : List Text
  ambiguityGroupId : Option Text
  sourceEntries : List SnapshotEntryReference
  targetEntries : List SnapshotEntryReference
  deriving DecidableEq

structure RelationAmbiguityGroup where
  ambiguityGroupId : Text
  sourceEntries : List SnapshotEntryReference
  targetEntries : List SnapshotEntryReference
  deriving DecidableEq

structure RelationSet where
  relationSchemaVersion : Int
  algorithm : Text
  algorithmVersion : Int
  baseSnapshotId : Text
  targetSnapshotId : Text
  relations : List RelationItem
  ambiguityGroups : List RelationAmbiguityGroup
  relationDigest : Text

/-! ## Contents and identifiers -/

/-- A text that may be missing. -/
def optionalText {F : Type} : Option Text → Value F
  | some t => .str t
  | none => .none

section
variable {F : Type}

/-- `_item_content` -/
def itemContent (kind : RelationKind) (certainty : RelationCertainty) (reasonCodes : List Text)
    (ambiguityGroupId : Option Text) (sourceEntries targetEntries : List SnapshotEntryReference) :
    List (Text × Value F) :=
  [(txt "kind", .str (Named.name kind)), (txt "certainty", .str (Named.name certainty)),
    (txt "reason_codes", .list (reasonCodes.map .str)),
    (txt "ambiguity_group_id", optionalText ambiguityGroupId),
    (txt "source_entries", referencesData sourceEntries),
    (txt "target_entries", referencesData targetEntries)]

def groupContent (sourceEntries targetEntries : List SnapshotEntryReference) : List (Text × Value F) :=
  [(txt "source_entries", referencesData sourceEntries), (txt "target_entries", referencesData targetEntries)]

end

variable (F : Type) [SqliteFloat F]

/-- `_ambiguity_group_id` -/
def ambiguityGroupId (sourceEntries targetEntries : List SnapshotEntryReference) : Result Text :=
  digestOf (F := F) (.dict (groupContent sourceEntries targetEntries))

/-- `_relation_item` -/
def relationItem (kind : RelationKind) (certainty : RelationCertainty)
    (sourceEntries targetEntries : List SnapshotEntryReference) (ambiguityGroupId : Option Text) :
    Result RelationItem := do
  let reasonCodes := [Named.name kind]
  let content := itemContent kind certainty reasonCodes ambiguityGroupId sourceEntries targetEntries
  let relationId ← digestOf (F := F) (.dict content)
  pure ⟨relationId, kind, certainty, reasonCodes, ambiguityGroupId, sourceEntries, targetEntries⟩

abbrev ItemKey := Text ×ₗ Text ×ₗ List ReferenceKey ×ₗ List ReferenceKey ×ₗ Text

/-- `_item_sort_key` -/
def itemSortKey (item : RelationItem) : Result ItemKey := do
  let sources ← item.sourceEntries.mapM referenceSortKey
  let targets ← item.targetEntries.mapM referenceSortKey
  pure (toLex (Named.name item.kind, toLex (Named.name item.certainty,
    toLex (sources, toLex (targets, item.ambiguityGroupId.getD [])))))

/-- The key of `sorted(groups, …)`. -/
def groupSortKey (group : RelationAmbiguityGroup) :
    Result (List ReferenceKey ×ₗ List ReferenceKey ×ₗ Text) := do
  let sources ← group.sourceEntries.mapM referenceSortKey
  let targets ← group.targetEntries.mapM referenceSortKey
  pure (toLex (sources, toLex (targets, group.ambiguityGroupId)))

/-- Return the frozen canonical bytes excluding the derived set digest. -/
def relationSetContent (set : RelationSet) : Value F :=
  .dict [(txt "domain", .str (txt "local_steward.cross_snapshot_relation.v1")),
    (txt "relation_schema_version", .int set.relationSchemaVersion),
    (txt "algorithm", .str set.algorithm), (txt "algorithm_version", .int set.algorithmVersion),
    (txt "base_snapshot_id", .str set.baseSnapshotId),
    (txt "target_snapshot_id", .str set.targetSnapshotId),
    (txt "relations", .list (set.relations.map fun item =>
      .dict ((txt "relation_id", .str item.relationId) :: itemContent item.kind item.certainty
        item.reasonCodes item.ambiguityGroupId item.sourceEntries item.targetEntries))),
    (txt "ambiguity_groups", .list (set.ambiguityGroups.map fun group =>
      .dict ((txt "ambiguity_group_id", .str group.ambiguityGroupId) ::
        groupContent group.sourceEntries group.targetEntries)))]

/-- `canonical_relation_set` -/
def canonicalRelationSet (set : RelationSet) : Result Text := canonicalJson (relationSetContent F set)

/-- `_relation_set` -/
def relationSet (baseSnapshotId targetSnapshotId : Text) (relations : List RelationItem)
    (groups : List RelationAmbiguityGroup) : Result RelationSet := do
  let orderedRelations ← sortedByM itemSortKey relations
  let orderedGroups ← sortedByM groupSortKey groups
  let provisional : RelationSet := ⟨1, txt "cross_snapshot_relation", 1, baseSnapshotId, targetSnapshotId,
    orderedRelations, orderedGroups, []⟩
  let bytes ← canonicalRelationSet F provisional
  pure { provisional with relationDigest := Runtime.sha256 F (Text.utf8 bytes) }

/-! ## Locations -/

/-- `_entries_by_location`: the values of the dictionary. -/
def entriesByLocation (snapshotId : Text) (entries : List FilesystemEntry) : Result (List FilesystemEntry) :=
  locatedEntries .relationError snapshotId entries

/-- `(base[location], target[location])` for every location of both. -/
def commonEntries (base target : List FilesystemEntry) : List (FilesystemEntry × FilesystemEntry) :=
  base.filterMap fun b => (target.find? fun t => t.location = b.location).map fun t => (b, t)

/-- The entries whose location the other snapshot does not hold. -/
def exclusiveEntries (entries other : List FilesystemEntry) : List FilesystemEntry :=
  entries.filter fun e => !other.any fun o => o.location = e.location

/-! ## Payloads and hints -/

/-- `_successful_payload_digest` -/
def successfulPayloadDigest (reusedPayloadsVerified : Bool) (entry : FilesystemEntry) : Option Text := do
  let facts ← entry.v2
  let payload := facts.payloadObservation
  if ¬ payload.hashed then none
  if payload.algorithm ≠ some (txt "sha256") ∨ payload.algorithmVersion ≠ some 1 then none
  let digest ← payload.digest
  if ¬ isSha256Digest digest then none
  if payload.bytesHashed ≠ entry.sizeBytes then none
  if provenanceAccepted reusedPayloadsVerified payload then some digest else none

/-- `_object_hint_equal` -/
def objectHintEqual (base target : FilesystemEntry) : Bool :=
  if base.deviceId.isNone || base.inode.isNone || target.deviceId.isNone || target.inode.isNone then false
  else if base.deviceId ≠ target.deviceId ∨ base.inode ≠ target.inode then false
  else !(base.birthtimeNs.isSome && target.birthtimeNs.isSome &&
    base.birthtimeNs ≠ target.birthtimeNs)

/-- `_metadata_changed` -/
def metadataChanged (base target : FilesystemEntry) : Bool :=
  base.mode ≠ target.mode || base.uid ≠ target.uid || base.gid ≠ target.gid ||
  base.sizeBytes ≠ target.sizeBytes || base.mtimeNs ≠ target.mtimeNs || base.ctimeNs ≠ target.ctimeNs ||
  base.linkCount ≠ target.linkCount || base.readable ≠ target.readable ||
  base.writable ≠ target.writable || base.executable ≠ target.executable ||
  base.observationStatus ≠ target.observationStatus || base.errorCode ≠ target.errorCode ||
  base.errorMessage ≠ target.errorMessage || base.excluded ≠ target.excluded

/-! ## One location -/

/-- The kind and the certainty `_same_location_relation` finds, if it finds any. -/
def sameLocationKind (reusedPayloadsVerified : Bool) (base target : FilesystemEntry) :
    Option (RelationKind × RelationCertainty) :=
  if base.observationStatus ≠ .observed ∨ target.observationStatus ≠ .observed then none
  else if base.objectType ≠ target.objectType then some (.sameLocationTypeChanged, .fact)
  else if base.objectType = .symlink ∧ base.symlinkTargetRaw ≠ target.symlinkTargetRaw then
    some (.sameLocationSymlinkTargetChanged, .fact)
  else if base.objectType = .regularFile ∧ ¬ objectHintEqual base target then
    some (.sameLocationObjectHintChanged, .fact)
  else
    let basePayload := successfulPayloadDigest reusedPayloadsVerified base
    let targetPayload := successfulPayloadDigest reusedPayloadsVerified target
    if base.objectType = .regularFile ∧ (basePayload.isNone ∨ targetPayload.isNone) then
      some (.sameLocationContentUnknown, .unknown)
    else if base.objectType = .regularFile ∧ basePayload ≠ targetPayload then
      some (.sameLocationContentChanged, .fact)
    else if metadataChanged base target then some (.sameLocationMetadataChanged, .fact)
    else some (.sameLocationContinuity, .fact)

/-- `_same_location_relation` -/
def sameLocationRelation (reusedPayloadsVerified : Bool) (base target : FilesystemEntry) :
    Result (Option RelationItem) :=
  match sameLocationKind reusedPayloadsVerified base target with
  | none => .ok none
  | some (kind, certainty) => some <$> relationItem F kind certainty [reference base] [reference target] none

/-! ## Transitions -/

/-- `_transition_eligible` -/
def transitionEligible (e : FilesystemEntry) : Bool :=
  e.objectType = .regularFile && e.observationStatus = .observed && !e.excluded &&
  e.deviceId.isSome && e.inode.isSome && e.birthtimeNs.isSome

abbrev TransitionKey := Int ×ₗ Int ×ₗ Int

/-- `_transition_key`; its assertions hold of eligible entries. -/
def transitionKey (e : FilesystemEntry) : TransitionKey :=
  toLex (e.deviceId.getD 0, toLex (e.inode.getD 0, e.birthtimeNs.getD 0))

/-- `(entry.device_id, entry.inode)` of an entry that has both. -/
def aliasKey (e : FilesystemEntry) : Int × Int := (e.deviceId.getD 0, e.inode.getD 0)

/-- `(hint[0], hint[1])` -/
def TransitionKey.aliasKey (hint : TransitionKey) : Int × Int :=
  ((ofLex hint).1, (ofLex (ofLex hint).2).1)

/-- `base_by_hint`, `target_by_hint` -/
def byHint (entries : List FilesystemEntry) : List (TransitionKey × List FilesystemEntry) :=
  groupBy transitionKey (entries.filter transitionEligible)

/-- `base_aliases`, `target_aliases` -/
def aliasesOf (entries : List FilesystemEntry) : List ((Int × Int) × List FilesystemEntry) :=
  groupBy Steward.aliasKey (entries.filter hasObjectHint)

/-- The four collections one transition is read from. -/
structure TransitionInput where
  baseEntries : List FilesystemEntry
  targetEntries : List FilesystemEntry
  baseSnapshotEntries : List FilesystemEntry
  targetSnapshotEntries : List FilesystemEntry

/-- `{_successful_payload_digest(item) for item in items}` -/
def payloadDigests (reusedPayloadsVerified : Bool) (entries : List FilesystemEntry) : Finset (Option Text) :=
  (entries.map (successfulPayloadDigest reusedPayloadsVerified)).toFinset

/-- `_ordered_references(entries) if aliases else references` -/
def component (aliases : Prop) [Decidable aliases] (entries : List FilesystemEntry)
    (references : List SnapshotEntryReference) : Result (List SnapshotEntryReference) :=
  if aliases then orderedReferences entries else .ok references

/-- The relation and the group of a component. -/
def ambiguousTransition (componentSources componentTargets : List SnapshotEntryReference) :
    Result (Option (RelationItem × Option RelationAmbiguityGroup)) := do
  let groupId ← ambiguityGroupId F componentSources componentTargets
  let item ← relationItem F .ambiguousLocationTransition .ambiguous componentSources componentTargets
    (some groupId)
  pure (some (item, some ⟨groupId, componentSources, componentTargets⟩))

/-- `source.scope_id == target.scope_id` for the first source and target. -/
def transitionKind (sources targets : List FilesystemEntry) : RelationKind :=
  if sources.head?.map FilesystemEntry.scopeId = targets.head?.map FilesystemEntry.scopeId then
    .renameCandidate
  else .crossScopeTransitionCandidate

/-- What the loop adds for one hint: nothing, a candidate, or an ambiguous relation with its group. -/
def transitionOf (input : TransitionInput) (reusedPayloadsVerified : Bool) (hint : TransitionKey) :
    Result (Option (RelationItem × Option RelationAmbiguityGroup)) := do
  let sources ← sortedByM entrySortKey (groupOf (byHint input.baseEntries) hint)
  let targets ← sortedByM entrySortKey (groupOf (byHint input.targetEntries) hint)
  let sourceReferences ← orderedReferences sources
  let targetReferences ← orderedReferences targets
  let sourceDigests := payloadDigests reusedPayloadsVerified sources
  let targetDigests := payloadDigests reusedPayloadsVerified targets
  if none ∈ sourceDigests ∨ none ∈ targetDigests then pure none
  else do
    let allDigests := sourceDigests ∪ targetDigests
    let sourceAliases ← sortedByM entrySortKey (groupOf (aliasesOf input.baseSnapshotEntries) hint.aliasKey)
    let targetAliases ← sortedByM entrySortKey (groupOf (aliasesOf input.targetSnapshotEntries) hint.aliasKey)
    let aliases := 1 < sourceAliases.length ∨ 1 < targetAliases.length
    if aliases ∨ allDigests.card ≠ 1 then do
      let componentSources ← component aliases sourceAliases sourceReferences
      let componentTargets ← component aliases targetAliases targetReferences
      ambiguousTransition F componentSources componentTargets
    else do
      let item ← relationItem F (transitionKind sources targets) .candidate sourceReferences targetReferences
        none
      pure (some (item, none))

/-- `sorted(set(base_by_hint) & set(target_by_hint))` -/
def sharedHints (input : TransitionInput) : List TransitionKey :=
  sortedKeys (((byHint input.baseEntries).map Prod.fst).filter fun hint =>
    hint ∈ (byHint input.targetEntries).map Prod.fst)

/-- `_transition_relations` -/
def transitionRelations (input : TransitionInput) (reusedPayloadsVerified : Bool) :
    Result (List RelationItem × List RelationAmbiguityGroup) := do
  let found ← (sharedHints input).mapM (transitionOf F input reusedPayloadsVerified)
  let kept := found.filterMap id
  pure (kept.map Prod.fst, kept.filterMap Prod.snd)

/-! ## The pair -/

/-- `_validate_pair` -/
def validatePair (base target : FilesystemSnapshot) : Result Unit :=
  if base.snapshotId = target.snapshotId then .error (.steward .relationError)
  else if target.startedAt < base.completedAt then .error (.steward .relationError)
  else .ok ()

/-- What `_transition_relations` is given. -/
def transitionInput (base target : List FilesystemEntry) : TransitionInput :=
  ⟨exclusiveEntries base target, exclusiveEntries target base, base, target⟩

/-- Transitions are sought between adjacent snapshots only. -/
def adjacentTransitions (adjacentValidSnapshots : Bool) (input : TransitionInput)
    (reusedPayloadsVerified : Bool) : Result (List RelationItem × List RelationAmbiguityGroup) :=
  if adjacentValidSnapshots then transitionRelations F input reusedPayloadsVerified else .ok ([], [])

/-- Compute in-memory relations from a directional pair of validated facts. -/
def computeSnapshotRelations (base target : FilesystemSnapshot) (adjacentValidSnapshots : Bool)
    (reusedPayloadsVerified : Bool) : Result RelationSet := do
  validatePair base target
  let baseLocations ← entriesByLocation base.snapshotId base.entries
  let targetLocations ← entriesByLocation target.snapshotId target.entries
  let common ← sortedByM (fun pair => entrySortKey pair.1) (commonEntries baseLocations targetLocations)
  let relations ← common.mapM fun pair => sameLocationRelation F reusedPayloadsVerified pair.1 pair.2
  let transitions ← adjacentTransitions F adjacentValidSnapshots
    (transitionInput baseLocations targetLocations) reusedPayloadsVerified
  relationSet F base.snapshotId target.snapshotId (relations.filterMap id ++ transitions.1) transitions.2

end Steward
