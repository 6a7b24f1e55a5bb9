import Steward.Analysis.Entry

/-!
# Differences between two snapshots

The entries of two snapshots are matched by location, every matched pair is
compared field by field, and the change events are read off the items.
-/

namespace Steward

open Py

/-- `_COMPARABLE_ENTRY_FIELDS` -/
inductive ComparableField where
  | objectType | deviceId | inode | mode | uid | gid | sizeBytes | mtimeNs | ctimeNs | birthtimeNs
  | linkCount | symlinkTargetRaw | readable | writable | executable | observationStatus | errorCode
  | errorMessage | excluded
  deriving DecidableEq, Repr

instance : Named ComparableField where
  all := [.objectType, .deviceId, .inode, .mode, .uid, .gid, .sizeBytes, .mtimeNs, .ctimeNs, .birthtimeNs,
    .linkCount, .symlinkTargetRaw, .readable, .writable, .executable, .observationStatus, .errorCode,
    .errorMessage, .excluded]
  name
    | .objectType => txt "object_type"
    | .deviceId => txt "device_id"
    | .inode => txt "inode"
    | .mode => txt "mode"
    | .uid => txt "uid"
    | .gid => txt "gid"
    | .sizeBytes => txt "size_bytes"
    | .mtimeNs => txt "mtime_ns"
    | .ctimeNs => txt "ctime_ns"
    | .birthtimeNs => txt "birthtime_ns"
    | .linkCount => txt "link_count"
    | .symlinkTargetRaw => txt "symlink_target_raw"
    | .readable => txt "readable"
    | .writable => txt "writable"
    | .executable => txt "executable"
    | .observationStatus => txt "observation_status"
    | .errorCode => txt "error_code"
    | .errorMessage => txt "error_message"
    | .excluded => txt "excluded"

/-- `getattr(left, field) != getattr(right, field)` -/
def ComparableField.differs (left right : FilesystemEntry) : ComparableField → Bool
  | .objectType => left.objectType ≠ right.objectType
  | .deviceId => left.deviceId ≠ right.deviceId
  | .inode => left.inode ≠ right.inode
  | .mode => left.mode ≠ right.mode
  | .uid => left.uid ≠ right.uid
  | .gid => left.gid ≠ right.gid
  | .sizeBytes => left.sizeBytes ≠ right.sizeBytes
  | .mtimeNs => left.mtimeNs ≠ right.mtimeNs
  | .ctimeNs => left.ctimeNs ≠ right.ctimeNs
  | .birthtimeNs => left.birthtimeNs ≠ right.birthtimeNs
  | .linkCount => left.linkCount ≠ right.linkCount
  | .symlinkTargetRaw => left.symlinkTargetRaw ≠ right.symlinkTargetRaw
  | .readable => left.readable ≠ right.readable
  | .writable => left.writable ≠ right.writable
  | .executable => left.executable ≠ right.executable
  | .observationStatus => left.observationStatus ≠ right.observationStatus
  | .errorCode => left.errorCode ≠ right.errorCode
  | .errorMessage => left.errorMessage ≠ right.errorMessage
  | .excluded => left.excluded ≠ right.excluded

theorem ComparableField.differs_symm (left right : FilesystemEntry) (field : ComparableField) :
    field.differs left right = field.differs right left := by
  cases field <;> exact decide_eq_decide.2 ne_comm

/-- `_changed_fields` -/
def changedFields (left right : FilesystemEntry) : List ComparableField :=
  Named.all.filter (ComparableField.differs left right)

theorem changedFields_symm (left right : FilesystemEntry) :
    changedFields left right = changedFields right left :=
  List.filter_congr fun field _ => field.differs_symm left right

/-! ## Items -/

inductive SnapshotDiffChangeType where
  | added | removed | modified | unchanged
  deriving DecidableEq, Repr

instance : Named SnapshotDiffChangeType where
  all := [.added, .removed, .modified, .unchanged]
  name
    | .added => txt "ADDED"
    | .removed => txt "REMOVED"
    | .modified => txt "MODIFIED"
    | .unchanged => txt "UNCHANGED"

structure SnapshotDiffItem where
  scopeId : Text
  relativePath : Text
  changeType : SnapshotDiffChangeType
  changedFields : List ComparableField
  leftEntry : Option FilesystemEntry
  rightEntry : Option FilesystemEntry
  deriving DecidableEq

structure SnapshotDiffSummary where
  addedCount : Nat
  removedCount : Nat
  modifiedCount : Nat
  unchangedCount : Nat
  itemCount : Nat
  deriving DecidableEq

structure SnapshotDiff where
  leftSnapshotId : Text
  rightSnapshotId : Text
  items : List SnapshotDiffItem
  summary : SnapshotDiffSummary
  deriving DecidableEq

def SnapshotDiffItem.location (item : SnapshotDiffItem) : Text × Text := (item.scopeId, item.relativePath)

/-- `_location_sort_key` -/
def locationSortKey (location : Text × Text) : Result (Text ×ₗ List Byte) := do
  let bytes ← pathBytes location.2
  pure (toLex (location.1, bytes))

/-- One more entry of `by_location`. -/
def addByLocation (byLocation : List FilesystemEntry) (entry : FilesystemEntry) :
    Result (List FilesystemEntry) :=
  if byLocation.any fun e => e.location = entry.location then .error (.steward .diffError)
  else .ok (byLocation ++ [entry])

/-- `_entries_by_location` -/
def diffEntriesByLocation (entries : List FilesystemEntry) : Result (List FilesystemEntry) :=
  entries.foldlM addByLocation []

/-- `by_location.get(location)` -/
def diffEntryAt (entries : List FilesystemEntry) (location : Text × Text) : Option FilesystemEntry :=
  entries.find? fun e => e.location = location

/-- The body of the loop over the locations. -/
def snapshotDiffItem (left right : List FilesystemEntry) (location : Text × Text) : SnapshotDiffItem :=
  match diffEntryAt left location, diffEntryAt right location with
  | none, rightEntry => ⟨location.1, location.2, .added, [], none, rightEntry⟩
  | some leftEntry, none => ⟨location.1, location.2, .removed, [], some leftEntry, none⟩
  | some leftEntry, some rightEntry =>
    let fields := Steward.changedFields leftEntry rightEntry
    ⟨location.1, location.2, if fields.isEmpty then .unchanged else .modified, fields, some leftEntry,
      some rightEntry⟩

/-- `sum(item.change_type == change_type for item in items)` -/
def countOf (items : List SnapshotDiffItem) (changeType : SnapshotDiffChangeType) : Nat :=
  items.countP fun item => item.changeType = changeType

def snapshotDiffSummary (items : List SnapshotDiffItem) : SnapshotDiffSummary :=
  ⟨countOf items .added, countOf items .removed, countOf items .modified, countOf items .unchanged, items.length⟩

/-- `set(left_entries) | set(right_entries)`; its order only breaks ties of the sort key. -/
def unionLocations (left right : List FilesystemEntry) : List (Text × Text) :=
  (left.map FilesystemEntry.location ++ right.map FilesystemEntry.location).dedup

/-- `compute_snapshot_diff` -/
def computeSnapshotDiff (leftSnapshot rightSnapshot : FilesystemSnapshot) : Result SnapshotDiff := do
  let leftEntries ← diffEntriesByLocation leftSnapshot.entries
  let rightEntries ← diffEntriesByLocation rightSnapshot.entries
  let locations ← sortedByM locationSortKey (unionLocations leftEntries rightEntries)
  let items := locations.map (snapshotDiffItem leftEntries rightEntries)
  pure ⟨leftSnapshot.snapshotId, rightSnapshot.snapshotId, items, snapshotDiffSummary items⟩

/-! ## Events -/

inductive ChangeEventType where
  | fileCreated | fileDeleted | fileModified
  deriving DecidableEq, Repr

/-- `hash_changed` is always `None`. -/
structure ChangeEvent where
  scopeId : Text
  relativePath : Text
  eventType : ChangeEventType
  leftEntry : Option FilesystemEntry
  rightEntry : Option FilesystemEntry
  sizeDelta : Option Int
  hashChanged : Option Bool
  metadataChanged : Bool
  deriving DecidableEq

/-- `_METADATA_FIELDS` -/
def metadataFields : List ComparableField :=
  [.objectType, .deviceId, .inode, .mode, .uid, .gid, .mtimeNs, .ctimeNs, .birthtimeNs, .linkCount,
    .symlinkTargetRaw, .readable, .writable, .executable, .observationStatus, .errorCode, .errorMessage, .excluded]

/-- `_size_delta` -/
def sizeDelta (item : SnapshotDiffItem) : Option Int := do
  let left ← item.leftEntry
  let right ← item.rightEntry
  let before ← left.sizeBytes
  let after ← right.sizeBytes
  pure (after - before)

def eventTypeOf : SnapshotDiffChangeType → Option ChangeEventType
  | .added => some .fileCreated
  | .removed => some .fileDeleted
  | .modified => some .fileModified
  | .unchanged => none

/-- `_event` -/
def changeEvent (item : SnapshotDiffItem) : Option ChangeEvent := do
  let eventType ← eventTypeOf item.changeType
  pure ⟨item.scopeId, item.relativePath, eventType, item.leftEntry, item.rightEntry, sizeDelta item, none,
    metadataFields.any fun field => field ∈ item.changedFields⟩

/-- `_location_sort_key` of `change_semantics.py` -/
def eventSortKey (event : ChangeEvent) : Result (Text ×ₗ List Byte) :=
  locationSortKey (event.scopeId, event.relativePath)

/-- `change_events_from_snapshot_diff` -/
def changeEventsFromSnapshotDiff (diff : SnapshotDiff) : Result (List ChangeEvent) :=
  sortedByM eventSortKey (diff.items.filterMap changeEvent)

/-! ## What a difference says -/

/-- The locations are distinct and every path has a sort key. -/
structure FilesystemSnapshot.Comparable (s : FilesystemSnapshot) : Prop where
  location : (s.entries.map FilesystemEntry.location).Nodup
  paths : ∀ e ∈ s.entries, Ok (pathBytes e.relativePath)

/-- The change type and the changed fields of the entries two snapshots have at one location. -/
inductive Classified : Option FilesystemEntry → Option FilesystemEntry → SnapshotDiffChangeType →
    List ComparableField → Prop where
  | added (right : FilesystemEntry) : Classified none (some right) .added []
  | removed (left : FilesystemEntry) : Classified (some left) none .removed []
  | unchanged {left right : FilesystemEntry} (same : ∀ field : ComparableField, field.differs left right = false) :
      Classified (some left) (some right) .unchanged []
  | modified {left right : FilesystemEntry} {fields : List ComparableField} (some_field : fields ≠ [])
      (each : ∀ field, field ∈ fields ↔ field.differs left right = true) :
      Classified (some left) (some right) .modified fields

/-- One item for each location of either snapshot, with its entries there and what they call for. -/
structure Lossless (left right : FilesystemSnapshot) (diff : SnapshotDiff) : Prop where
  once : (diff.items.map SnapshotDiffItem.location).Nodup
  covers : ∀ location, location ∈ diff.items.map SnapshotDiffItem.location ↔
    location ∈ left.entries.map FilesystemEntry.location ∨ location ∈ right.entries.map FilesystemEntry.location
  leftEntry : ∀ item ∈ diff.items, item.leftEntry = diffEntryAt left.entries item.location
  rightEntry : ∀ item ∈ diff.items, item.rightEntry = diffEntryAt right.entries item.location
  classified : ∀ item ∈ diff.items, Classified item.leftEntry item.rightEntry item.changeType item.changedFields

def SnapshotDiffChangeType.exchanged : SnapshotDiffChangeType → SnapshotDiffChangeType
  | .added => .removed
  | .removed => .added
  | .modified => .modified
  | .unchanged => .unchanged

/-- The item of the reversed comparison. -/
def SnapshotDiffItem.exchanged (item : SnapshotDiffItem) : SnapshotDiffItem :=
  { item with
    changeType := item.changeType.exchanged
    leftEntry := item.rightEntry
    rightEntry := item.leftEntry }

/-- The event of an item that is not `UNCHANGED`, its metadata flag read off the fields. -/
structure Reports (item : SnapshotDiffItem) (event : ChangeEvent) : Prop where
  changed : item.changeType ≠ .unchanged
  location : (event.scopeId, event.relativePath) = item.location
  eventType : eventTypeOf item.changeType = some event.eventType
  leftEntry : event.leftEntry = item.leftEntry
  rightEntry : event.rightEntry = item.rightEntry
  metadata : event.metadataChanged = false ↔ ∀ field ∈ item.changedFields, field = .sizeBytes

/-- The events match the items that are not `UNCHANGED`, one each. -/
def Derived (diff : SnapshotDiff) (events : List ChangeEvent) : Prop :=
  ∃ ordered, ordered.Perm (diff.items.filter fun item => item.changeType ≠ .unchanged) ∧
    List.Forall₂ Reports ordered events

/-! ## Reading the locations -/

section
variable {es acc out : List FilesystemEntry} {e : FilesystemEntry} {location : Text × Text}

theorem addByLocation_eq_ok : addByLocation acc e = .ok out ↔
    (∀ a ∈ acc, a.location ≠ e.location) ∧ out = acc ++ [e] := by
  have hany : (acc.any fun a => a.location = e.location) = true ↔ ¬ ∀ a ∈ acc, a.location ≠ e.location := by
    simp
  unfold addByLocation
  by_cases hfresh : ∀ a ∈ acc, a.location ≠ e.location
  · rw [if_neg fun h => hany.1 h hfresh]
    exact ⟨fun h => by cases h; exact ⟨hfresh, rfl⟩, fun h => by rw [h.2]⟩
  · rw [if_pos (hany.2 hfresh)]
    exact iff_of_false (by rintro ⟨⟩) fun h => hfresh h.1

theorem entriesByLocation_eq_ok : diffEntriesByLocation es = .ok out ↔
    out = es ∧ (es.map FilesystemEntry.location).Nodup := by
  rw [diffEntriesByLocation, foldlM_append_eq_ok fun _ _ _ => addByLocation_eq_ok.trans (iff_of_eq (true_and _)).symm]
  simp

theorem entryAt_eq_none : diffEntryAt es location = none ↔ location ∉ es.map FilesystemEntry.location := by
  rw [diffEntryAt, List.find?_eq_none]
  simp

theorem mem_unionLocations {left right : List FilesystemEntry} : location ∈ unionLocations left right ↔
    location ∈ left.map FilesystemEntry.location ∨ location ∈ right.map FilesystemEntry.location := by
  rw [unionLocations, List.mem_dedup, List.mem_append]

theorem ok_locationSortKey : Ok (locationSortKey location) ↔ Ok (pathBytes location.2) :=
  ok_bind_of_total fun _ => ok_pure _

end

/-! ## One item -/

section
variable {left right : List FilesystemEntry} {location : Text × Text}

theorem location_snapshotDiffItem : (snapshotDiffItem left right location).location = location := by
  unfold snapshotDiffItem
  split <;> rfl

theorem leftEntry_snapshotDiffItem : (snapshotDiffItem left right location).leftEntry = diffEntryAt left location := by
  unfold snapshotDiffItem
  split <;> simp only [*]

theorem rightEntry_snapshotDiffItem :
    (snapshotDiffItem left right location).rightEntry = diffEntryAt right location := by
  unfold snapshotDiffItem
  split <;> simp only [*]

theorem mem_changedFields {l r : FilesystemEntry} {field : ComparableField} :
    field ∈ changedFields l r ↔ field.differs l r = true := by
  rw [changedFields, List.mem_filter]
  exact and_iff_right (Named.complete field)

/-- An item says what its entries call for. -/
theorem classified_snapshotDiffItem (h : location ∈ unionLocations left right) :
    Classified (diffEntryAt left location) (diffEntryAt right location) (snapshotDiffItem left right location).changeType
      (snapshotDiffItem left right location).changedFields := by
  unfold snapshotDiffItem
  cases hl : diffEntryAt left location with
  | none =>
    cases hr : diffEntryAt right location with
    | none => exact absurd (mem_unionLocations.1 h) (not_or.2 ⟨entryAt_eq_none.1 hl, entryAt_eq_none.1 hr⟩)
    | some r => exact .added r
  | some l =>
    cases hr : diffEntryAt right location with
    | none => exact .removed l
    | some r =>
      by_cases hfields : changedFields l r = []
      · simp only [hfields, List.isEmpty_nil, if_true]
        refine .unchanged fun field => ?_
        rw [← Bool.not_eq_true, ← mem_changedFields, hfields]
        exact List.not_mem_nil
      · simp only [List.isEmpty_iff, if_neg hfields]
        exact .modified hfields fun field => mem_changedFields

/-- Reversed, every item is exchanged. -/
theorem exchanged_snapshotDiffItem (h : location ∈ unionLocations left right) :
    snapshotDiffItem right left location = (snapshotDiffItem left right location).exchanged := by
  unfold snapshotDiffItem
  cases hl : diffEntryAt left location with
  | none =>
    cases hr : diffEntryAt right location with
    | none => exact absurd (mem_unionLocations.1 h) (not_or.2 ⟨entryAt_eq_none.1 hl, entryAt_eq_none.1 hr⟩)
    | some r => rfl
  | some l =>
    cases hr : diffEntryAt right location with
    | none => rfl
    | some r =>
      simp only [SnapshotDiffItem.exchanged, changedFields_symm r l]
      split_ifs <;> rfl

end

/-! ## The whole comparison -/

section
variable {left right : FilesystemSnapshot} {diff : SnapshotDiff}

theorem computeSnapshotDiff_eq_ok : computeSnapshotDiff left right = .ok diff ↔
    (left.entries.map FilesystemEntry.location).Nodup ∧ (right.entries.map FilesystemEntry.location).Nodup ∧
      ∃ locations, sortedByM locationSortKey (unionLocations left.entries right.entries) = .ok locations ∧
        diff = ⟨left.snapshotId, right.snapshotId, locations.map (snapshotDiffItem left.entries right.entries),
          snapshotDiffSummary (locations.map (snapshotDiffItem left.entries right.entries))⟩ := by
  simp only [computeSnapshotDiff, bind_eq_ok, entriesByLocation_eq_ok, pure_eq_ok]
  constructor
  · rintro ⟨_, ⟨rfl, hl⟩, _, ⟨rfl, hr⟩, locations, hsorted, heq⟩
    exact ⟨hl, hr, locations, hsorted, heq.symm⟩
  · rintro ⟨hl, hr, locations, hsorted, rfl⟩
    exact ⟨_, ⟨rfl, hl⟩, _, ⟨rfl, hr⟩, locations, hsorted, rfl⟩

theorem forall_unionLocations {p : Text → Prop} {es fs : List FilesystemEntry} :
    (∀ location ∈ unionLocations es fs, p location.2) ↔
      (∀ e ∈ es, p e.relativePath) ∧ ∀ e ∈ fs, p e.relativePath := by
  simp only [mem_unionLocations, or_imp, forall_and, List.mem_map, forall_exists_index, and_imp,
    forall_apply_eq_imp_iff₂]
  rfl

/-- The comparison returns exactly on comparable snapshots. -/
theorem ok_computeSnapshotDiff : Ok (computeSnapshotDiff left right) ↔ left.Comparable ∧ right.Comparable := by
  have hsorted : Ok (sortedByM locationSortKey (unionLocations left.entries right.entries)) ↔
      (∀ e ∈ left.entries, Ok (pathBytes e.relativePath)) ∧ ∀ e ∈ right.entries, Ok (pathBytes e.relativePath) := by
    rw [ok_sortedByM, ← forall_unionLocations (p := fun path => Ok (pathBytes path))]
    exact forall₂_congr fun _ _ => ok_locationSortKey
  constructor
  · rintro ⟨diff, h⟩
    obtain ⟨hl, hr, locations, hlocations, -⟩ := computeSnapshotDiff_eq_ok.1 h
    have hpaths := hsorted.1 ⟨locations, hlocations⟩
    exact ⟨⟨hl, hpaths.1⟩, ⟨hr, hpaths.2⟩⟩
  · rintro ⟨hl, hr⟩
    obtain ⟨locations, hlocations⟩ := hsorted.2 ⟨hl.paths, hr.paths⟩
    exact ⟨_, computeSnapshotDiff_eq_ok.2 ⟨hl.location, hr.location, locations, hlocations, rfl⟩⟩

theorem map_location_items {es fs : List FilesystemEntry} {locations : List (Text × Text)} :
    (locations.map (snapshotDiffItem es fs)).map SnapshotDiffItem.location = locations := by
  rw [List.map_map]
  exact List.map_id'' (fun _ => location_snapshotDiffItem) locations

theorem lossless_computeSnapshotDiff (h : computeSnapshotDiff left right = .ok diff) : Lossless left right diff := by
  obtain ⟨-, -, locations, hlocations, rfl⟩ := computeSnapshotDiff_eq_ok.1 h
  have hperm := sortedByM_perm hlocations
  have hmem {item : SnapshotDiffItem} (hi : item ∈ locations.map (snapshotDiffItem left.entries right.entries)) :
      ∃ location ∈ unionLocations left.entries right.entries,
        snapshotDiffItem left.entries right.entries location = item := by
    obtain ⟨location, hloc, heq⟩ := List.mem_map.1 hi
    exact ⟨location, hperm.mem_iff.1 hloc, heq⟩
  refine ⟨?_, fun location => ?_, fun item hi => ?_, fun item hi => ?_, fun item hi => ?_⟩
  · show ((locations.map _).map SnapshotDiffItem.location).Nodup
    rw [map_location_items]
    exact hperm.nodup_iff.2 (List.nodup_dedup _)
  · show location ∈ (locations.map _).map SnapshotDiffItem.location ↔ _
    rw [map_location_items, hperm.mem_iff, mem_unionLocations]
  · obtain ⟨location, -, rfl⟩ := hmem hi
    rw [leftEntry_snapshotDiffItem, location_snapshotDiffItem]
  · obtain ⟨location, -, rfl⟩ := hmem hi
    rw [rightEntry_snapshotDiffItem, location_snapshotDiffItem]
  · obtain ⟨location, hloc, rfl⟩ := hmem hi
    rw [leftEntry_snapshotDiffItem, rightEntry_snapshotDiffItem]
    exact classified_snapshotDiffItem hloc

theorem unionLocations_comm (es fs : List FilesystemEntry) : (unionLocations es fs).Perm (unionLocations fs es) :=
  (List.perm_ext_iff_of_nodup (List.nodup_dedup _) (List.nodup_dedup _)).2 fun _ =>
    mem_unionLocations.trans (or_comm.trans mem_unionLocations.symm)

/-- The reversed comparison has the exchanged items. -/
theorem exchanged_computeSnapshotDiff {reversed : SnapshotDiff} (h : computeSnapshotDiff left right = .ok diff)
    (hrev : computeSnapshotDiff right left = .ok reversed) :
    reversed.items.Perm (diff.items.map SnapshotDiffItem.exchanged) := by
  obtain ⟨-, -, locations, hlocations, rfl⟩ := computeSnapshotDiff_eq_ok.1 h
  obtain ⟨-, -, locations', hlocations', rfl⟩ := computeSnapshotDiff_eq_ok.1 hrev
  have hperm := sortedByM_perm hlocations
  have hsame : locations'.Perm locations :=
    (sortedByM_perm hlocations').trans ((unionLocations_comm _ _).trans hperm.symm)
  have hexchanged : locations.map (snapshotDiffItem right.entries left.entries) =
      (locations.map (snapshotDiffItem left.entries right.entries)).map SnapshotDiffItem.exchanged := by
    rw [List.map_map]
    exact List.map_congr_left fun location hloc => exchanged_snapshotDiffItem (hperm.mem_iff.1 hloc)
  rw [← hexchanged]
  exact hsame.map _

/-! ## The events of a comparison -/

theorem metadataFields_any {fields : List ComparableField} :
    (metadataFields.any fun field => field ∈ fields) = false ↔ ∀ field ∈ fields, field = .sizeBytes := by
  have hall : ∀ field : ComparableField, field ∈ metadataFields ↔ field ≠ .sizeBytes := by decide
  rw [List.any_eq_false]
  simp only [decide_eq_true_eq, hall]
  exact ⟨fun h field hmem => not_not.1 fun hne => h field hne hmem, fun h field hne hmem => hne (h field hmem)⟩

/-- An item has an event exactly when it is not `UNCHANGED`, and the event reports it. -/
theorem changeEvent_eq_some {item : SnapshotDiffItem} {event : ChangeEvent} (h : changeEvent item = some event) :
    Reports item event := by
  obtain ⟨eventType, htype, heq⟩ := Option.bind_eq_some_iff.1 h
  cases heq
  refine ⟨fun hu => ?_, rfl, htype, rfl, rfl, metadataFields_any⟩
  rw [hu] at htype
  cases htype

theorem changeEvent_isSome {item : SnapshotDiffItem} :
    (changeEvent item).isSome = decide (item.changeType ≠ .unchanged) := by
  unfold changeEvent
  cases item.changeType <;> rfl

/-- Sorting with a key moves the elements with the inputs they came from. -/
theorem forall₂_filterMap_changeEvent (items : List SnapshotDiffItem) :
    List.Forall₂ Reports (items.filter fun item => item.changeType ≠ .unchanged) (items.filterMap changeEvent) := by
  induction items with
  | nil => exact .nil
  | cons item items ih =>
    cases hevent : changeEvent item with
    | none =>
      have hskip : ¬ decide (item.changeType ≠ .unchanged) = true := by
        rw [← changeEvent_isSome, hevent]
        simp
      rw [List.filterMap_cons_none hevent, List.filter_cons, if_neg hskip]
      exact ih
    | some event =>
      have hkeep : decide (item.changeType ≠ .unchanged) = true := by
        rw [← changeEvent_isSome, hevent]
        rfl
      rw [List.filterMap_cons_some hevent, List.filter_cons, if_pos hkeep]
      exact .cons (changeEvent_eq_some hevent) ih

theorem derived_changeEvents {events : List ChangeEvent} (h : changeEventsFromSnapshotDiff diff = .ok events) :
    Derived diff events := by
  have hperm := sortedByM_perm h
  obtain ⟨ordered, hordered, hmatched⟩ :
      Relation.Comp List.Perm (List.Forall₂ Reports) (diff.items.filter fun item => item.changeType ≠ .unchanged)
        events := by
    rw [← List.forall₂_comp_perm_eq_perm_comp_forall₂]
    exact ⟨_, forall₂_filterMap_changeEvent diff.items, hperm.symm⟩
  exact ⟨ordered, hordered.symm, hmatched⟩

/-- The events of a difference can always be sorted: their paths were sorted before. -/
theorem ok_changeEvents (h : computeSnapshotDiff left right = .ok diff) : Ok (changeEventsFromSnapshotDiff diff) := by
  obtain ⟨hl, hr⟩ := ok_computeSnapshotDiff.1 ⟨diff, h⟩
  have hlossless := lossless_computeSnapshotDiff h
  rw [changeEventsFromSnapshotDiff, ok_sortedByM]
  intro event hevent
  obtain ⟨item, hitem, heq⟩ := List.mem_filterMap.1 hevent
  rw [eventSortKey, (changeEvent_eq_some heq).location, ok_locationSortKey]
  have hloc := (hlossless.covers item.location).1 (List.mem_map_of_mem hitem)
  rcases hloc with hloc | hloc
  · obtain ⟨e, he, hel⟩ := List.mem_map.1 hloc
    rw [← hel]
    exact hl.paths e he
  · obtain ⟨e, he, hel⟩ := List.mem_map.1 hloc
    rw [← hel]
    exact hr.paths e he

/-- No event is repeated: each has the location of its item. -/
theorem nodup_location_of_derived {events : List ChangeEvent} (hlossless : Lossless left right diff)
    (h : Derived diff events) : (events.map fun event => (event.scopeId, event.relativePath)).Nodup := by
  obtain ⟨ordered, hperm, hmatched⟩ := h
  have hlocations : events.map (fun event => (event.scopeId, event.relativePath)) =
      ordered.map SnapshotDiffItem.location := by
    refine (forall₂_map_eq hmatched fun item event hr => ?_).symm
    exact hr.location.symm
  rw [hlocations, (hperm.map _).nodup_iff]
  exact hlossless.once.sublist (List.filter_sublist.map _)

/-- Two snapshots whose locations are distinct and sortable have a lossless difference, its reverse
is the exchanged difference, and its events are those of its changed items; any other pair raises. -/
theorem snapshotDiff_lossless (left right : FilesystemSnapshot) :
    (∃ diff reversed events,
      computeSnapshotDiff left right = .ok diff ∧ Lossless left right diff ∧
      computeSnapshotDiff right left = .ok reversed ∧
      reversed.items.Perm (diff.items.map SnapshotDiffItem.exchanged) ∧
      changeEventsFromSnapshotDiff diff = .ok events ∧ Derived diff events ∧
      (events.map fun event => (event.scopeId, event.relativePath)).Nodup) ∨
    (¬ (left.Comparable ∧ right.Comparable) ∧ ¬ Ok (computeSnapshotDiff left right)) := by
  by_cases hcomparable : left.Comparable ∧ right.Comparable
  · obtain ⟨diff, h⟩ := ok_computeSnapshotDiff.2 hcomparable
    obtain ⟨reversed, hrev⟩ := ok_computeSnapshotDiff.2 hcomparable.symm
    obtain ⟨events, hevents⟩ := ok_changeEvents h
    have hlossless := lossless_computeSnapshotDiff h
    have hderived := derived_changeEvents hevents
    exact .inl ⟨diff, reversed, events, h, hlossless, hrev, exchanged_computeSnapshotDiff h hrev, hevents, hderived,
      nodup_location_of_derived hlossless hderived⟩
  · exact .inr ⟨hcomparable, fun hok => hcomparable (ok_computeSnapshotDiff.1 hok)⟩

end

/-- A snapshot of one observed entry of the given type. -/
def retyped (objectType : FilesystemObjectType) : FilesystemSnapshot :=
  ⟨txt "s", [], [], [txt "home"],
    [⟨txt "s", txt "home", txt "a", objectType, some 1, some 2, none, none, none, some 3, none, none, none, none,
      none, true, true, false, .observed, none, none, false, none⟩]⟩

/-- A file that became a directory is `MODIFIED`, in its `object_type`. -/
theorem typeChange_modified : ¬ ∀ left right diff, computeSnapshotDiff left right = .ok diff →
    ∀ item ∈ diff.items, ∀ l r, item.leftEntry = some l → item.rightEntry = some r →
      l.objectType ≠ r.objectType → Named.name item.changeType = txt "TYPE_CHANGED" := by
  intro h
  have hnone : ∀ changeType : SnapshotDiffChangeType, Named.name changeType ≠ txt "TYPE_CHANGED" := by decide
  exact hnone _ (h (retyped .regularFile) (retyped .directory) _ rfl _ (List.mem_singleton_self _) _ _ rfl rfl
    (by decide))

end Steward
