import Steward.Evidence.Canonical
import Steward.Py.Grouping
import Steward.Snapshot.Keys

/-!
# Snapshot facts in memory

The dataclasses the on-demand analyses read, with the types their annotations
give them, and the references by which results name entries. An entry is of its
v2 class when its `v2` part is there.
-/

namespace Steward

open Py Sqlite

/-- `PayloadObservation` -/
structure PayloadObservation where
  status : PayloadObservationStatus
  algorithm : Option Text
  algorithmVersion : Option Int
  digest : Option Text
  bytesHashed : Option Int
  provenance : Option PayloadObservationProvenance
  reusedFromSnapshotId : Option Text
  failureCode : Option Text
  deriving DecidableEq

/-- What `FilesystemEntryV2` adds. -/
structure PayloadFacts where
  allocatedSizeBytes : Option Int
  payloadObservation : PayloadObservation
  deriving DecidableEq

structure FilesystemEntry where
  snapshotId : Text
  scopeId : Text
  relativePath : Text
  objectType : FilesystemObjectType
  deviceId : Option Int
  inode : Option Int
  mode : Option Int
  uid : Option Int
  gid : Option Int
  sizeBytes : Option Int
  mtimeNs : Option Int
  ctimeNs : Option Int
  birthtimeNs : Option Int
  linkCount : Option Int
  symlinkTargetRaw : Option Text
  readable : Bool
  writable : Bool
  executable : Bool
  observationStatus : FilesystemObservationStatus
  errorCode : Option Text
  errorMessage : Option Text
  excluded : Bool
  v2 : Option PayloadFacts
  deriving DecidableEq

structure FilesystemSnapshot where
  snapshotId : Text
  startedAt : Text
  completedAt : Text
  scopeIds : List Text
  entries : List FilesystemEntry

/-- The same snapshot with its entries in another order. -/
structure FilesystemSnapshot.Reordered (a b : FilesystemSnapshot) : Prop where
  snapshotId : a.snapshotId = b.snapshotId
  startedAt : a.startedAt = b.startedAt
  completedAt : a.completedAt = b.completedAt
  scopeIds : a.scopeIds = b.scopeIds
  entries : a.entries.Perm b.entries

theorem FilesystemSnapshot.Reordered.symm {a b : FilesystemSnapshot} (h : a.Reordered b) : b.Reordered a :=
  ⟨h.snapshotId.symm, h.startedAt.symm, h.completedAt.symm, h.scopeIds.symm, h.entries.symm⟩

/-- Device and inode are known. -/
def hasObjectHint (e : FilesystemEntry) : Bool := e.deviceId.isSome && e.inode.isSome

/-! ## Payload tests -/

/-- `payload.status in {HASHED, EMPTY_FILE_HASHED}` -/
def PayloadObservation.hashed (payload : PayloadObservation) : Bool :=
  payload.status = .hashed || payload.status = .emptyFileHashed

/-- `len(digest) == 64`, and every character is a lower-case hexadecimal digit. -/
def isSha256Digest (digest : Text) : Bool := digest.length = 64 && digest.all isHexDigit

/-- A digest read directly, or reused when reused payloads are verified. -/
def provenanceAccepted (reusedPayloadsVerified : Bool) (payload : PayloadObservation) : Bool :=
  match payload.provenance with
  | some .directRead => true
  | some .reusedFromVerifiedSnapshot => reusedPayloadsVerified && payload.reusedFromSnapshotId.isSome
  | none => false

/-! ## Locations -/

/-- `(entry.scope_id, entry.relative_path)` -/
def FilesystemEntry.location (e : FilesystemEntry) : Text × Text := (e.scopeId, e.relativePath)

/-- One more entry of a snapshot, at a location of its own. -/
def addLocated (error : StewardError) (snapshotId : Text) (result : List FilesystemEntry)
    (entry : FilesystemEntry) : Result (List FilesystemEntry) :=
  if entry.snapshotId ≠ snapshotId then .error (.steward error)
  else if result.any fun e => e.location = entry.location then .error (.steward error)
  else .ok (result ++ [entry])

/-- The loop that rejects foreign entries and repeated locations. -/
def locatedEntries (error : StewardError) (snapshotId : Text) (entries : List FilesystemEntry) :
    Result (List FilesystemEntry) := entries.foldlM (addLocated error snapshotId) []

/-- The entries are of this snapshot and lie at distinct locations. -/
structure FilesystemSnapshot.Located (s : FilesystemSnapshot) : Prop where
  snapshotId : ∀ e ∈ s.entries, e.snapshotId = s.snapshotId
  location : (s.entries.map FilesystemEntry.location).Nodup

section
variable {error : StewardError} {id : Text} {e : FilesystemEntry} {es acc out : List FilesystemEntry}

theorem addLocated_eq_ok : addLocated error id acc e = .ok out ↔
    e.snapshotId = id ∧ (∀ a ∈ acc, a.location ≠ e.location) ∧ out = acc ++ [e] := by
  have hany : (acc.any fun a => a.location = e.location) = true ↔ ¬ ∀ a ∈ acc, a.location ≠ e.location := by
    simp
  unfold addLocated
  by_cases hid : e.snapshotId = id
  · by_cases hfresh : ∀ a ∈ acc, a.location ≠ e.location
    · rw [if_neg (not_not.2 hid), if_neg (fun h => hany.1 h hfresh)]
      exact ⟨fun h => by cases h; exact ⟨hid, hfresh, rfl⟩, fun h => by rw [h.2.2]⟩
    · rw [if_neg (not_not.2 hid), if_pos (hany.2 hfresh)]
      exact iff_of_false (by rintro ⟨⟩) fun h => hfresh h.2.1
  · rw [if_pos hid]
    exact iff_of_false (by rintro ⟨⟩) fun h => hid h.1

theorem locatedEntries_eq_ok {s : FilesystemSnapshot} :
    locatedEntries error s.snapshotId s.entries = .ok out ↔ out = s.entries ∧ s.Located := by
  rw [locatedEntries, foldlM_append_eq_ok fun _ _ _ => addLocated_eq_ok]
  simp only [List.nil_append, List.not_mem_nil, false_implies, implies_true, true_and]
  exact and_congr_right fun _ => ⟨fun h => ⟨h.1, h.2⟩, fun h => ⟨h.snapshotId, h.location⟩⟩

end

namespace FilesystemSnapshot.Located

variable {s s' : FilesystemSnapshot} {a b : FilesystemEntry}

/-- A location names one entry. -/
theorem eq (h : s.Located) (ha : a ∈ s.entries) (hb : b ∈ s.entries) (hab : a.location = b.location) :
    a = b := List.inj_on_of_nodup_map h.location ha hb hab

theorem nodup (h : s.Located) : s.entries.Nodup := List.Nodup.of_map _ h.location

theorem reordered (h : s.Located) (hs : s.Reordered s') : s'.Located :=
  ⟨fun e he => (h.snapshotId e (hs.entries.mem_iff.2 he)).trans hs.snapshotId,
    (hs.entries.map _).nodup_iff.1 h.location⟩

end FilesystemSnapshot.Located

/-! ## References -/

@[ext] structure SnapshotEntryReference where
  snapshotId : Text
  scopeId : Text
  relativePath : Text
  deriving DecidableEq

/-- `_reference` -/
def reference (e : FilesystemEntry) : SnapshotEntryReference := ⟨e.snapshotId, e.scopeId, e.relativePath⟩

/-- `relative_path.encode("utf-8", "surrogateescape")` -/
def pathBytes (path : Text) : Result (List Byte) :=
  match Text.utf8Escape path with
  | some bytes => .ok bytes
  | none => .error (.python .unicodeEncodeError)

abbrev ReferenceKey := Text ×ₗ Text ×ₗ List Byte

/-- `_reference_sort_key` -/
def referenceSortKey (r : SnapshotEntryReference) : Result ReferenceKey := do
  let bytes ← pathBytes r.relativePath
  pure (toLex (r.snapshotId, toLex (r.scopeId, bytes)))

/-- `_entry_sort_key` -/
def entrySortKey (e : FilesystemEntry) : Result (Text ×ₗ List Byte) := do
  let bytes ← pathBytes e.relativePath
  pure (toLex (e.scopeId, bytes))

/-- References name entries. -/
theorem FilesystemSnapshot.Located.reference_inj {s : FilesystemSnapshot} (h : s.Located)
    {a b : FilesystemEntry} (ha : a ∈ s.entries) (hb : b ∈ s.entries)
    (hab : reference a = reference b) : a = b := by
  rw [reference, reference, SnapshotEntryReference.mk.injEq] at hab
  exact h.eq ha hb (Prod.ext hab.2.1 hab.2.2)

/-- `_ordered_references` -/
def orderedReferences (entries : List FilesystemEntry) : Result (List SnapshotEntryReference) :=
  sortedByM referenceSortKey (entries.map reference)

namespace SnapshotEntryReference

/-- All three texts can be encoded. -/
def encodable (r : SnapshotEntryReference) : Bool :=
  r.snapshotId.encodable && r.scopeId.encodable && r.relativePath.encodable

end SnapshotEntryReference

section
variable {F : Type} [SqliteFloat F]

/-- `_reference_data` -/
def referenceData (r : SnapshotEntryReference) : Value F :=
  .dict [(txt "snapshot_id", .str r.snapshotId), (txt "scope_id", .str r.scopeId),
    (txt "relative_path", .str r.relativePath)]

def referencesData (rs : List SnapshotEntryReference) : Value F := .list (rs.map referenceData)

theorem safe_referenceData {r : SnapshotEntryReference} :
    (referenceData r : Value F).safe = true ↔ r.encodable = true := by
  have hkeys : ∀ k ∈ [txt "snapshot_id", txt "scope_id", txt "relative_path"], k.encodable = true := by
    decide
  rw [referenceData, Value.safe_dict]
  simp only [SnapshotEntryReference.encodable, Bool.and_eq_true]
  constructor
  · rintro ⟨-, h⟩
    exact ⟨⟨h (txt "snapshot_id", .str r.snapshotId) (by simp), h (txt "scope_id", .str r.scopeId) (by simp)⟩,
      h (txt "relative_path", .str r.relativePath) (by simp)⟩
  · rintro ⟨⟨hs, hc⟩, hp⟩
    refine ⟨hkeys, fun f hf => ?_⟩
    simp only [List.mem_cons, List.not_mem_nil, or_false] at hf
    rcases hf with rfl | rfl | rfl
    · exact hs
    · exact hc
    · exact hp

theorem safe_referencesData {rs : List SnapshotEntryReference} :
    (referencesData rs : Value F).safe = true ↔ ∀ r ∈ rs, r.encodable = true := by
  simp [referencesData, Value.safe_list, safe_referenceData]

end

/-! ## What the sort keys tell apart -/

theorem pathBytes_of_encodable {path : Text} (h : path.encodable = true) :
    pathBytes path = .ok (Text.utf8 path) := by
  rw [pathBytes, Text.utf8Escape_of_encodable h]

/-- `_reference_sort_key` where it returns. -/
def refKey (r : SnapshotEntryReference) : ReferenceKey :=
  toLex (r.snapshotId, toLex (r.scopeId, Text.utf8 r.relativePath))

theorem refKey_injective : Function.Injective refKey := by
  intro r s h
  have hkey := congrArg ofLex h
  have hrest := congrArg ofLex (Prod.mk.inj hkey).2
  exact SnapshotEntryReference.ext (Prod.mk.inj hkey).1 (Prod.mk.inj hrest).1
    (Text.utf8_injective (Prod.mk.inj hrest).2)

theorem referenceSortKey_of_encodable {r : SnapshotEntryReference} (h : r.encodable = true) :
    referenceSortKey r = .ok (refKey r) := by
  simp only [SnapshotEntryReference.encodable, Bool.and_eq_true] at h
  rw [referenceSortKey, pathBytes_of_encodable h.2]
  rfl

theorem mapM_referenceSortKey {rs : List SnapshotEntryReference} (h : ∀ r ∈ rs, r.encodable = true) :
    rs.mapM referenceSortKey = .ok (rs.map refKey) := by
  rw [mapM_eq_ok, List.forall₂_map_right_iff, List.forall₂_same]
  exact fun r hr => referenceSortKey_of_encodable (h r hr)

theorem referenceSortKey_inj {r s : SnapshotEntryReference} (hr : r.encodable = true)
    (hs : s.encodable = true) (h : referenceSortKey r = referenceSortKey s) : r = s := by
  rw [referenceSortKey_of_encodable hr, referenceSortKey_of_encodable hs] at h
  exact refKey_injective (Except.ok.inj h)

/-- Encodable references have one sorted order. -/
theorem orderedReferences_of_perm {es es' : List FilesystemEntry} {rs : List SnapshotEntryReference}
    (h : orderedReferences es = .ok rs) (henc : ∀ r ∈ rs, r.encodable = true) (hp : es.Perm es') :
    orderedReferences es' = .ok rs := by
  refine sortedByM_of_perm h (hp.map _) fun r hr s hs => ?_
  exact referenceSortKey_inj (henc r ((mem_sortedByM h).2 hr)) (henc s ((mem_sortedByM h).2 hs))

theorem mem_orderedReferences {es : List FilesystemEntry} {rs : List SnapshotEntryReference}
    (h : orderedReferences es = .ok rs) {r : SnapshotEntryReference} :
    r ∈ rs ↔ ∃ e ∈ es, reference e = r := by
  rw [mem_sortedByM h, List.mem_map]

theorem ok_orderedReferences {es : List FilesystemEntry} :
    Ok (orderedReferences es) ↔ ∀ e ∈ es, Ok (pathBytes e.relativePath) := by
  rw [orderedReferences, ok_sortedByM, List.forall_mem_map]
  exact forall₂_congr fun e _ => ok_bind_of_total fun _ => ok_pure _

theorem ok_sort_entries {es : List FilesystemEntry} :
    Ok (sortedByM entrySortKey es) ↔ ∀ e ∈ es, Ok (pathBytes e.relativePath) := by
  rw [ok_sortedByM]
  exact forall₂_congr fun e _ => ok_bind_of_total fun _ => ok_pure _

end Steward
