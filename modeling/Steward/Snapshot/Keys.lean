import Steward.Py.Named

/-!
# Enumerations and field names

The string enumerations of `models.py` and the field names of Evidence,
Snapshot, Entry and payload documents. Fields the code only copies are grouped
(`SnapshotField`, `EntryField`, `PayloadField`); the ones it interprets are
constructors of their own.
-/

namespace Steward

open Py

inductive FilesystemObjectType where
  | regularFile | directory | symlink | fifo | socket | characterDevice | blockDevice | unknown
  deriving DecidableEq, Repr

instance : Named FilesystemObjectType where
  all := [.regularFile, .directory, .symlink, .fifo, .socket, .characterDevice, .blockDevice, .unknown]
  name
    | .regularFile => txt "regular_file"
    | .directory => txt "directory"
    | .symlink => txt "symlink"
    | .fifo => txt "fifo"
    | .socket => txt "socket"
    | .characterDevice => txt "character_device"
    | .blockDevice => txt "block_device"
    | .unknown => txt "unknown"

inductive FilesystemObservationStatus where
  | observed | permissionDenied | notFound | changedDuringScan | ioError | unsupported
  deriving DecidableEq, Repr

instance : Named FilesystemObservationStatus where
  all := [.observed, .permissionDenied, .notFound, .changedDuringScan, .ioError, .unsupported]
  name
    | .observed => txt "observed"
    | .permissionDenied => txt "permission_denied"
    | .notFound => txt "not_found"
    | .changedDuringScan => txt "changed_during_scan"
    | .ioError => txt "io_error"
    | .unsupported => txt "unsupported"

inductive PayloadObservationStatus where
  | hashed | emptyFileHashed | notRegularFile | notLocal | permissionDenied | fileTooLarge
  | totalByteBudgetExhausted | timeBudgetExhausted | changedDuringRead | notFoundDuringRead
  | ioError | unsupported
  deriving DecidableEq, Repr

instance : Named PayloadObservationStatus where
  all := [.hashed, .emptyFileHashed, .notRegularFile, .notLocal, .permissionDenied, .fileTooLarge,
    .totalByteBudgetExhausted, .timeBudgetExhausted, .changedDuringRead, .notFoundDuringRead,
    .ioError, .unsupported]
  name
    | .hashed => txt "HASHED"
    | .emptyFileHashed => txt "EMPTY_FILE_HASHED"
    | .notRegularFile => txt "NOT_REGULAR_FILE"
    | .notLocal => txt "NOT_LOCAL"
    | .permissionDenied => txt "PERMISSION_DENIED"
    | .fileTooLarge => txt "FILE_TOO_LARGE"
    | .totalByteBudgetExhausted => txt "TOTAL_BYTE_BUDGET_EXHAUSTED"
    | .timeBudgetExhausted => txt "TIME_BUDGET_EXHAUSTED"
    | .changedDuringRead => txt "CHANGED_DURING_READ"
    | .notFoundDuringRead => txt "NOT_FOUND_DURING_READ"
    | .ioError => txt "IO_ERROR"
    | .unsupported => txt "UNSUPPORTED"

inductive PayloadObservationProvenance where
  | directRead | reusedFromVerifiedSnapshot
  deriving DecidableEq, Repr

instance : Named PayloadObservationProvenance where
  all := [.directRead, .reusedFromVerifiedSnapshot]
  name
    | .directRead => txt "DIRECT_READ"
    | .reusedFromVerifiedSnapshot => txt "REUSED_FROM_VERIFIED_SNAPSHOT"

inductive SnapshotStatus where
  | complete | partialStatus | failed
  deriving DecidableEq, Repr

instance : Named SnapshotStatus where
  all := [.complete, .partialStatus, .failed]
  name
    | .complete => txt "complete"
    | .partialStatus => txt "partial"
    | .failed => txt "failed"

inductive SnapshotConsistency where
  | bestEffortPointInTime
  deriving DecidableEq, Repr

instance : Named SnapshotConsistency where
  all := [.bestEffortPointInTime]
  name _ := txt "best_effort_point_in_time"
  complete a := by cases a; decide

/-! ## Evidence envelope -/

inductive EnvelopeKey where
  | schemaVersion | evidenceId | evidenceType | runId | sequence | createdAt | toolVersion
  | configDigest | policyDigest | providerVersions | previousEvidenceDigest | payload
  | evidenceDigest
  deriving DecidableEq, Repr

instance : Named EnvelopeKey where
  all := [.schemaVersion, .evidenceId, .evidenceType, .runId, .sequence, .createdAt, .toolVersion,
    .configDigest, .policyDigest, .providerVersions, .previousEvidenceDigest, .payload,
    .evidenceDigest]
  name
    | .schemaVersion => txt "schema_version"
    | .evidenceId => txt "evidence_id"
    | .evidenceType => txt "evidence_type"
    | .runId => txt "run_id"
    | .sequence => txt "sequence"
    | .createdAt => txt "created_at"
    | .toolVersion => txt "tool_version"
    | .configDigest => txt "config_digest"
    | .policyDigest => txt "policy_digest"
    | .providerVersions => txt "provider_versions"
    | .previousEvidenceDigest => txt "previous_evidence_digest"
    | .payload => txt "payload"
    | .evidenceDigest => txt "evidence_digest"

/-! ## Payload observations -/

inductive PayloadField where
  | algorithm | algorithmVersion | digest | bytesHashed | reusedFromSnapshotId | failureCode
  | osErrorCode
  deriving DecidableEq, Repr

inductive PayloadKey where
  | status
  | provenance
  | field (f : PayloadField)
  deriving DecidableEq, Repr

instance : Named PayloadKey where
  all := [.status, .field .algorithm, .field .algorithmVersion, .field .digest, .field .bytesHashed,
    .provenance, .field .reusedFromSnapshotId, .field .failureCode, .field .osErrorCode]
  name
    | .status => txt "status"
    | .provenance => txt "provenance"
    | .field .algorithm => txt "algorithm"
    | .field .algorithmVersion => txt "algorithm_version"
    | .field .digest => txt "digest"
    | .field .bytesHashed => txt "bytes_hashed"
    | .field .reusedFromSnapshotId => txt "reused_from_snapshot_id"
    | .field .failureCode => txt "failure_code"
    | .field .osErrorCode => txt "os_error_code"
  complete a := by rcases a with _ | _ | f <;> [decide; decide; cases f <;> decide]
  ascii := List.all_eq_true.2 (List.forall_mem_map.2 fun a _ => by
    rcases a with _ | _ | f <;> [skip; skip; cases f] <;> exact all_txt (by decide))

/-! ## Entries -/

inductive EntryField where
  | entryId | snapshotId | scopeId | relativePath | deviceId | inode | mode | uid | gid | sizeBytes
  | mtimeNs | ctimeNs | birthtimeNs | linkCount | symlinkTargetRaw | errorCode | errorMessage
  deriving DecidableEq, Repr

inductive EntryFlag where
  | readable | writable | executable | excluded
  deriving DecidableEq, Repr

inductive EntryKey where
  | field (f : EntryField)
  | flag (f : EntryFlag)
  | objectType
  | observationStatus
  | allocatedSizeBytes
  | payloadObservation
  deriving DecidableEq, Repr

/-- The fields of `FilesystemEntry`. -/
def EntryKey.v1 : List EntryKey :=
  [.field .entryId, .field .snapshotId, .field .scopeId, .field .relativePath, .objectType,
    .field .deviceId, .field .inode, .field .mode, .field .uid, .field .gid, .field .sizeBytes,
    .field .mtimeNs, .field .ctimeNs, .field .birthtimeNs, .field .linkCount,
    .field .symlinkTargetRaw, .flag .readable, .flag .writable, .flag .executable,
    .observationStatus, .field .errorCode, .field .errorMessage, .flag .excluded]

instance : Named EntryKey where
  all := EntryKey.v1 ++ [.allocatedSizeBytes, .payloadObservation]
  name
    | .field .entryId => txt "entry_id"
    | .field .snapshotId => txt "snapshot_id"
    | .field .scopeId => txt "scope_id"
    | .field .relativePath => txt "relative_path"
    | .field .deviceId => txt "device_id"
    | .field .inode => txt "inode"
    | .field .mode => txt "mode"
    | .field .uid => txt "uid"
    | .field .gid => txt "gid"
    | .field .sizeBytes => txt "size_bytes"
    | .field .mtimeNs => txt "mtime_ns"
    | .field .ctimeNs => txt "ctime_ns"
    | .field .birthtimeNs => txt "birthtime_ns"
    | .field .linkCount => txt "link_count"
    | .field .symlinkTargetRaw => txt "symlink_target_raw"
    | .field .errorCode => txt "error_code"
    | .field .errorMessage => txt "error_message"
    | .flag .readable => txt "readable"
    | .flag .writable => txt "writable"
    | .flag .executable => txt "executable"
    | .flag .excluded => txt "excluded"
    | .objectType => txt "object_type"
    | .observationStatus => txt "observation_status"
    | .allocatedSizeBytes => txt "allocated_size_bytes"
    | .payloadObservation => txt "payload_observation"
  complete a := by
    rcases a with f | f | _ | _ | _ | _ <;> [cases f <;> decide; cases f <;> decide; decide; decide;
      decide; decide]
  nodup := by simp [txt_inj, EntryKey.v1]
  ascii := List.all_eq_true.2 (List.forall_mem_map.2 fun a _ => by
    rcases a with f | f | _ | _ | _ | _ <;> [cases f; cases f; skip; skip; skip; skip] <;>
      exact all_txt (by decide))

/-! ## Snapshots -/

inductive SnapshotField where
  | snapshotId | runId | createdAt | startedAt | completedAt | configDigest | entryCount
  | observedCount | errorCount | excludedCount | totalRegularFileBytes | maxDepthObserved
  | entriesDigest | snapshotDigest | evidenceId | evidenceRelativePath
  deriving DecidableEq, Repr

inductive SnapshotKey where
  | field (f : SnapshotField)
  | status
  | consistency
  | scopeIds
  | budget
  | entries
  | snapshotSchemaVersion
  | hashPolicy
  | allocatedKnownSum
  | allocatedUnknownCount
  | payloadObservationSummary
  deriving DecidableEq, Repr

/-- The keys every v1 Snapshot document has. -/
def SnapshotKey.v1 : List SnapshotKey :=
  [.field .snapshotId, .field .runId, .field .createdAt, .field .startedAt, .field .completedAt,
    .status, .consistency, .field .configDigest, .scopeIds, .budget, .field .entryCount,
    .field .observedCount, .field .errorCount, .field .excludedCount, .field .totalRegularFileBytes,
    .field .maxDepthObserved, .field .entriesDigest, .field .snapshotDigest, .entries]

/-- `snapshot_fields_current` -/
def SnapshotKey.v1Current : List SnapshotKey :=
  SnapshotKey.v1 ++ [.field .evidenceId, .field .evidenceRelativePath]

instance : Named SnapshotKey where
  all := SnapshotKey.v1Current ++ [.snapshotSchemaVersion, .hashPolicy, .allocatedKnownSum,
    .allocatedUnknownCount, .payloadObservationSummary]
  name
    | .field .snapshotId => txt "snapshot_id"
    | .field .runId => txt "run_id"
    | .field .createdAt => txt "created_at"
    | .field .startedAt => txt "started_at"
    | .field .completedAt => txt "completed_at"
    | .field .configDigest => txt "config_digest"
    | .field .entryCount => txt "entry_count"
    | .field .observedCount => txt "observed_count"
    | .field .errorCount => txt "error_count"
    | .field .excludedCount => txt "excluded_count"
    | .field .totalRegularFileBytes => txt "total_regular_file_bytes"
    | .field .maxDepthObserved => txt "max_depth_observed"
    | .field .entriesDigest => txt "entries_digest"
    | .field .snapshotDigest => txt "snapshot_digest"
    | .field .evidenceId => txt "evidence_id"
    | .field .evidenceRelativePath => txt "evidence_relative_path"
    | .status => txt "status"
    | .consistency => txt "consistency"
    | .scopeIds => txt "scope_ids"
    | .budget => txt "budget"
    | .entries => txt "entries"
    | .snapshotSchemaVersion => txt "snapshot_schema_version"
    | .hashPolicy => txt "hash_policy"
    | .allocatedKnownSum => txt "allocated_regular_file_bytes_known_sum"
    | .allocatedUnknownCount => txt "allocated_regular_file_unknown_count"
    | .payloadObservationSummary => txt "payload_observation_summary"
  complete a := by
    rcases a with f | _ | _ | _ | _ | _ | _ | _ | _ | _ | _
    · cases f <;> decide
    all_goals decide
  nodup := by simp [txt_inj, SnapshotKey.v1, SnapshotKey.v1Current]
  ascii := List.all_eq_true.2 (List.forall_mem_map.2 fun a _ => by
    rcases a with f | _ | _ | _ | _ | _ | _ | _ | _ | _ | _
    · cases f <;> exact all_txt (by decide)
    all_goals exact all_txt (by decide))

inductive BudgetKey where
  | maxEntries | maxTotalStatBytes | maxDurationSeconds | maxDepth
  deriving DecidableEq, Repr

instance : Named BudgetKey where
  all := [.maxEntries, .maxTotalStatBytes, .maxDurationSeconds, .maxDepth]
  name
    | .maxEntries => txt "max_entries"
    | .maxTotalStatBytes => txt "max_total_stat_bytes"
    | .maxDurationSeconds => txt "max_duration_seconds"
    | .maxDepth => txt "max_depth"

inductive PolicyKey where
  | algorithm | algorithmVersion | maxHashFileBytes | maxTotalHashBytes | maxHashDurationSeconds
  | hashChunkSize | allowNonLocalContent | allowVerifiedReuse
  deriving DecidableEq, Repr

instance : Named PolicyKey where
  all := [.algorithm, .algorithmVersion, .maxHashFileBytes, .maxTotalHashBytes,
    .maxHashDurationSeconds, .hashChunkSize, .allowNonLocalContent, .allowVerifiedReuse]
  name
    | .algorithm => txt "algorithm"
    | .algorithmVersion => txt "algorithm_version"
    | .maxHashFileBytes => txt "max_hash_file_bytes"
    | .maxTotalHashBytes => txt "max_total_hash_bytes"
    | .maxHashDurationSeconds => txt "max_hash_duration_seconds"
    | .hashChunkSize => txt "hash_chunk_size"
    | .allowNonLocalContent => txt "allow_non_local_content"
    | .allowVerifiedReuse => txt "allow_verified_reuse"

/-- The names of a list of keys. -/
def names {α : Type} [Named α] (as : List α) : List Text := as.map Named.name

theorem mem_names {α : Type} [Named α] {a : α} {as : List α} (h : a ∈ as) :
    Named.name a ∈ names as := List.mem_map_of_mem h

theorem names_nodup {α : Type} [Named α] {as : List α} (h : as.Nodup) : (names as).Nodup :=
  h.map fun _ _ => Named.name_inj

/-- Every member of an enumeration is named. -/
def memberNames (α : Type) [Named α] : List Text := names (Named.all : List α)

theorem mem_memberNames {α : Type} [Named α] {t : Text} :
    t ∈ memberNames α ↔ ∃ a : α, Named.ofName? t = some a := by
  simp only [memberNames, names, List.mem_map, Named.ofName?_eq_some]
  exact ⟨fun ⟨a, _, h⟩ => ⟨a, h⟩, fun ⟨a, h⟩ => ⟨a, Named.complete a, h⟩⟩

end Steward
