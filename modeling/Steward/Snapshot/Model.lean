import Steward.Snapshot.ValidateV2

/-!
# The Snapshot model

`FilesystemSnapshot`, `FilesystemEntry` and their v2 extensions, the mapping
from a document, and the dictionaries `asdict` turns them into. A field that no
validator types stays a `Value`; a snapshot or entry is of its v2 class when
its `v2` part is there.
-/

namespace Steward

open Py Sqlite

variable {F : Type} [SqliteFloat F]

/-- `PayloadObservation` -/
structure Observation (F : Type) where
  status : PayloadObservationStatus
  provenance : Option PayloadObservationProvenance
  field : PayloadField → Value F

/-- What `FilesystemEntryV2` adds. -/
structure EntryV2 (F : Type) where
  allocatedSizeBytes : Value F
  observation : Observation F

structure Entry (F : Type) where
  field : EntryField → Value F
  flag : EntryFlag → Bool
  objectType : FilesystemObjectType
  observationStatus : FilesystemObservationStatus
  v2 : Option (EntryV2 F)

/-- What `FilesystemSnapshotV2` adds. -/
structure SnapshotV2 (F : Type) where
  schemaVersion : Value F
  hashPolicy : PolicyKey → Value F
  allocatedKnownSum : Value F
  allocatedUnknownCount : Value F
  summary : List (PayloadObservationStatus × Value F)

structure Snapshot (F : Type) where
  field : SnapshotField → Value F
  status : SnapshotStatus
  consistency : SnapshotConsistency
  scopeIds : List (Value F)
  budget : BudgetKey → Value F
  entries : List (Entry F)
  v2 : Option (SnapshotV2 F)

/-! ## Equality of the dataclasses -/

/-! ## Mapping documents -/

/-- `α(v)` for a string enumeration. -/
def enumOf (α : Type) [Named α] (v : Value F) : Except Py.Error α :=
  match v with
  | .str s => match Named.ofName? s with
    | some a => .ok a
    | none => .error .valueError
  | _ => .error .valueError

/-- `α(v) if v is not None else None` -/
def enumOf? (α : Type) [Named α] (v : Value F) : Except Py.Error (Option α) :=
  if v.isNone then .ok none else some <$> enumOf α v

omit [SqliteFloat F] in
theorem enumOf_eq_ok {α : Type} [Named α] {v : Value F} {a : α} :
    enumOf α v = .ok a ↔ v = nameValue a := by
  cases v with
  | str s =>
    unfold enumOf nameValue
    cases h : Named.ofName? (α := α) s with
    | none =>
      simp only [h]
      exact iff_of_false (by rintro ⟨⟩) fun he => Named.ofName?_eq_none.1 h a (Value.str.inj he).symm
    | some b =>
      rw [Named.ofName?_eq_some] at h
      subst h
      simp
  | _ => exact iff_of_false (by rintro ⟨⟩) (by rintro ⟨⟩)

/-- Subscripts of one mapping with several keys. -/
def readKeys {κ : Type} [Named κ] (v : Value F) (ks : List κ) : Except Py.Error Unit :=
  discard (ks.mapM (itemOf v))

omit [SqliteFloat F] in
theorem readKeys_eq_ok {κ : Type} [Named κ] {v : Value F} {ks : List κ} :
    readKeys v ks = .ok () ↔ ∀ k ∈ ks, hasKey v k = true := by
  have hdiscard : readKeys v ks = .ok () ↔ Ok (ks.mapM (itemOf v)) := by
    unfold readKeys
    cases ks.mapM (itemOf v) with
    | ok vs => exact iff_of_true rfl (ok_ok _)
    | error e => exact iff_of_false (by rintro ⟨⟩) (not_ok_error _)
  rw [hdiscard, ok_mapM]
  exact forall₂_congr fun k _ => ok_itemOf

/-- The four flags; validated documents hold booleans here. -/
def flagsOf (item : Value F) : Except Py.Error (EntryFlag → Bool) :=
  if EntryFlag.all.all fun f => (keyOf item (EntryKey.flag f)).isBool then
    .ok fun f => (keyOf item (EntryKey.flag f)).truthy
  else .error .typeError

def observationFromDocument (value : Value F) : Except Py.Error (Observation F) := do
  readKeys value (Named.all : List PayloadKey)
  let status ← enumOf PayloadObservationStatus (keyOf value PayloadKey.status)
  let provenance ← enumOf? PayloadObservationProvenance (keyOf value PayloadKey.provenance)
  pure ⟨status, provenance, fun f => keyOf value (PayloadKey.field f)⟩

/-- `FilesystemEntry(…)` from a document's entry. -/
def entryFromDocument (item : Value F) : Except Py.Error (Entry F) := do
  readKeys item EntryKey.v1
  let objectType ← enumOf FilesystemObjectType (keyOf item EntryKey.objectType)
  let observationStatus ← enumOf FilesystemObservationStatus (keyOf item EntryKey.observationStatus)
  let flag ← flagsOf item
  pure ⟨fun f => keyOf item (EntryKey.field f), flag, objectType, observationStatus, none⟩

/-- `FilesystemEntryV2(…)` from a document's entry. -/
def entryV2FromDocument (item : Value F) : Except Py.Error (Entry F) := do
  let entry ← entryFromDocument item
  readKeys item [EntryKey.allocatedSizeBytes, .payloadObservation]
  let observation ← observationFromDocument (keyOf item EntryKey.payloadObservation)
  pure { entry with v2 := some ⟨keyOf item EntryKey.allocatedSizeBytes, observation⟩ }

/-- `evidence["payload"]["snapshot"]` and `evidence["payload"]["entries"]`. -/
def documentParts (evidence : Value F) : Except Py.Error (Value F × List (Value F)) := do
  let payload ← itemOf evidence EnvelopeKey.payload
  let data ← payload.item (txt "snapshot")
  let entries ← payload.item (txt "entries")
  pure (data, ← entries.iter)

/-- The dataclass fields a document supplies, with the identity of its evidence file. -/
def snapshotFields (evidence data : Value F) (evidenceRelativePath : Text) :
    SnapshotField → Value F
  | .evidenceId => keyOf evidence EnvelopeKey.evidenceId
  | .evidenceRelativePath => .str evidenceRelativePath
  | f => keyOf data (SnapshotKey.field f)

/-- The fields read with `data[…]`. -/
def copiedFields : List SnapshotField :=
  [.snapshotId, .runId, .createdAt, .startedAt, .completedAt, .configDigest, .entryCount,
    .observedCount, .errorCount, .excludedCount, .totalRegularFileBytes, .maxDepthObserved,
    .entriesDigest, .snapshotDigest]

/-- The part of the mapping both versions share. -/
def snapshotFromDocument (evidence : Value F) (evidenceRelativePath : Text)
    (entry : Value F → Except Py.Error (Entry F)) : Except Py.Error (Snapshot F) := do
  let (data, items) ← documentParts evidence
  let budget ← itemOf data SnapshotKey.budget
  readKeys budget (Named.all : List BudgetKey)
  let entries ← items.mapM entry
  readKeys data (copiedFields.map SnapshotKey.field)
  let status ← enumOf SnapshotStatus (keyOf data SnapshotKey.status)
  let consistency ← enumOf SnapshotConsistency (keyOf data SnapshotKey.consistency)
  let scopeIds ← (← itemOf data SnapshotKey.scopeIds).iter
  let _ ← itemOf evidence EnvelopeKey.evidenceId
  pure ⟨snapshotFields evidence data evidenceRelativePath, status, consistency, scopeIds,
    fun k => keyOf budget k, entries, none⟩

/-- One element of `payload_observation_summary["status_counts"]`. -/
def statusCountFromDocument (item : Value F) :
    Except Py.Error (PayloadObservationStatus × Value F) := do
  let status ← enumOf PayloadObservationStatus (← item.item (txt "status"))
  pure (status, ← item.item (txt "count"))

def summaryFromDocument (summary : Value F) :
    Except Py.Error (List (PayloadObservationStatus × Value F)) := do
  let counts ← summary.item (txt "status_counts")
  (← counts.iter).mapM statusCountFromDocument

/-- Map already validated v2 Evidence into its immutable read representation. -/
def snapshotV2FromValidEvidence (evidence : Value F) (evidenceRelativePath : Text) :
    Except Py.Error (Snapshot F) := do
  let snapshot ← snapshotFromDocument evidence evidenceRelativePath entryV2FromDocument
  let (data, _) ← documentParts evidence
  readKeys data [SnapshotKey.snapshotSchemaVersion, .hashPolicy, .allocatedKnownSum,
    .allocatedUnknownCount, .payloadObservationSummary]
  let policy := keyOf data SnapshotKey.hashPolicy
  readKeys policy (Named.all : List PolicyKey)
  let summary ← summaryFromDocument (keyOf data SnapshotKey.payloadObservationSummary)
  pure { snapshot with v2 := some {
    schemaVersion := keyOf data SnapshotKey.snapshotSchemaVersion
    hashPolicy := fun k => keyOf policy k
    allocatedKnownSum := keyOf data SnapshotKey.allocatedKnownSum
    allocatedUnknownCount := keyOf data SnapshotKey.allocatedUnknownCount
    summary } }

/-! ## Dictionaries of the dataclasses -/

def Observation.value (o : Observation F) : PayloadKey → Value F
  | .status => nameValue o.status
  | .provenance => (o.provenance.map nameValue).getD .none
  | .field f => o.field f

def Observation.toDict (o : Observation F) : Value F := .dict (record Named.name Named.all o.value)

def Entry.value (e : Entry F) : EntryKey → Value F
  | .field f => e.field f
  | .flag f => .bool (e.flag f)
  | .objectType => nameValue e.objectType
  | .observationStatus => nameValue e.observationStatus
  | .allocatedSizeBytes => (e.v2.map EntryV2.allocatedSizeBytes).getD .none
  | .payloadObservation => (e.v2.map fun v => v.observation.toDict).getD .none

/-- The fields of the entry's class. -/
def Entry.keys (e : Entry F) : List EntryKey := if e.v2.isSome then Named.all else EntryKey.v1

/-- `asdict(entry)` -/
def Entry.toDict (e : Entry F) : Value F := .dict (record Named.name e.keys e.value)

/-- `_entry_dict`, and `_json` of an entry. -/
def entryDict (e : Entry F) : Result (Value F) := jsonCopy e.toDict

def budgetDict (b : BudgetKey → Value F) : Value F := .dict (record Named.name Named.all b)

def policyDict (p : PolicyKey → Value F) : Value F := .dict (record Named.name Named.all p)

/-- `{"status_counts": [{"status": …, "count": …}, …]}` -/
def summaryDict (counts : List (PayloadObservationStatus × Value F)) : Value F :=
  .dict [(txt "status_counts", .list (counts.map fun c =>
    .dict [(txt "status", nameValue c.1), (txt "count", c.2)]))]

omit [SqliteFloat F] in
/-- A published summary is read back. -/
theorem summaryFromDocument_summaryDict (counts : List (PayloadObservationStatus × Value F)) :
    summaryFromDocument (summaryDict counts) = .ok counts := by
  have hitem (c : PayloadObservationStatus × Value F) : statusCountFromDocument
      (.dict [(txt "status", nameValue c.1), (txt "count", c.2)]) = .ok c := by
    have hstatus : enumOf PayloadObservationStatus (nameValue (F := F) c.1) = .ok c.1 := enumOf_eq_ok.2 rfl
    have hread : Value.item (.dict [(txt "status", nameValue c.1), (txt "count", c.2)]) (txt "status") =
        .ok (nameValue c.1) := rfl
    have hcount : Value.item (.dict [(txt "status", nameValue c.1), (txt "count", c.2)]) (txt "count") =
        .ok c.2 := by simp [Value.item, lookup_cons, txt, ch]
    rw [statusCountFromDocument, hread, ok_bind_ok, hstatus, ok_bind_ok, hcount]
    rfl
  have hread : Value.item (summaryDict counts) (txt "status_counts") = .ok (.list (counts.map fun c =>
      .dict [(txt "status", nameValue c.1), (txt "count", c.2)])) := rfl
  rw [summaryFromDocument, hread, ok_bind_ok, Value.iter, ok_bind_ok, mapM_eq_ok,
    List.forall₂_map_left_iff, List.forall₂_same]
  exact fun c _ => hitem c

end Steward
