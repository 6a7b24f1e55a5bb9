import Steward.Snapshot.Model

/-!
# Serializing Snapshots

`_json` and `_snapshot_dict` of `snapshots.py`: the dictionaries a Snapshot is
published as.
-/

namespace Steward

open Py Sqlite

variable {F : Type} [SqliteFloat F]

/-- The fields of the snapshot's class. -/
def Snapshot.keys (s : Snapshot F) : List SnapshotKey :=
  if s.v2.isSome then Named.all else SnapshotKey.v1Current

/-- A field of `asdict(snapshot)`. -/
def Snapshot.value (s : Snapshot F) : SnapshotKey → Value F
  | .field f => s.field f
  | .status => nameValue s.status
  | .consistency => nameValue s.consistency
  | .scopeIds => .list s.scopeIds
  | .budget => budgetDict s.budget
  | .entries => .list (s.entries.map Entry.toDict)
  | .snapshotSchemaVersion => (s.v2.map SnapshotV2.schemaVersion).getD .none
  | .hashPolicy => (s.v2.map fun v => policyDict v.hashPolicy).getD .none
  | .allocatedKnownSum => (s.v2.map SnapshotV2.allocatedKnownSum).getD .none
  | .allocatedUnknownCount => (s.v2.map SnapshotV2.allocatedUnknownCount).getD .none
  | .payloadObservationSummary => (s.v2.map fun v => .list (v.summary.map fun c =>
      .dict [(txt "status", nameValue c.1), (txt "count", c.2)])).getD .none

/-- `asdict(snapshot)` -/
def Snapshot.toDict (s : Snapshot F) : Value F := .dict (record Named.name s.keys s.value)

/-- Serialize the frozen v2 summary wrapper without changing its read model. -/
def snapshotDict (s : Snapshot F) : Result (Value F) := do
  let value ← jsonCopy s.toDict
  pure (match s.v2 with
    | none => value
    | some v => .dict (Json.assign (members value) (Named.name SnapshotKey.payloadObservationSummary)
        (summaryDict v.summary)))

/-- `{"snapshot": …, "entries": …}` -/
def snapshotPayload (s : Snapshot F) : Result (Value F) := do
  let snapshot ← snapshotDict s
  let entries ← s.entries.mapM entryDict
  pure (.dict [(txt "snapshot", snapshot), (txt "entries", .list entries)])

/-! ## The dictionaries repeat no key -/

section

omit [SqliteFloat F]

theorem wf_toValue (c : Cell F) : c.toValue.wf = true := by cases c <;> rfl

theorem wf_nameValue {α : Type} [Named α] (a : α) : (nameValue (F := F) a).wf = true := rfl

theorem wf_record {κ : Type} [Named κ] {ks : List κ} (hks : (names ks).Nodup) {f : κ → Value F}
    (hf : ∀ k, (f k).wf = true) : (Value.dict (record Named.name ks f)).wf = true := by
  rw [Value.wf_dict, keys_record]
  refine ⟨hks, fun p hp => ?_⟩
  obtain ⟨k, -, rfl⟩ := List.mem_map.1 hp
  exact hf k

end

structure Observation.Wf (o : Observation F) : Prop where
  field : ∀ f, (o.field f).wf = true

omit [SqliteFloat F] in
theorem Observation.wf_toDict {o : Observation F} (h : o.Wf) : o.toDict.wf = true := by
  refine wf_record Named.nodup fun k => ?_
  cases k with
  | status => rfl
  | provenance => rw [Observation.value]; cases o.provenance <;> rfl
  | field f => exact h.field f

structure Entry.Wf (e : Entry F) : Prop where
  field : ∀ f, (e.field f).wf = true
  v2 : ∀ v, e.v2 = some v → v.allocatedSizeBytes.wf = true ∧ v.observation.Wf

section

omit [SqliteFloat F]

theorem Entry.keys_nodup (e : Entry F) : (names e.keys).Nodup := by
  rw [Entry.keys]
  split_ifs
  · exact Named.nodup
  · exact names_nodup (by decide)

theorem Entry.wf_toDict {e : Entry F} (h : e.Wf) : e.toDict.wf = true := by
  refine wf_record e.keys_nodup fun k => ?_
  cases k with
  | field f => exact h.field f
  | flag f => rfl
  | objectType => rfl
  | observationStatus => rfl
  | allocatedSizeBytes =>
    rw [Entry.value]
    cases hv : e.v2 with
    | none => rfl
    | some v => exact (h.v2 v hv).1
  | payloadObservation =>
    rw [Entry.value]
    cases hv : e.v2 with
    | none => rfl
    | some v => exact Observation.wf_toDict (h.v2 v hv).2

theorem wf_keyOf {κ : Type} [Named κ] {v : Value F} (h : v.wf = true) (k : κ) : (keyOf v k).wf = true :=
  Value.wf_getIf h _

end

/-- No object inside the Snapshot repeats a key. -/
structure Snapshot.Wf (s : Snapshot F) : Prop where
  field : ∀ f, (s.field f).wf = true
  scopeIds : ∀ v ∈ s.scopeIds, v.wf = true
  budget : ∀ k, (s.budget k).wf = true
  entries : ∀ e ∈ s.entries, e.Wf
  schemaVersion : ∀ v, s.v2 = some v → v.schemaVersion.wf = true
  hashPolicy : ∀ v, s.v2 = some v → ∀ k, (v.hashPolicy k).wf = true
  allocated : ∀ v, s.v2 = some v →
    v.allocatedKnownSum.wf = true ∧ v.allocatedUnknownCount.wf = true
  summary : ∀ v, s.v2 = some v → ∀ c ∈ v.summary, c.2.wf = true

section

omit [SqliteFloat F]

theorem Snapshot.keys_nodup (s : Snapshot F) : (names s.keys).Nodup := by
  rw [Snapshot.keys]
  split_ifs
  · exact Named.nodup
  · exact names_nodup (by decide)

theorem wf_counts {counts : List (PayloadObservationStatus × Value F)}
    (h : ∀ c ∈ counts, c.2.wf = true) :
    (Value.list (counts.map fun c => .dict [(txt "status", nameValue c.1), (txt "count", c.2)])).wf =
      true := by
  rw [Value.wf_list]
  intro v hv
  obtain ⟨c, hc, rfl⟩ := List.mem_map.1 hv
  rw [Value.wf_dict]
  refine ⟨by simp [keys, txt, ch], fun f hf => ?_⟩
  simp only [List.mem_cons, List.not_mem_nil, or_false] at hf
  rcases hf with rfl | rfl
  exacts [wf_nameValue _, h c hc]

theorem wf_summaryDict {counts : List (PayloadObservationStatus × Value F)}
    (h : ∀ c ∈ counts, c.2.wf = true) : (summaryDict counts).wf = true := by
  rw [summaryDict, Value.wf_dict]
  refine ⟨by simp [keys], fun f hf => ?_⟩
  rw [List.mem_singleton.1 hf]
  exact wf_counts h

theorem Snapshot.wf_toDict {s : Snapshot F} (h : s.Wf) : s.toDict.wf = true := by
  refine wf_record s.keys_nodup fun k => ?_
  cases k with
  | field f => exact h.field f
  | status => rfl
  | consistency => rfl
  | scopeIds => exact Value.wf_list.2 h.scopeIds
  | budget => exact wf_record Named.nodup h.budget
  | entries =>
    refine Value.wf_list.2 fun v hv => ?_
    obtain ⟨e, he, rfl⟩ := List.mem_map.1 hv
    exact Entry.wf_toDict (h.entries e he)
  | snapshotSchemaVersion =>
    rw [Snapshot.value]
    cases hv : s.v2 with
    | none => rfl
    | some v => exact h.schemaVersion v hv
  | hashPolicy =>
    rw [Snapshot.value]
    cases hv : s.v2 with
    | none => rfl
    | some v => exact wf_record Named.nodup (h.hashPolicy v hv)
  | allocatedKnownSum =>
    rw [Snapshot.value]
    cases hv : s.v2 with
    | none => rfl
    | some v => exact (h.allocated v hv).1
  | allocatedUnknownCount =>
    rw [Snapshot.value]
    cases hv : s.v2 with
    | none => rfl
    | some v => exact (h.allocated v hv).2
  | payloadObservationSummary =>
    rw [Snapshot.value]
    cases hv : s.v2 with
    | none => rfl
    | some v => exact wf_counts (h.summary v hv)

end

theorem wf_jsonCopy {v w : Value F} (h : jsonCopy v = .ok w) : w.wf = true := by
  rw [jsonCopy, bind_eq_ok] at h
  obtain ⟨t, -, h⟩ := h
  split at h
  · rename_i hl
    cases h
    exact Json.wf_loads hl
  · cases h

theorem wf_snapshotDict {s : Snapshot F} (h : s.Wf) {v : Value F} (hv : snapshotDict s = .ok v) :
    v.wf = true := by
  rw [snapshotDict, bind_eq_ok] at hv
  obtain ⟨w, hw, hv⟩ := hv
  have hw' := wf_jsonCopy hw
  cases hs : s.v2 with
  | none => rw [hs] at hv; cases hv; exact hw'
  | some x =>
    rw [hs] at hv
    cases hv
    refine Json.wf_assign ?_ _ (wf_summaryDict (h.summary x hs))
    cases w <;> first | exact hw' | rfl

theorem wf_snapshotPayload {s : Snapshot F} (h : s.Wf) {v : Value F} (hv : snapshotPayload s = .ok v) :
    v.wf = true := by
  simp only [snapshotPayload, bind_eq_ok] at hv
  obtain ⟨data, hdata, entries, hentries, hv⟩ := hv
  cases hv
  rw [Value.wf_dict]
  refine ⟨by simp [keys, txt, ch], fun f hf => ?_⟩
  simp only [List.mem_cons, List.not_mem_nil, or_false] at hf
  rcases hf with rfl | rfl
  · exact wf_snapshotDict h hdata
  · refine Value.wf_list.2 fun w hw => ?_
    obtain ⟨e, -, he⟩ := exists_of_mem_mapM hentries hw
    exact wf_jsonCopy he

end Steward
