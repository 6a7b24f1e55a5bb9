import Steward.Snapshot.AcceptV1

/-!
# Accepted version 2 Evidence

What `_validate_snapshot_evidence_v2` has established about a document it
accepts: every test returned true, the recomputed aggregates and digests agree.
-/

namespace Steward

open Py Sqlite

variable {F : Type} [SqliteFloat F]

/-- The digested entries of a v2 document. -/
def entriesDomain (ordered : List (Value F)) : Value F :=
  .dict [(txt "domain", lit "local_steward.snapshot.entries.v2"),
    (txt "snapshot_schema_version", .int 2), (txt "entries", .list ordered)]

/-- The digested metadata of a v2 document. -/
def metadataDomain (data : List (Text × Value F)) : Value F :=
  .dict [(txt "domain", lit "local_steward.snapshot.metadata.v2"),
    (txt "snapshot", .dict (without undigested data))]

theorem safe_entriesDomain {items : List (Value F)} (h : ∀ d ∈ items, d.safe = true) :
    (entriesDomain items).safe = true := by
  have hkeys : ∀ k ∈ [txt "domain", txt "snapshot_schema_version", txt "entries"],
      Text.encodable k = true := by decide
  have hdomain : (txt "local_steward.snapshot.entries.v2").encodable = true := by decide
  rw [entriesDomain, Value.safe_dict]
  refine ⟨hkeys, ?_⟩
  simp only [List.forall_mem_cons, List.not_mem_nil, false_imp_iff, implies_true, and_true]
  exact ⟨hdomain, rfl, Value.safe_list.2 h⟩

theorem safe_metadataDomain {data : List (Text × Value F)}
    (h : (Value.dict (without undigested data)).safe = true) : (metadataDomain data).safe = true := by
  have hkeys : ∀ k ∈ [txt "domain", txt "snapshot"], Text.encodable k = true := by decide
  have hdomain : (txt "local_steward.snapshot.metadata.v2").encodable = true := by decide
  rw [metadataDomain, Value.safe_dict]
  refine ⟨hkeys, ?_⟩
  simp only [List.forall_mem_cons, List.not_mem_nil, false_imp_iff, implies_true, and_true]
  exact ⟨hdomain, h⟩

theorem canonicalEntries_singleton {d : Value F} (h : sortable d = true) :
    canonicalSnapshotV2Entries [d] = .ok [d] := by
  obtain ⟨k, hk⟩ := ok_v2EntrySortKey.2 h
  rw [canonicalSnapshotV2Entries, List.mapM_cons, hk]
  rfl

/-- The aggregates of the entries are the ones the document states. -/
structure SummarizedV2 (data : List (Text × Value F)) (items : List (Value F)) : Prop where
  statistics : ∃ s, snapshotStatistics items = .ok s ∧
    ∀ f ∈ s.items, (fieldOf data (SnapshotKey.field f.1)).eq f.2 = true
  knownSum : (fieldOf data SnapshotKey.allocatedKnownSum).eq (.int (allocatedKnownSum items)) = true
  unknownCount :
    (fieldOf data SnapshotKey.allocatedUnknownCount).eq (.int (allocatedUnknownCount items)) = true
  statuses :
    (fieldOf data SnapshotKey.payloadObservationSummary).eq (statusCounts (payloadStatuses items)) = true

structure AcceptedV2 (env : List (Text × Value F)) : Prop where
  envelope : hasKeys (memberNames EnvelopeKey) env = true
  version : (fieldOf env EnvelopeKey.schemaVersion).eq (.int 2) = true
  evidenceType : fieldOf env EnvelopeKey.evidenceType = lit "filesystem.snapshot"
  evidenceDigest : evidenceDigestValid env = .ok true
  payload : payloadShaped env = true
  shaped : snapshotShapedV2 env = true
  typed : typedSnapshotValid env = .ok true
  runId : (fieldOf (members (snapshotOf env)) (SnapshotKey.field .runId)).eq
    (fieldOf env EnvelopeKey.runId) = true
  payloads : allM (onDict validPayloadObservation) (elements (entriesOf env)) = .ok true
  entries : allM (onDict v2EntrySchemaValid) (elements (entriesOf env)) = .ok true
  sizes : (elements (entriesOf env)).all
    (dictAnd fun fs => isOptionalNonnegativeInt (fieldOf fs EntryKey.allocatedSizeBytes)) = true
  order : ∃ ordered, canonicalSnapshotV2Entries (elements (entriesOf env)) = .ok ordered ∧
    Value.sameList (elements (entriesOf env)) ordered = true ∧
    digestMatches true (fieldOf (members (snapshotOf env)) (SnapshotKey.field .entriesDigest))
      (digestOf (entriesDomain ordered)) = .ok true
  unique : keysDistinct (scopedKeys (elements (entriesOf env))) = .ok true
  ids : allM (onDict (entryIdValid (snapshotIdOf env))) (elements (entriesOf env)) = .ok true
  scopes : allM (onDict (scopeValid (snapshotIdOf env) (scopesOf env))) (elements (entriesOf env)) =
    .ok true
  paths : (elements (entriesOf env)).all
    (dictAnd fun fs => safePath (fieldOf fs (EntryKey.field .relativePath))) = true
  collection : (fieldOf (members (snapshotOf env)) SnapshotKey.entries).eq
    (.list (elements (entriesOf env))) = true
  summary : SummarizedV2 (members (snapshotOf env)) (elements (entriesOf env))
  snapshotDigest :
    digestMatches true (fieldOf (members (snapshotOf env)) (SnapshotKey.field .snapshotDigest))
      (digestOf (metadataDomain (members (snapshotOf env)))) = .ok true

theorem orOnEvidenceError_eq_ok {α : Type} {x : Result α} {a b : α} (h : orOnEvidenceError x a = .ok b)
    (hne : b ≠ a) : x = .ok b := by
  unfold orOnEvidenceError at h
  split at h
  · cases h; exact absurd rfl hne
  · exact h

theorem summaryMatchesV2_eq_true {data : List (Text × Value F)} {items : List (Value F)} :
    summaryMatchesV2 true true data items = .ok true ↔ SummarizedV2 data items := by
  unfold summaryMatchesV2 summaryItems
  simp only [if_true, Bool.true_and, bind_eq_ok, pure_eq_ok, Bool.and_eq_true, List.all_eq_true]
  constructor
  · rintro ⟨fs, hs, ⟨⟨h1, h2⟩, h3⟩, h4⟩
    cases hst : snapshotStatistics items with
    | error e => rw [hst] at hs; cases hs
    | ok s => rw [hst] at hs; cases hs; exact ⟨⟨s, hst, h1⟩, h2, h3, h4⟩
  · rintro ⟨⟨s, hs, h1⟩, h2, h3, h4⟩
    exact ⟨s.items, by rw [hs]; rfl, ⟨⟨h1, h2⟩, h3⟩, h4⟩

theorem digestsMatchV2_eq_true {data : List (Text × Value F)} {items : List (Value F)} :
    digestsMatchV2 true data items = .ok (true, true) ↔
      (∃ ordered, canonicalSnapshotV2Entries items = .ok ordered ∧
        digestMatches true (fieldOf data (SnapshotKey.field .entriesDigest))
          (digestOf (entriesDomain ordered)) = .ok true) ∧
      digestMatches true (fieldOf data (SnapshotKey.field .snapshotDigest))
        (digestOf (metadataDomain data)) = .ok true := by
  unfold digestsMatchV2
  constructor
  · intro h
    obtain ⟨e, he, h⟩ := bind_eq_ok.1 (orOnEvidenceError_eq_ok h (by simp))
    obtain ⟨s, hs, h⟩ := bind_eq_ok.1 h
    cases h
    refine ⟨?_, hs⟩
    cases hc : canonicalSnapshotV2Entries items with
    | error x => rw [snapshotV2EntriesDigest, hc] at he; cases he
    | ok ordered => rw [snapshotV2EntriesDigest, hc] at he; exact ⟨ordered, rfl, he⟩
  · rintro ⟨⟨ordered, hc, he⟩, hs⟩
    rw [snapshotV2EntriesDigest, hc, py_ok, ok_bind_ok, ← entriesDomain, he, ok_bind_ok,
      snapshotV2MetadataDigest, ← metadataDomain, hs]
    rfl

omit [SqliteFloat F] in
theorem isList_of_shapedV2 {env : List (Text × Value F)} (h : snapshotShapedV2 env = true) :
    (entriesOf env).isList = true := (Bool.and_eq_true_iff.1 h).2

/-- The v2 validator accepts exactly these documents. -/
theorem validateV2_accepts {env : List (Text × Value F)} :
    (∃ r, validateSnapshotEvidenceV2 env = .ok r ∧ r.valid = true) ↔ AcceptedV2 env := by
  constructor
  · rintro ⟨r, h, hv⟩
    unfold validateSnapshotEvidenceV2 at h
    obtain ⟨digestValid, hdigest, h⟩ := bind_eq_ok.1 h
    obtain ⟨typed, htyped, h⟩ := bind_eq_ok.1 h
    obtain ⟨payloads, hpayloads, h⟩ := bind_eq_ok.1 h
    obtain ⟨shaped, hshaped, h⟩ := bind_eq_ok.1 h
    obtain ⟨order, horder, h⟩ := bind_eq_ok.1 h
    obtain ⟨unique, hunique, h⟩ := bind_eq_ok.1 h
    obtain ⟨ids, hids, h⟩ := bind_eq_ok.1 h
    obtain ⟨scopes, hscopes, h⟩ := bind_eq_ok.1 h
    obtain ⟨summary, hsummary, h⟩ := bind_eq_ok.1 h
    obtain ⟨⟨entriesOk, snapshotOk⟩, hdigests, h⟩ := bind_eq_ok.1 h
    cases h
    simp only [ValidationV2.close, List.isEmpty_iff, problems_eq_nil] at hv
    simp only [v2Checks, List.forall_mem_cons, List.not_mem_nil, false_imp_iff, implies_true, and_true,
      Bool.and_eq_true] at hv
    obtain ⟨⟨h1, h1'⟩, h2, rfl, h4, h5, rfl, ⟨-, h6⟩, rfl, rfl, h9, rfl, rfl, rfl, rfl, h14, ⟨-, h15⟩,
      rfl, rfl, rfl⟩ := hv
    rw [isList_of_shapedV2 h5, if_pos rfl] at hshaped
    obtain ⟨⟨ordered, hc, he⟩, hs⟩ := digestsMatchV2_eq_true.1 hdigests
    have hsame : Value.sameList (elements (entriesOf env)) ordered = true := by
      rw [orderValidV2, if_pos rfl, hc] at horder
      exact pure_eq_ok.1 horder
    exact {
      envelope := h1
      version := h1'
      evidenceType := Value.eq_str.1 h2
      evidenceDigest := orOnEvidenceError_eq_ok hdigest (by simp)
      payload := h4
      shaped := h5
      typed := py_eq_ok.1 htyped
      runId := h6
      payloads := py_eq_ok.1 hpayloads
      entries := py_eq_ok.1 hshaped
      sizes := h9
      order := ⟨ordered, hc, hsame, he⟩
      unique := py_eq_ok.1 hunique
      ids := py_eq_ok.1 hids
      scopes := py_eq_ok.1 hscopes
      paths := h14
      collection := h15
      summary := summaryMatchesV2_eq_true.1 hsummary
      snapshotDigest := hs }
  · intro a
    obtain ⟨ordered, hc, hsame, he⟩ := a.order
    refine ⟨_, bind_eq_ok.2 ⟨true, by rw [a.evidenceDigest]; rfl,
      bind_eq_ok.2 ⟨true, py_eq_ok.2 a.typed,
      bind_eq_ok.2 ⟨true, py_eq_ok.2 a.payloads,
      bind_eq_ok.2 ⟨true, by rw [isList_of_shapedV2 a.shaped]; exact py_eq_ok.2 a.entries,
      bind_eq_ok.2 ⟨true, by rw [orderValidV2, if_pos rfl, hc]; exact pure_eq_ok.2 hsame,
      bind_eq_ok.2 ⟨true, py_eq_ok.2 a.unique,
      bind_eq_ok.2 ⟨true, py_eq_ok.2 a.ids,
      bind_eq_ok.2 ⟨true, py_eq_ok.2 a.scopes,
      bind_eq_ok.2 ⟨true, summaryMatchesV2_eq_true.2 a.summary,
      bind_eq_ok.2 ⟨(true, true), digestsMatchV2_eq_true.2 ⟨⟨ordered, hc, he⟩, a.snapshotDigest⟩,
      rfl⟩⟩⟩⟩⟩⟩⟩⟩⟩⟩, ?_⟩
    simp only [ValidationV2.close, List.isEmpty_iff, problems_eq_nil]
    simp only [v2Checks, List.forall_mem_cons, List.not_mem_nil, false_imp_iff, implies_true, and_true,
      Bool.and_eq_true]
    exact ⟨⟨a.envelope, a.version⟩, Value.eq_str.2 a.evidenceType, trivial, a.payload, a.shaped, trivial,
      ⟨trivial, a.runId⟩, trivial, trivial, a.sizes, trivial, trivial, trivial, trivial, a.paths,
      ⟨trivial, a.collection⟩⟩

/-! ## Dispatch -/

/-- `validate_snapshot_evidence(evidence).valid` -/
def Accepts (evidence : Value F) : Prop := ∃ r, validateSnapshotEvidence evidence = .ok r ∧ r.valid = true

/-- An accepted document has one of the two versions. -/
theorem accepts_iff {evidence : Value F} : Accepts evidence ↔
    snapshotEvidenceSchemaVersion evidence = some 1 ∧ AcceptedV1 (members evidence) ∨
      snapshotEvidenceSchemaVersion evidence = some 2 ∧ AcceptedV2 (members evidence) := by
  unfold Accepts validateSnapshotEvidence
  cases snapshotEvidenceSchemaVersion evidence with
  | none => simp [versionResult]
  | some n =>
    by_cases h1 : n = 1
    · simp [h1, validateV1_accepts]
    · by_cases h2 : n = 2
      · simp [h2, validateV2_accepts]
      · simp [h1, h2, versionResult]

end Steward
