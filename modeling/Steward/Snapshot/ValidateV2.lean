import Steward.Snapshot.FieldTests

/-!
# Version 2 Snapshot Evidence

`_validate_snapshot_evidence_v2`, the version dispatch, and `V2Total`: the
documents on which the v2 validator returns.
-/

namespace Steward

open Py Sqlite

variable {F : Type} [SqliteFloat F]

/-! ## Aggregates -/

/-- The size an entry contributes to `allocated_known_sum`. -/
def allocatedSize (item : Value F) : Int :=
  match keyOf item EntryKey.allocatedSizeBytes with
  | .int n => n
  | _ => 0

def allocatedKnownSum (items : List (Value F)) : Int :=
  ((items.filter isRegularFile).map allocatedSize).sum

def allocatedUnknownCount (items : List (Value F)) : Nat :=
  (items.filter isRegularFile).countP fun item => (keyOf item EntryKey.allocatedSizeBytes).isNone

def payloadStatuses (items : List (Value F)) : List Text :=
  items.filterMap fun item => str? (keyOf (keyOf item EntryKey.payloadObservation) PayloadKey.status)

/-- `{"status_counts": [{"status": s, "count": statuses.count(s)} for s in sorted(set(statuses))]}` -/
def statusCounts (statuses : List Text) : Value F :=
  .dict [(txt "status_counts", .list ((statuses.dedup.insertionSort (· ≤ ·)).map fun s =>
    .dict [(txt "status", .str s), (txt "count", .int (statuses.count s))]))]

/-- `snapshot_statistics(values) if entries_schema_valid else {}` -/
def summaryItems (shaped : Bool) (items : List (Value F)) : Result (List (SnapshotField × Value F)) :=
  if shaped then (fun s => s.items) <$> py (snapshotStatistics items) else .ok []

/-- `summary_valid`; the aggregates are those of no entries unless `shaped`. -/
def summaryMatchesV2 (typed shaped : Bool) (data : List (Text × Value F)) (items : List (Value F)) :
    Result Bool := do
  let summary ← summaryItems shaped items
  let counted := if shaped then items else []
  pure (typed &&
    (summary.all fun f => (fieldOf data (SnapshotKey.field f.1)).eq f.2) &&
    (fieldOf data SnapshotKey.allocatedKnownSum).eq (.int (allocatedKnownSum counted)) &&
    (fieldOf data SnapshotKey.allocatedUnknownCount).eq (.int (allocatedUnknownCount counted)) &&
    (fieldOf data SnapshotKey.payloadObservationSummary).eq (statusCounts (payloadStatuses counted)))

/-- `try: … except EvidenceError: …` -/
def orOnEvidenceError {α : Type} (x : Result α) (a : α) : Result α :=
  match x with
  | .error (.steward .evidenceError) => .ok a
  | x => x

/-- The two digest tests, in one `try`. -/
def digestsMatchV2 (typed : Bool) (data : List (Text × Value F)) (items : List (Value F)) :
    Result (Bool × Bool) :=
  orOnEvidenceError (do
    let e ← digestMatches typed (fieldOf data (SnapshotKey.field .entriesDigest))
      (snapshotV2EntriesDigest items)
    let s ← digestMatches typed (fieldOf data (SnapshotKey.field .snapshotDigest))
      (snapshotV2MetadataDigest data)
    pure (e, s)) (false, false)

/-- `values == canonical_snapshot_v2_entries(values) if entries_schema_valid else False` -/
def orderValidV2 (shaped : Bool) (items : List (Value F)) : Result Bool :=
  if shaped then do
    let ordered ← py (canonicalSnapshotV2Entries items)
    pure (Value.sameList items ordered)
  else pure false

/-! ## The validator -/

/-- The v2 result with the three flags that are only reported as problems. -/
structure ValidationV2 extends Validation where
  typedSnapshotValid : Bool
  payloadObservationsValid : Bool
  allocatedSizesValid : Bool
  entryCollectionValid : Bool

def v2Checks (v : ValidationV2) : List (Bool × Issue) :=
  [(v.envelopeValid, issue "SNAPSHOT_EVIDENCE_SCHEMA_INVALID" "invalid v2 evidence envelope schema"),
    (v.evidenceTypeValid,
      issue "SNAPSHOT_EVIDENCE_TYPE_INVALID" "evidence_type must be filesystem.snapshot"),
    (v.evidenceDigestValid, issue "SNAPSHOT_EVIDENCE_INVALID" "evidence digest mismatch"),
    (v.payloadSchemaValid,
      issue "SNAPSHOT_PAYLOAD_SCHEMA_INVALID" "payload must contain snapshot and entries"),
    (v.snapshotSchemaValid, issue "SNAPSHOT_PAYLOAD_SCHEMA_INVALID" "invalid v2 snapshot schema"),
    (v.typedSnapshotValid, issue "SNAPSHOT_PAYLOAD_SCHEMA_INVALID" "invalid v2 snapshot field types"),
    (v.runIdConsistent,
      issue "SNAPSHOT_RUN_ID_MISMATCH" "snapshot run_id differs from evidence run_id"),
    (v.entriesSchemaValid,
      issue "SNAPSHOT_ENTRY_SCHEMA_INVALID" "invalid v2 entry or payload observation"),
    (v.payloadObservationsValid, issue "PAYLOAD_OBSERVATION_INVALID" "invalid payload observation"),
    (v.allocatedSizesValid,
      issue "ALLOCATED_SIZE_INVALID" "allocated size must be non-negative or null"),
    (v.entryOrderValid, issue "SNAPSHOT_ENTRY_ORDER_INVALID" "entries are not sorted"),
    (v.entryKeysUnique, issue "SNAPSHOT_ENTRY_DUPLICATE" "duplicate scoped location"),
    (v.entryIdsValid, issue "SNAPSHOT_ENTRY_ID_INVALID" "invalid entry id"),
    (v.scopeMembershipValid, issue "SNAPSHOT_SCOPE_MISMATCH" "invalid entry scope"),
    (v.pathsValid, issue "SNAPSHOT_PATH_INVALID" "invalid entry path"),
    (v.entryCollectionValid,
      issue "SNAPSHOT_ENTRY_COLLECTION_MISMATCH" "snapshot entries differ from payload entries"),
    (v.summaryValid, issue "SNAPSHOT_SUMMARY_INVALID" "snapshot summary or aggregate mismatch"),
    (v.entriesDigestValid, issue "SNAPSHOT_ENTRIES_DIGEST_INVALID" "entries digest mismatch"),
    (v.snapshotDigestValid, issue "SNAPSHOT_DIGEST_INVALID" "snapshot digest mismatch")]

/-- The reported result: `snapshot_schema_valid` and the field types are one flag there. -/
def ValidationV2.close (v : ValidationV2) : Validation :=
  { v.toValidation with
    snapshotSchemaValid := v.snapshotSchemaValid && v.typedSnapshotValid
    errors := problems (v2Checks v)
    valid := (problems (v2Checks v)).isEmpty }

/-- Validate one v2 Snapshot fact without SQLite, Run, or filesystem access. -/
def validateSnapshotEvidenceV2 (env : List (Text × Value F)) : Result Validation := do
  let digestValid ← orOnEvidenceError (evidenceDigestValid env) false
  let data := members (snapshotOf env)
  let items := elements (entriesOf env)
  let typed ← py (typedSnapshotValid env)
  let payloads ← py (allM (onDict validPayloadObservation) items)
  let shaped ← py (if (entriesOf env).isList then allM (onDict v2EntrySchemaValid) items
    else .ok false)
  let order ← orderValidV2 shaped items
  let unique ← py (keysDistinct (scopedKeys items))
  let ids ← py (allM (onDict (entryIdValid (snapshotIdOf env))) items)
  let scopes ← py (allM (onDict (scopeValid (snapshotIdOf env) (scopesOf env))) items)
  let summary ← summaryMatchesV2 typed shaped data items
  let digests ← digestsMatchV2 typed data items
  pure (ValidationV2.close {
    evidenceId := str? (fieldOf env EnvelopeKey.evidenceId)
    snapshotId := snapshotIdOf env
    valid := false
    envelopeValid := hasKeys (memberNames EnvelopeKey) env &&
      (fieldOf env EnvelopeKey.schemaVersion).eq (.int 2)
    evidenceDigestValid := digestValid
    evidenceTypeValid := (fieldOf env EnvelopeKey.evidenceType).eq (lit "filesystem.snapshot")
    payloadSchemaValid := payloadShaped env
    runIdConsistent := typed &&
      (fieldOf data (SnapshotKey.field .runId)).eq (fieldOf env EnvelopeKey.runId)
    snapshotSchemaValid := snapshotShapedV2 env
    typedSnapshotValid := typed
    entriesSchemaValid := shaped
    payloadObservationsValid := payloads
    allocatedSizesValid := items.all
      (dictAnd fun fs => isOptionalNonnegativeInt (fieldOf fs EntryKey.allocatedSizeBytes))
    entryOrderValid := order
    entryKeysUnique := unique
    entryIdsValid := ids
    scopeMembershipValid := scopes
    pathsValid := items.all (dictAnd fun fs => safePath (fieldOf fs (EntryKey.field .relativePath)))
    entryCollectionValid := typed && (fieldOf data SnapshotKey.entries).eq (.list items)
    summaryValid := summary
    entriesDigestValid := digests.1
    snapshotDigestValid := digests.2
    errors := [] })

/-! ## Dispatch -/

/-- The one version-dispatch entry; `none` denotes a malformed discriminator. -/
def snapshotEvidenceSchemaVersion (evidence : Value F) : Option Int :=
  match evidence with
  | .dict env => match fieldOf env EnvelopeKey.schemaVersion with
    | .int n => if 0 < n then some n else none
    | _ => none
  | _ => none

omit [SqliteFloat F] in
theorem snapshotEvidenceSchemaVersion_of_field {env : List (Text × Value F)} {n : Int}
    (h : fieldOf env EnvelopeKey.schemaVersion = .int n) (hn : 0 < n) :
    snapshotEvidenceSchemaVersion (.dict env) = some n := by
  rw [snapshotEvidenceSchemaVersion, h]
  exact if_pos hn

def versionResult (evidence : Value F) (i : Issue) : Validation :=
  { evidenceId := str? (keyOf evidence EnvelopeKey.evidenceId)
    snapshotId := none
    valid := false
    envelopeValid := false
    evidenceDigestValid := false
    evidenceTypeValid := false
    payloadSchemaValid := false
    runIdConsistent := false
    snapshotSchemaValid := false
    entriesSchemaValid := false
    entryOrderValid := false
    entryKeysUnique := false
    entryIdsValid := false
    scopeMembershipValid := false
    pathsValid := false
    summaryValid := false
    entriesDigestValid := false
    snapshotDigestValid := false
    errors := [i] }

/-- Dispatch Snapshot Evidence exactly once by its required envelope version. -/
def validateSnapshotEvidence (evidence : Value F) : Result Validation :=
  match snapshotEvidenceSchemaVersion evidence with
  | none => .ok (versionResult evidence
      (issue "EVIDENCE_SCHEMA_VERSION_INVALID" "invalid or missing schema_version"))
  | some n =>
    if n = 1 then validateSnapshotEvidenceV1 (members evidence)
    else if n = 2 then validateSnapshotEvidenceV2 (members evidence)
    else .ok (versionResult evidence
      (issue "EVIDENCE_SCHEMA_VERSION_UNSUPPORTED" "unsupported schema_version"))

/-! ## When it returns -/

structure V2Total (env : List (Text × Value F)) : Prop where
  typed : typedTotal env = true
  payloads : ∀ item ∈ reached (dictAnd payloadValid) (elements (entriesOf env)),
    dictImp payloadTotal item = true
  entries : ∀ item ∈ reached (dictAnd entryValid) (elements (entriesOf env)),
    dictImp entryTotal item = true
  order : (entriesOf env).isList = true → (elements (entriesOf env)).all (dictAnd entryValid) = true →
    (elements (entriesOf env)).all sortable = true
  keys : keysHashable (scopedKeys (elements (entriesOf env))) = true
  ids : ∀ item ∈ reached (dictAnd (idMatches (snapshotIdOf env))) (elements (entriesOf env)),
    dictImp (identityEncodable (snapshotIdOf env)) item = true
  scopes : ∀ item ∈ reached (dictAnd (scopeHolds (snapshotIdOf env) (scopesOf env)))
      (elements (entriesOf env)),
    dictImp (scopeTotal (snapshotIdOf env) (scopesOf env)) item = true
  digests : typedValid env = true → (elements (entriesOf env)).all sortable = true

theorem evidenceDigestValid_error {env : List (Text × Value F)} {e : Exc}
    (h : evidenceDigestValid env = .error e) : e = .steward .evidenceError := by
  unfold evidenceDigestValid at h
  cases hd : fieldOf env EnvelopeKey.evidenceDigest with
  | str s =>
    simp only [hd] at h
    exact digestOf_error (bind_eq_error.1 h |>.resolve_right (by rintro ⟨_, _, ⟨⟩⟩))
  | _ => simp only [hd] at h; cases h

theorem ok_orOnEvidenceError {α : Type} {x : Result α} {a : α} :
    Ok (orOnEvidenceError x a) ↔ Ok x ∨ x = .error (.steward .evidenceError) := by
  unfold orOnEvidenceError
  split
  · simp
  · rename_i h
    exact (or_iff_left (h ·)).symm

theorem ok_digestsMatchV2 {typed : Bool} {data : List (Text × Value F)} {items : List (Value F)} :
    Ok (digestsMatchV2 typed data items) ↔ (typed = true → items.all sortable = true) := by
  rw [digestsMatchV2, ok_orOnEvidenceError]
  cases typed with
  | false => exact iff_of_true (.inl ⟨(false, false), rfl⟩) (by simp)
  | true =>
    rw [← ok_canonicalEntries]
    simp only [digestMatches, if_pos, snapshotV2EntriesDigest, snapshotV2MetadataDigest, true_imp_iff]
    cases hc : canonicalSnapshotV2Entries items with
    | error e => cases e <;> simp [py, Except.mapError]
    | ok ordered =>
      refine iff_of_true ?_ (ok_ok _)
      rw [py_ok, ok_bind_ok]
      rcases digestOf_cases (Value.dict [(txt "domain", lit "local_steward.snapshot.entries.v2"),
        (txt "snapshot_schema_version", .int 2), (txt "entries", .list ordered)]) with ⟨d, hd⟩ | hd
      · rw [hd]
        rcases digestOf_cases (Value.dict [(txt "domain", lit "local_steward.snapshot.metadata.v2"),
          (txt "snapshot", .dict (without undigested data))]) with ⟨d', hd'⟩ | hd'
        · rw [hd']; exact .inl ⟨_, rfl⟩
        · rw [hd']; exact .inr rfl
      · rw [hd]; exact .inr rfl

/-! ## Valid entries are countable -/

omit [SqliteFloat F] in
theorem hasKey_of_entryHead {fs : List (Text × Value F)} (h : entryHead fs = true) (k : EntryKey) :
    hasKey (.dict fs) k = true := by
  rw [entryHead, Bool.and_eq_true] at h
  obtain ⟨v, hv⟩ := lookup_of_hasKeys h.1 (mem_names (Named.complete k))
  simp [hasKey, hv]

theorem num_of_optionalInt {v : Value F} (h : isOptionalInt v = true) :
    ∃ n, (if v.truthy then v else .int 0).num? = some (.int n) := by
  cases v with
  | none => exact ⟨0, rfl⟩
  | int n =>
    by_cases hn : (Value.int (F := F) n).truthy = true
    · rw [if_pos hn]; exact ⟨n, rfl⟩
    · rw [if_neg hn]; exact ⟨0, rfl⟩
  | _ => cases h

theorem ok_statistics_of_valid {items : List (Value F)}
    (h : items.all (dictAnd entryValid) = true) : Ok (snapshotStatistics items) := by
  rw [List.all_eq_true] at h
  have hitem : ∀ item ∈ items, ∃ fs, item = .dict fs ∧ entryHead fs = true ∧ entryTail fs = true := by
    intro item hi
    cases item with
    | dict fs =>
      have := h _ hi
      simp only [dictAnd, entryValid, Bool.and_eq_true] at this
      exact ⟨fs, rfl, this.1.1.1.1, this.1.2⟩
    | _ => cases h _ hi
  refine ok_snapshotStatistics.2 ⟨fun item hi => ?_, sum_integers fun v hv => ?_,
    sum_integers fun v hv => ?_⟩
  · obtain ⟨fs, rfl, hh, -⟩ := hitem item hi
    have hpath : (keyOf (.dict fs) (EntryKey.field .relativePath)).isStr = true := by
      rw [entryHead, Bool.and_eq_true, List.all_eq_true] at hh
      exact hh.2 .relativePath (by decide)
    simp [Countable, hasKey_of_entryHead hh, hpath]
  · obtain ⟨item, hi, rfl⟩ := List.mem_map.1 hv
    obtain ⟨fs, rfl, -, ht⟩ := hitem item hi
    simp only [entryTail, Bool.and_eq_true, List.all_eq_true] at ht
    have hb := ht.1.1.1 .excluded (by decide)
    change ∃ n, (fieldOf fs (EntryKey.flag .excluded)).num? = _
    cases hf : fieldOf fs (EntryKey.flag .excluded) with
    | bool b => exact ⟨_, rfl⟩
    | _ => rw [hf] at hb; cases hb
  · obtain ⟨item, hi, hs⟩ := List.mem_filterMap.1 hv
    obtain ⟨fs, rfl, -, ht⟩ := hitem item hi
    simp only [entryTail, Bool.and_eq_true, List.all_eq_true] at ht
    rw [sizeOf?] at hs
    by_cases hr : isRegularFile (.dict fs) = true
    · rw [if_pos hr] at hs
      cases hs
      exact num_of_optionalInt (ht.1.1.2 .sizeBytes (by decide))
    · rw [if_neg hr] at hs; cases hs

theorem ok_summaryMatchesV2 {typed shaped : Bool} {data : List (Text × Value F)}
    {items : List (Value F)} (h : shaped = true → items.all (dictAnd entryValid) = true) :
    Ok (summaryMatchesV2 typed shaped data items) := by
  unfold summaryMatchesV2
  rw [ok_bind_of_total fun _ => ok_pure _]
  cases shaped with
  | false => exact ok_ok _
  | true => exact ok_map.2 (ok_py_iff.2 (ok_statistics_of_valid (h rfl)))

theorem ok_orderValidV2 {shaped : Bool} {items : List (Value F)} :
    Ok (orderValidV2 shaped items) ↔ (shaped = true → items.all sortable = true) := by
  rw [orderValidV2, ← ok_canonicalEntries]
  cases shaped <;> simp [ok_map]

omit [SqliteFloat F] in
theorem elements_of_not_list {v : Value F} (h : v.isList = false) : elements v = [] := by
  cases v <;> first | rfl | cases h

/-- The v2 validator returns exactly on the `V2Total` documents. -/
theorem ok_validateV2 {env : List (Text × Value F)} :
    Ok (validateSnapshotEvidenceV2 env) ↔ V2Total env := by
  set items := elements (entriesOf env) with hitems
  have hdigest : Ok (orOnEvidenceError (evidenceDigestValid env) false) := by
    rw [ok_orOnEvidenceError]
    cases h : evidenceDigestValid env with
    | ok b => exact .inl (ok_ok b)
    | error e => exact .inr (by rw [evidenceDigestValid_error h])
  have hshaped : Checks (if (entriesOf env).isList then allM (onDict v2EntrySchemaValid) items
      else .ok false) ((reached (dictAnd entryValid) items).all (dictImp entryTotal))
      ((entriesOf env).isList && items.all (dictAnd entryValid)) := by
    refine (checks_ite (fun _ => checks_allM fun item _ =>
      checks_onDict checks_v2EntrySchemaValid item) fun _ => checks_ok _).of_eq ?_ fun _ => ?_
    · cases hl : (entriesOf env).isList with
      | true => rfl
      | false => rw [hitems, elements_of_not_list hl]; rfl
    · cases (entriesOf env).isList <;> rfl
  unfold validateSnapshotEvidenceV2
  rw [ok_bind_const fun _ => (checks_typedSnapshotValid env).ok_bind.trans <| and_congr_right' <|
    (checks_allM fun item _ => checks_onDict checks_validPayloadObservation item).ok_bind.trans <|
    and_congr_right' <| hshaped.ok_bind.trans <| and_congr_right' <| ok_bind_const fun _ =>
    (checks_keysDistinct _).ok_bind.trans <| and_congr_right' <|
    (checks_allM fun item _ => checks_onDict (checks_entryIdValid _) item).ok_bind.trans <|
    and_congr_right' <|
    (checks_allM fun item _ => checks_onDict (checks_scopeValid _ _) item).ok_bind.trans <|
    and_congr_right' <| ok_bind_const fun _ => ok_bind_of_total fun _ => ok_pure _]
  simp only [ok_orderValidV2, ok_digestsMatchV2, List.all_eq_true (l := reached _ _)]
  have hsum : Ok (summaryMatchesV2 (typedValid env)
      ((entriesOf env).isList && items.all (dictAnd entryValid)) (members (snapshotOf env)) items) :=
    ok_summaryMatchesV2 fun h => (Bool.and_eq_true_iff.1 h).2
  constructor
  · rintro ⟨-, h1, h2, h3, h4, h5, h6, h7, -, h8⟩
    exact ⟨h1, h2, h3, fun hl ha => h4 (by rw [hl, ha]; rfl), h5, h6, h7, h8⟩
  · rintro ⟨h1, h2, h3, h4, h5, h6, h7, h8⟩
    refine ⟨hdigest, h1, h2, h3, fun h => ?_, h5, h6, h7, hsum, h8⟩
    rw [Bool.and_eq_true] at h
    exact h4 h.1 h.2

end Steward
