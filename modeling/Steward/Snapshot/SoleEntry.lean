import Steward.Evidence.Envelope
import Steward.Snapshot.AcceptV2
import Steward.Snapshot.Serialize
import Steward.Sqlite.Integral

/-!
# An accepted Snapshot of one file

`Sole` has one hashed file of three bytes, read directly or reused from a named
Snapshot. Its v2 Evidence is accepted and is mapped to the Snapshot it is of.
-/

namespace Steward

open Py Sqlite

/-- The Snapshot, where its payload is from, and the value of the five times and numbers of the file's `stat`. -/
structure Sole where
  id : Text
  provenance : PayloadObservationProvenance
  source : Value Integral
  stat : Value Integral
  encodable : id.encodable = true
  known : stat = .none ∨ stat = .int 1
  named : provenance = .directRead ∧ source = .none ∨ provenance = .reusedFromVerifiedSnapshot ∧
    ∃ t, source = .str t ∧ t.encodable = true ∧ (Runtime.uuidVersion Integral t).isSome = true

namespace Sole

variable (x : Sole)

def observation : Observation Integral where
  status := .hashed
  provenance := some x.provenance
  field
    | .algorithm => lit "sha256"
    | .algorithmVersion => .int 1
    | .digest => .str (Runtime.sha256 Integral [])
    | .bytesHashed => .int 3
    | .reusedFromSnapshotId => x.source
    | _ => .none

def entry : Entry Integral where
  field
    | .entryId => .str (Runtime.sha256 Integral (Text.utf8 (entryIdText x.id (txt "s") (txt "f"))))
    | .snapshotId => .str x.id
    | .scopeId => lit "s"
    | .relativePath => lit "f"
    | .sizeBytes => .int 3
    | .deviceId | .inode | .mtimeNs | .ctimeNs | .birthtimeNs => x.stat
    | _ => .none
  flag _ := false
  objectType := .regularFile
  observationStatus := .observed
  v2 := some ⟨.none, x.observation⟩

def policy : PolicyKey → Value Integral
  | .algorithm => lit "sha256"
  | .algorithmVersion | .hashChunkSize => .int 1
  | .allowNonLocalContent => .bool false
  | .allowVerifiedReuse => .bool true
  | _ => .none

/-- The metadata without its own digest. -/
def metadata : SnapshotKey → Value Integral
  | .field .snapshotId => .str x.id
  | .field .entriesDigest => .str (sha (entriesDomain [x.entry.toDict]))
  | .field .entryCount | .field .observedCount | .field .maxDepthObserved => .int 1
  | .field .errorCount | .field .excludedCount => .int 0
  | .field .totalRegularFileBytes => .int 3
  | .field _ => lit "t"
  | .status => nameValue SnapshotStatus.complete
  | .consistency => nameValue SnapshotConsistency.bestEffortPointInTime
  | .scopeIds => .list [lit "s"]
  | .budget => budgetDict fun _ => .int 1
  | .entries => .list [x.entry.toDict]
  | .snapshotSchemaVersion => .int 2
  | .hashPolicy => policyDict policy
  | .allocatedKnownSum => .int 0
  | .allocatedUnknownCount => .int 1
  | .payloadObservationSummary => statusCounts [Named.name PayloadObservationStatus.hashed]

def data (k : SnapshotKey) : Value Integral :=
  if k = .field .snapshotDigest then .str (sha (metadataDomain (record Named.name Named.all x.metadata)))
  else x.metadata k

def fields : EnvelopeKey → Value Integral
  | .schemaVersion => .int 2
  | .evidenceType => lit "filesystem.snapshot"
  | .runId => lit "t"
  | .sequence => .int 3
  | .payload => .dict [(txt "snapshot", .dict (record Named.name Named.all x.data)),
      (txt "entries", .list [x.entry.toDict])]
  | _ => .none

def envelope : List (Text × Value Integral) := Steward.envelope (sealFields x.fields)


variable {x}

theorem payloadOf_sole : payloadOf x.envelope =
    .dict [(txt "snapshot", .dict (record Named.name Named.all x.data)),
      (txt "entries", .list [x.entry.toDict])] := by
  rw [payloadOf, envelope, fieldOf_envelope]; rfl

theorem snapshotOf_sole : snapshotOf x.envelope = .dict (record Named.name Named.all x.data) := by
  rw [snapshotOf, payloadOf_sole]; rfl

theorem entriesOf_sole : entriesOf x.envelope = .list [x.entry.toDict] := by
  rw [entriesOf, payloadOf_sole]; rfl

theorem fieldOf_data (k : SnapshotKey) :
    fieldOf (record Named.name Named.all x.data) k = x.data k := fieldOf_record (Named.complete k)

theorem fieldOf_entry (k : EntryKey) : fieldOf (members x.entry.toDict) k = x.entry.value k :=
  fieldOf_record (Named.complete k)

theorem fieldOf_observation (k : PayloadKey) :
    fieldOf (record Named.name Named.all x.observation.value) k = x.observation.value k :=
  fieldOf_record (Named.complete k)

theorem fieldOf_policy (k : PolicyKey) :
    fieldOf (record Named.name Named.all policy) k = policy k := fieldOf_record (Named.complete k)

/-! ### It is strict JSON -/

theorem safe_source : x.source.safe = true := by
  rcases x.named with ⟨-, h⟩ | ⟨-, t, h, ht, -⟩
  · rw [h]
    rfl
  · rw [h]
    exact ht

theorem safe_stat : x.stat.safe = true := by
  rcases x.known with h | h <;> rw [h] <;> rfl

theorem safe_observation : x.observation.toDict.safe = true := by
  refine safe_record fun k _ => ?_
  rcases k with _ | _ | f
  · exact Named.encodable PayloadObservationStatus.hashed
  · exact Named.encodable x.provenance
  · cases f
    case algorithm => exact (by decide : (txt "sha256").encodable = true)
    case digest => exact sha256_encodable _
    case reusedFromSnapshotId => exact safe_source
    all_goals rfl

theorem safe_entry : x.entry.toDict.safe = true := by
  refine safe_record fun k _ => ?_
  rcases k with f | f | _ | _ | _ | _
  · cases f
    case entryId => exact sha256_encodable _
    case snapshotId => exact x.encodable
    case scopeId => exact (by decide : (txt "s").encodable = true)
    case relativePath => exact (by decide : (txt "f").encodable = true)
    case deviceId | inode | mtimeNs | ctimeNs | birthtimeNs => exact safe_stat
    all_goals rfl
  · rfl
  · exact Named.encodable FilesystemObjectType.regularFile
  · exact Named.encodable FilesystemObservationStatus.observed
  · rfl
  · exact safe_observation

theorem safe_metadata (k : SnapshotKey) : (x.metadata k).safe = true := by
  have htext : (txt "t").encodable = true := by decide
  cases k with
  | field f =>
    cases f
    case snapshotId => exact x.encodable
    case entriesDigest => exact sha_encodable _
    case runId | createdAt | startedAt | completedAt | configDigest | snapshotDigest => exact htext
    all_goals rfl
  | entries => exact Value.safe_list.2 (by simp [safe_entry])
  | status => exact Named.encodable SnapshotStatus.complete
  | consistency => exact Named.encodable SnapshotConsistency.bestEffortPointInTime
  | scopeIds => exact (by decide : (Value.list (F := Integral) [lit "s"]).safe = true)
  | budget => exact (by decide : (budgetDict (F := Integral) fun _ => .int 1).safe = true)
  | hashPolicy => exact (by decide : (policyDict policy).safe = true)
  | payloadObservationSummary =>
    exact (by decide : (statusCounts (F := Integral) [Named.name PayloadObservationStatus.hashed]).safe = true)
  | _ => rfl

theorem safe_data : (Value.dict (record Named.name Named.all x.data)).safe = true := by
  refine safe_record fun k _ => ?_
  rw [data]
  split_ifs
  · exact sha_encodable _
  · exact safe_metadata k

theorem sealed_sole : Sealed (sealFields x.fields) := by
  refine sealed_sealFields (safe_record fun k _ => ?_)
  have hkeys : (txt "snapshot").encodable = true ∧ (txt "entries").encodable = true := by decide
  cases k
  case payload =>
    rw [fields, Value.safe_dict]
    simp only [List.map_cons, List.map_nil, keys, List.forall_mem_cons, List.not_mem_nil, false_imp_iff,
      implies_true, and_true]
    exact ⟨hkeys, safe_data, Value.safe_list.2 (by simp [safe_entry])⟩
  case evidenceType => exact (by decide : (txt "filesystem.snapshot").encodable = true)
  case runId => exact (by decide : (txt "t").encodable = true)
  all_goals rfl

/-- The digest keys are not digested. -/
theorem without_data : without undigested (record Named.name Named.all x.data) =
    without undigested (record Named.name Named.all x.metadata) := by
  rw [undigested, without_record, without_record]
  refine List.map_congr_left fun k hk => ?_
  have hne : k ≠ .field .snapshotDigest := by
    rintro rfl
    simp at hk
  simp [data, hne]

/-! ### No object repeats a key -/

theorem wf_source : x.source.wf = true := by
  rcases x.named with ⟨-, h⟩ | ⟨-, t, h, -⟩ <;> rw [h] <;> rfl

theorem wf_stat : x.stat.wf = true := by
  rcases x.known with h | h <;> rw [h] <;> rfl

theorem wf_entry : x.entry.Wf where
  field f := by cases f <;> first | rfl | exact wf_stat
  v2 v hv := by
    cases hv
    exact ⟨rfl, ⟨fun f => by cases f <;> first | rfl | exact wf_source⟩⟩

theorem wf_counts :
    (statusCounts (F := Integral) [Named.name PayloadObservationStatus.hashed]).wf = true := by
  have hone : ∀ c ∈ [(PayloadObservationStatus.hashed, Value.int (F := Integral) 1)], c.2.wf = true := by
    simp [Value.wf, Value.everywhere, Value.distinctKeys]
  exact wf_summaryDict hone

theorem wf_data : (Value.dict (record Named.name Named.all x.data)).wf = true := by
  refine wf_record Named.nodup fun k => ?_
  rw [data]
  split_ifs
  · rfl
  cases k with
  | field f => cases f <;> rfl
  | entries => exact Value.wf_list.2 (by simp [Entry.wf_toDict wf_entry])
  | budget => exact wf_record Named.nodup fun _ => rfl
  | hashPolicy => exact wf_record Named.nodup fun k => by cases k <;> rfl
  | payloadObservationSummary => exact wf_counts
  | scopeIds => rfl
  | _ => rfl

theorem wf_envelope : (Value.dict x.envelope).wf = true := by
  refine wf_record Named.nodup fun k => ?_
  rw [sealFields]
  split_ifs
  · rfl
  cases k
  case payload =>
    rw [fields, Value.wf_dict]
    simp only [List.forall_mem_cons, List.not_mem_nil, false_imp_iff, implies_true, and_true]
    exact ⟨(by decide : [txt "snapshot", txt "entries"].Nodup), wf_data,
      Value.wf_list.2 (by simp [Entry.wf_toDict wf_entry])⟩
  all_goals rfl

/-! ### The validator accepts it -/

theorem isMember_nameValue {α : Type} [Named α] (a : α) : isMember (F := Integral) α (nameValue a) = true :=
  isMember_iff.2 ⟨a, rfl⟩

theorem policyValid_sole : validHashPolicy (policyDict policy) = .ok true := by
  have hhead : policyHead (record Named.name Named.all policy) = true := by
    simp only [policyHead, fieldOf_policy, Bool.and_eq_true]
    exact ⟨⟨⟨⟨hasKeys_record fun _ => Iff.rfl, by decide⟩, rfl⟩, rfl⟩, rfl⟩
  have htail : policyTail (record Named.name Named.all policy) = true := by
    simp only [policyTail, fieldOf_policy]; rfl
  rw [policyDict, validHashPolicy, hhead, if_pos rfl, fieldOf_policy, htail]
  rfl

theorem observationOf_sole : observationOf (members x.entry.toDict) =
    some (record Named.name Named.all x.observation.value) := by
  have h : fieldOf (members x.entry.toDict) EntryKey.payloadObservation = x.observation.toDict :=
    fieldOf_entry _
  rw [observationOf, h, Observation.toDict]
  exact if_pos (hasKeys_record fun _ => Iff.rfl)

theorem isSha256Hex_sha (bs : List Byte) : isSha256Hex (F := Integral) (.str (Runtime.sha256 Integral bs)) = true := by
  rw [isSha256Hex, Bool.and_eq_true, decide_eq_true_eq]
  exact ⟨Runtime.sha256_length bs, Runtime.sha256_hex bs⟩

theorem payloadTail_sole :
    payloadTail (members x.entry.toDict) (record Named.name Named.all x.observation.value) = true := by
  have hprovenance : x.observation.value PayloadKey.provenance = nameValue x.provenance := rfl
  have hsource : x.observation.value (PayloadKey.field .reusedFromSnapshotId) = x.source := rfl
  simp only [payloadTail, fieldOf_observation, fieldOf_entry, hprovenance, hsource, Bool.and_eq_true]
  refine ⟨⟨⟨⟨⟨rfl, rfl⟩, rfl⟩, rfl⟩, rfl⟩, ?_⟩
  rcases x.named with ⟨hdirect, hnone⟩ | ⟨hreused, t, htext, -, hversion⟩
  · rw [hdirect, hnone]
    rfl
  · rw [hreused, htext, if_neg (by decide)]
    exact hversion

theorem payloadValid_sole : payloadValid (members x.entry.toDict) = true := by
  have hcodes : payloadCodes (record Named.name Named.all x.observation.value) = true := by
    simp only [payloadCodes, fieldOf_observation]
    rfl
  have hsuccess : isSuccess (record Named.name Named.all x.observation.value) = true := by
    simp only [isSuccess, fieldOf_observation]
    exact (by decide : decide (Named.name PayloadObservationStatus.hashed ∈ successStatuses) = true)
  have hhead : payloadHead (record Named.name Named.all x.observation.value) = true := by
    simp only [payloadHead, fieldOf_observation, Bool.and_eq_true]
    exact ⟨⟨⟨⟨⟨Value.eq_str.2 rfl, rfl⟩, isSha256Hex_sha []⟩, rfl⟩, rfl⟩, rfl⟩
  simp only [payloadValid, observationOf_sole, hcodes, hsuccess, hhead, payloadTail_sole, fieldOf_observation,
    Bool.and_true, Bool.true_and, if_true, Bool.and_eq_true]
  exact ⟨isMember_nameValue _, isMember_nameValue x.provenance⟩

theorem payloadTotal_sole : payloadTotal (members x.entry.toDict) = true := by
  simp only [payloadTotal, observationOf_sole, fieldOf_observation]
  simp [Observation.value, nameValue, Value.hashable, observation]

theorem entryValid_sole : entryValid (members x.entry.toDict) = true := by
  have hhead : entryHead (members x.entry.toDict) = true := by
    simp only [entryHead, fieldOf_entry, Bool.and_eq_true]
    exact ⟨hasKeys_record fun _ => Iff.rfl, rfl⟩
  have hint : isOptionalInt x.stat = true := by
    rcases x.known with h | h <;> rw [h] <;> rfl
  have hfields (f : EntryField) (hf : f ∈ entryIntegers) : isOptionalInt (x.entry.value (EntryKey.field f)) = true := by
    cases f <;> first | rfl | exact hint | exact absurd hf (by decide)
  have htail : entryTail (members x.entry.toDict) = true := by
    simp only [entryTail, fieldOf_entry, Bool.and_eq_true]
    exact ⟨⟨⟨rfl, List.all_eq_true.2 hfields⟩, rfl⟩, rfl⟩
  simp only [entryValid, hhead, htail, payloadValid_sole, fieldOf_entry, Bool.and_true, Bool.true_and,
    Bool.and_eq_true]
  exact ⟨isMember_nameValue _, isMember_nameValue _⟩

theorem entryTotal_sole : entryTotal (members x.entry.toDict) = true := by
  simp only [entryTotal, payloadTotal_sole, fieldOf_entry]
  simp [Entry.value, nameValue, Value.hashable]

theorem typedValid_sole : typedValid x.envelope = true ∧ typedTotal x.envelope = true := by
  have hshaped : snapshotShapedV2 x.envelope = true := by
    rw [snapshotShapedV2, snapshotOf_sole, entriesOf_sole, Bool.and_eq_true]
    exact ⟨hasKeys_record fun _ => Iff.rfl, rfl⟩
  have hmembers : members (snapshotOf x.envelope) = record Named.name Named.all x.data := by
    rw [snapshotOf_sole]; rfl
  have hhead : typedHead x.envelope = true := by
    simp only [typedHead, hshaped, hmembers, fieldOf_data]; rfl
  have hscopes : typedScopes (record Named.name Named.all x.data) = true := by
    simp only [typedScopes, fieldOf_data]; rfl
  have hcounts : typedCounts (record Named.name Named.all x.data) = true := by
    simp only [typedCounts, fieldOf_data]; rfl
  have hpolicy := (checks_validHashPolicy _).eq_true.1 policyValid_sole
  have hstatus : isMember SnapshotStatus (x.data .status) = true := isMember_nameValue _
  have hconsistency : isMember SnapshotConsistency (x.data .consistency) = true := isMember_nameValue _
  have hvalue : x.data .hashPolicy = policyDict policy := rfl
  constructor
  · simp only [typedValid, hmembers, hhead, hscopes, hcounts, fieldOf_data, hstatus, hconsistency,
      hvalue, hpolicy.2, Bool.and_true]
  · simp only [typedTotal, hmembers, hhead, hscopes, fieldOf_data, hstatus, hconsistency,
      hvalue, hpolicy.1]
    rfl

/-- A test that holds of the one entry holds of all. -/
theorem allM_sole {f : List (Text × Value Integral) → Except Py.Error Bool}
    (h : f (members x.entry.toDict) = .ok true) :
    allM (onDict f) (elements (entriesOf x.envelope)) = .ok true := by
  rw [entriesOf_sole]
  show andThen (f (members x.entry.toDict)) (.ok true) = _
  rw [h]; rfl

theorem snapshotIdOf_sole : snapshotIdOf x.envelope = some x.id := by
  rw [snapshotIdOf, snapshotOf_sole]
  show str? (fieldOf _ _) = _
  rw [fieldOf_data]; rfl

theorem scopesOf_sole : scopesOf x.envelope = .list [lit "s"] := by
  rw [scopesOf, snapshotOf_sole]
  show (lookup (record Named.name Named.all x.data) _).getD _ = _
  rw [lookup_record _ (fun _ _ _ _ => Named.name_inj) (Named.complete _)]
  rfl

theorem lookup_entry (k : EntryKey) :
    lookup (record Named.name x.entry.keys x.entry.value) (Named.name k) = some (x.entry.value k) :=
  lookup_record _ (fun _ _ _ _ => Named.name_inj) (Named.complete k)

theorem sortable_sole : sortable x.entry.toDict = true := by
  show Option.isSome (Text.utf8Escape ((lookup (record Named.name x.entry.keys x.entry.value)
    (Named.name (EntryKey.field .relativePath))).getD (lit "")).pyStr) = true
  rw [lookup_entry]
  rfl

theorem summarized_sole : SummarizedV2 (members (snapshotOf x.envelope))
    (elements (entriesOf x.envelope)) := by
  have hmembers : members (snapshotOf x.envelope) = record Named.name Named.all x.data := by
    rw [snapshotOf_sole]; rfl
  have hentry (k : EntryKey) : keyOf x.entry.toDict k = x.entry.value k := fieldOf_entry k
  have hregular : isRegularFile x.entry.toDict = true := by
    rw [isRegularFile, hentry]
    exact Value.eq_str.2 rfl
  have hsizes : regularSizes [x.entry.toDict] = [.int 3] := by
    rw [regularSizes, List.filterMap_cons_some, List.filterMap_nil]
    rw [sizeOf?, if_pos hregular, hentry]; rfl
  have hflags : excludedFlags [x.entry.toDict] = [.bool false] := by
    rw [excludedFlags, List.map_cons, List.map_nil, hentry]; rfl
  have hcountable : Countable x.entry.toDict = true := by
    have hkey (k : EntryKey) : hasKey x.entry.toDict k = true := by
      show (lookup (record Named.name x.entry.keys x.entry.value) _).isSome = true
      rw [lookup_entry]; rfl
    simp only [Countable, hkey, hentry, Bool.or_true, Bool.and_true]
    rfl
  have hobserved : observedCount [x.entry.toDict] = 1 := by
    have hstatus : (x.entry.value EntryKey.observationStatus).eq
        (nameValue FilesystemObservationStatus.observed) = true := Value.eq_str.2 rfl
    rw [observedCount, List.countP_singleton, hentry, if_pos hstatus]
  have hdepth : maxDepth [x.entry.toDict] = 1 := by
    rw [maxDepth, List.map_cons, List.map_nil, hentry]
    exact (by decide : [pathDepth (lit (F := Integral) "f")].foldl max 0 = 1)
  rw [hmembers, entriesOf_sole]
  constructor
  · refine ⟨_, snapshotStatistics_eq_ok.2 ⟨?_, _, _, by show Value.sum (excludedFlags [_]) = _; rw [hflags]; rfl,
      by show Value.sum (regularSizes [_]) = _; rw [hsizes]; rfl, rfl⟩, ?_⟩
    · intro d hd
      rw [List.mem_singleton.1 hd]
      exact hcountable
    · show ∀ f ∈ Statistics.items ⟨1, observedCount [x.entry.toDict], _ - observedCount [x.entry.toDict], _, _,
        maxDepth [x.entry.toDict]⟩, _
      rw [hobserved, hdepth]
      simp only [Statistics.items, List.forall_mem_cons, List.not_mem_nil, false_imp_iff, implies_true,
        and_true, fieldOf_data]
      exact ⟨rfl, rfl, rfl, rfl, rfl, rfl⟩
  · rw [fieldOf_data]
    show (Value.int 0).eq (.int (allocatedKnownSum [x.entry.toDict])) = true
    rw [allocatedKnownSum, List.filter_cons_of_pos hregular, List.filter_nil, List.map_cons, List.map_nil,
      allocatedSize, hentry]
    rfl
  · rw [fieldOf_data]
    show (Value.int 1).eq (.int (allocatedUnknownCount [x.entry.toDict])) = true
    rw [allocatedUnknownCount, List.filter_cons_of_pos hregular, List.filter_nil, List.countP_singleton, hentry]
    rfl
  · rw [fieldOf_data]
    show (statusCounts _).eq (statusCounts (payloadStatuses [x.entry.toDict])) = true
    have hstatus : keyOf x.observation.toDict PayloadKey.status = nameValue x.observation.status :=
      fieldOf_observation _
    rw [payloadStatuses, List.filterMap_cons_some (b := Named.name PayloadObservationStatus.hashed),
      List.filterMap_nil]
    · exact Value.same_self wf_counts
    · rw [hentry]
      show str? (keyOf x.observation.toDict PayloadKey.status) = _
      rw [hstatus]; rfl

theorem accepted_sole : AcceptedV2 x.envelope where
  envelope := hasKeys_envelope _
  version := by rw [envelope, fieldOf_envelope]; rfl
  evidenceType := by rw [envelope, fieldOf_envelope]; rfl
  evidenceDigest := evidenceDigestValid_eq_true.2 (by
    rw [envelope, without_envelope, fieldOf_envelope]
    exact ⟨sealed_sole.safe, sealed_sole.digest⟩)
  payload := by rw [payloadShaped, payloadOf_sole]; rfl
  shaped := by
    rw [snapshotShapedV2, snapshotOf_sole, entriesOf_sole, Bool.and_eq_true]
    exact ⟨hasKeys_record fun _ => Iff.rfl, rfl⟩
  typed := (checks_typedSnapshotValid _).eq_true.2 ⟨typedValid_sole.2, typedValid_sole.1⟩
  runId := by
    rw [snapshotOf_sole, envelope, fieldOf_envelope]
    show (fieldOf (record Named.name Named.all x.data) _).eq (lit "t") = true
    rw [fieldOf_data]
    exact Value.eq_str.2 rfl
  payloads := allM_sole ((checks_validPayloadObservation _).eq_true.2
    ⟨payloadTotal_sole, payloadValid_sole⟩)
  entries := allM_sole ((checks_v2EntrySchemaValid _).eq_true.2 ⟨entryTotal_sole, entryValid_sole⟩)
  sizes := by
    rw [entriesOf_sole]
    show (isOptionalNonnegativeInt (fieldOf (members x.entry.toDict) EntryKey.allocatedSizeBytes) &&
      true) = true
    rw [fieldOf_entry]; rfl
  order := by
    rw [entriesOf_sole, snapshotOf_sole]
    refine ⟨[x.entry.toDict], ?_, ?_, ?_⟩
    · exact canonicalEntries_singleton sortable_sole
    · show (x.entry.toDict.same x.entry.toDict && true) = true
      rw [Value.same_self (Entry.wf_toDict wf_entry)]; rfl
    · refine digestMatches_eq_true.2 ⟨?_, ?_⟩
      · exact safe_entriesDomain (by simp [safe_entry])
      · show fieldOf (record Named.name Named.all x.data) _ = _
        rw [fieldOf_data]; rfl
  unique := by rw [entriesOf_sole]; rfl
  ids := allM_sole ((checks_entryIdValid _ _).eq_true.2 (by
    simp only [identityEncodable, idMatches, entryIdentity, fieldOf_entry, snapshotIdOf_sole]
    have htexts : (txt "s").encodable = true ∧ (txt "f").encodable = true := by decide
    refine ⟨?_, Value.eq_str.2 rfl⟩
    rw [Bool.and_eq_true, Bool.and_eq_true]
    exact ⟨⟨x.encodable, htexts.1⟩, htexts.2⟩))
  scopes := allM_sole ((checks_scopeValid _ _ _).eq_true.2 (by
    simp only [scopeTotal, scopeHolds, fieldOf_entry, snapshotIdOf_sole, scopesOf_sole]
    have hid : (x.entry.value (EntryKey.field .snapshotId)).eq (optText (some x.id)) = true := Value.eq_str.2 rfl
    rw [hid]
    exact (by decide : canHold (Value.list [lit (F := Integral) "s"]) (lit "s") = true ∧
      holds (Value.list [lit (F := Integral) "s"]) (lit "s") = true)))
  paths := by
    rw [entriesOf_sole]
    show (safePath (fieldOf (members x.entry.toDict) (EntryKey.field .relativePath)) && true) = true
    rw [fieldOf_entry]
    exact (by decide : (safePath (lit (F := Integral) "f") && true) = true)
  collection := by
    rw [entriesOf_sole, snapshotOf_sole]
    show (fieldOf (record Named.name Named.all x.data) _).eq _ = true
    rw [fieldOf_data]
    exact Value.same_self (v := .list [x.entry.toDict])
      (Value.wf_list.2 (by simp [Entry.wf_toDict wf_entry]))
  summary := summarized_sole
  snapshotDigest := digestMatches_eq_true.2 (by
    rw [snapshotOf_sole]
    refine ⟨safe_metadataDomain (Value.safe_without safe_data _), ?_⟩
    show fieldOf (record Named.name Named.all x.data) (SnapshotKey.field .snapshotDigest) =
      .str (sha (metadataDomain (record Named.name Named.all x.data)))
    rw [fieldOf_data, metadataDomain, without_data]
    rfl)

/-! ### It is mapped to its Snapshot -/

theorem hasKey_data (k : SnapshotKey) : hasKey (.dict (record Named.name Named.all x.data)) k = true := by
  rw [hasKey, lookup_record _ (fun _ _ _ _ => Named.name_inj) (Named.complete k)]; rfl

theorem documentParts_sole : documentParts (.dict x.envelope) =
    .ok (.dict (record Named.name Named.all x.data), [x.entry.toDict]) := by
  have hpayload : itemOf (.dict x.envelope) EnvelopeKey.payload = .ok (x.fields .payload) := by
    refine itemOf_eq_ok.2 ⟨?_, ?_⟩
    · rw [hasKey, envelope, Steward.envelope, lookup_record _ (fun _ _ _ _ => Named.name_inj) (Named.complete _)]
      rfl
    · rw [keyOf, Value.getIf]
      exact payloadOf_sole.symm
  rw [documentParts, hpayload, ok_bind_ok]
  rfl

theorem observation_sole : observationFromDocument x.observation.toDict =
    .ok ⟨.hashed, some x.provenance, fun f => keyOf x.observation.toDict (PayloadKey.field f)⟩ := by
  have hfield (k : PayloadKey) : keyOf x.observation.toDict k = x.observation.value k :=
    fieldOf_observation k
  have hstatus : enumOf PayloadObservationStatus (x.observation.value .status) = .ok .hashed := enumOf_eq_ok.2 rfl
  have hprovenance : enumOf PayloadObservationProvenance (x.observation.value .provenance) = .ok x.provenance :=
    enumOf_eq_ok.2 rfl
  have hread : readKeys x.observation.toDict (Named.all : List PayloadKey) = .ok () := by
    refine readKeys_eq_ok.2 fun k _ => ?_
    show (lookup (record Named.name Named.all x.observation.value) (Named.name k)).isSome = true
    rw [lookup_record _ (fun _ _ _ _ => Named.name_inj) (Named.complete k)]
    rfl
  rw [observationFromDocument, hread, ok_bind_ok, hfield, hfield, hstatus, ok_bind_ok, enumOf?, hprovenance]
  rfl

/-- The entry as it is read back. -/
def entryRead (x : Sole) : Entry Integral where
  field f := keyOf x.entry.toDict (EntryKey.field f)
  flag f := (keyOf x.entry.toDict (EntryKey.flag f)).truthy
  objectType := .regularFile
  observationStatus := .observed
  v2 := some ⟨.none, ⟨.hashed, some x.provenance, fun f => keyOf x.observation.toDict (PayloadKey.field f)⟩⟩

theorem entry_sole : entryV2FromDocument x.entry.toDict = .ok x.entryRead := by
  have hfield (k : EntryKey) : keyOf x.entry.toDict k = x.entry.value k := fieldOf_entry k
  have hkey (ks : List EntryKey) : readKeys x.entry.toDict ks = .ok () :=
    readKeys_eq_ok.2 fun k _ => by
      show (lookup (record Named.name x.entry.keys x.entry.value) (Named.name k)).isSome = true
      rw [lookup_entry]; rfl
  have hflags : flagsOf x.entry.toDict =
      .ok fun f => (keyOf x.entry.toDict (EntryKey.flag f)).truthy := by
    rw [flagsOf, if_pos]
    simp only [hfield]
    rfl
  have hobs : x.entry.value .payloadObservation = x.observation.toDict := rfl
  rw [entryV2FromDocument, entryFromDocument, hkey, ok_bind_ok, hflags, hfield EntryKey.objectType,
    hfield EntryKey.observationStatus, hkey, hfield EntryKey.payloadObservation, hobs, observation_sole,
    hfield EntryKey.allocatedSizeBytes]
  rfl

theorem summary_sole : summaryFromDocument (F := Integral) (x.data .payloadObservationSummary) =
    .ok [(.hashed, .int 1)] := summaryFromDocument_summaryDict [(.hashed, .int 1)]

/-- The mapped Snapshot started when it was completed. -/
theorem mapped_sole (path : Text) : ∃ s, snapshotV2FromValidEvidence (.dict x.envelope) path = .ok s ∧
    s.field .snapshotId = .str x.id ∧ s.field .createdAt = lit "t" ∧ s.field .startedAt = lit "t" ∧
      s.field .completedAt = lit "t" ∧ s.entries = [x.entryRead] := by
  have hfield (k : SnapshotKey) : keyOf (.dict (record Named.name Named.all x.data)) k = x.data k :=
    fieldOf_data k
  have hkey (ks : List SnapshotKey) : readKeys (.dict (record Named.name Named.all x.data)) ks = .ok () :=
    readKeys_eq_ok.2 fun k _ => hasKey_data k
  have hitem (k : SnapshotKey) : itemOf (.dict (record Named.name Named.all x.data)) k = .ok (x.data k) :=
    itemOf_eq_ok.2 ⟨hasKey_data k, (hfield k).symm⟩
  have hid : itemOf (.dict x.envelope) EnvelopeKey.evidenceId = .ok .none := by
    refine itemOf_eq_ok.2 ⟨?_, ?_⟩
    · rw [hasKey, envelope, Steward.envelope, lookup_record _ (fun _ _ _ _ => Named.name_inj) (Named.complete _)]
      rfl
    · exact (fieldOf_envelope (sealFields x.fields) .evidenceId).symm
  have hbudget : readKeys (x.data .budget) (Named.all : List BudgetKey) = .ok () :=
    readKeys_eq_ok.2 fun k _ => by
      show (lookup (record Named.name Named.all _) (Named.name k)).isSome = true
      rw [lookup_record _ (fun _ _ _ _ => Named.name_inj) (Named.complete k)]; rfl
  have hpolicy : readKeys (x.data .hashPolicy) (Named.all : List PolicyKey) = .ok () :=
    readKeys_eq_ok.2 fun k _ => by
      show (lookup (record Named.name Named.all policy) (Named.name k)).isSome = true
      rw [lookup_record _ (fun _ _ _ _ => Named.name_inj) (Named.complete k)]; rfl
  have hentries : [x.entry.toDict].mapM entryV2FromDocument = .ok [x.entryRead] := by
    rw [List.mapM_cons, entry_sole]; rfl
  rw [snapshotV2FromValidEvidence, snapshotFromDocument, documentParts_sole]
  simp only [ok_bind_ok, hitem, hbudget, hentries, hkey, hfield, hpolicy, summary_sole, hid]
  exact ⟨_, rfl, hfield (.field .snapshotId), hfield (.field .createdAt), hfield (.field .startedAt),
    hfield (.field .completedAt), rfl⟩

end Sole

end Steward
