import Steward.Agent.BoundedContent
import Steward.Agent.ToolBudget
import Steward.Analysis.Entry
import Steward.Py.Stateful

/-!
# Temporal evidence

`TemporalEvidenceRelationService.compare`: one historical entry beside what is at its
location now. The payloads are compared by digests, the current one of a bounded read
between two looks at the metadata; the fields are compared by value. What the snapshot,
the file system, the reader and the clock answer is given.
-/

namespace Steward.Agent

open Py Sqlite

inductive CurrentState where
  | present | absent | unavailable | changedDuringObservation
  deriving DecidableEq

inductive ComparisonOutcome where
  | same | different | unknown | notComparable
  deriving DecidableEq

/-- `EvidenceValue` with its `EvidenceValueState`; only an observed one has a value. -/
inductive EvidenceValue where
  | observed (value : Int ⊕ Text)
  | unknown
  | notApplicable
  deriving DecidableEq

inductive TemporalField where
  | objectType | sizeBytes | mtimeNs | ctimeNs | mode | uid | gid | linkCount | symlinkTargetRaw
  deriving DecidableEq

/-- `_FIELDS` -/
def temporalFields : List TemporalField :=
  [.objectType, .sizeBytes, .mtimeNs, .ctimeNs, .mode, .uid, .gid, .linkCount, .symlinkTargetRaw]

structure FieldComparison where
  field : TemporalField
  historical : EvidenceValue
  current : EvidenceValue
  outcome : ComparisonOutcome

structure DigestEvidence where
  sourceKind : Text
  algorithm : Text
  algorithmVersion : Int
  coverage : Text
  digest : Text
  bytesObservedOrHashed : Int
  provenance : Text

structure PayloadComparison where
  outcome : ComparisonOutcome
  historical : Option DigestEvidence
  current : Option DigestEvidence
  reasonCode : Text

structure SnapshotEntryReference where
  snapshotId : Text
  scopeId : Text
  relativePath : Text

/-- The part of `HistoricalProvenance` that is looked at. -/
structure HistoricalProvenance where
  snapshotSchemaVersion : Int

structure ResolvedHistoricalEntry where
  entry : FilesystemEntry
  provenance : HistoricalProvenance

/-- The compared fields of an object, as far as they are known. -/
structure TemporalMetadata where
  objectType : Option FilesystemObjectType := none
  sizeBytes : Option Int := none
  mtimeNs : Option Int := none
  ctimeNs : Option Int := none
  mode : Option Int := none
  uid : Option Int := none
  gid : Option Int := none
  linkCount : Option Int := none
  symlinkTargetRaw : Option Text := none

structure CurrentMetadataObservation extends TemporalMetadata where
  state : CurrentState
  scopeId : Text
  relativePath : Text
  reasonCode : Option Text := none
  coherenceToken : Option (Int × Int × Int × Int × Int × Int) := none

structure TemporalEvidenceRelation where
  historicalReference : SnapshotEntryReference
  historicalProvenance : HistoricalProvenance
  currentState : CurrentState
  fieldComparisons : List FieldComparison
  payloadComparison : PayloadComparison
  observationFacts : List Text
  warnings : List Text
  currentSourceKinds : List Text
  contentBytesObserved : Nat

/-! ## Fields -/

/-- `_observed` -/
def observed : Option (Int ⊕ Text) → EvidenceValue
  | none => .unknown
  | some value => .observed value

def observedInt (value : Option Int) : EvidenceValue := observed (value.map .inl)

/-- A value of objects of one type. -/
def applicable (objectType : Option FilesystemObjectType) (expected : FilesystemObjectType) (value : EvidenceValue) :
    EvidenceValue := if objectType = some expected then value else .notApplicable

/-- The value of an object type that is known. -/
def observedType : Option FilesystemObjectType → EvidenceValue
  | none | some .unknown => .unknown
  | some objectType => .observed (.inr (Named.name objectType))

/-- The values of an object that has been observed. -/
def TemporalMetadata.value (m : TemporalMetadata) : TemporalField → EvidenceValue
  | .objectType => observedType m.objectType
  | .sizeBytes => applicable m.objectType .regularFile (observedInt m.sizeBytes)
  | .mtimeNs => observedInt m.mtimeNs
  | .ctimeNs => observedInt m.ctimeNs
  | .mode => observedInt m.mode
  | .uid => observedInt m.uid
  | .gid => observedInt m.gid
  | .linkCount => observedInt m.linkCount
  | .symlinkTargetRaw => applicable m.objectType .symlink (observed (m.symlinkTargetRaw.map .inr))

/-- `_historical_values` -/
def historicalValues (entry : FilesystemEntry) (field : TemporalField) : EvidenceValue :=
  if entry.observationStatus ≠ .observed then .unknown
  else TemporalMetadata.value ⟨entry.objectType, entry.sizeBytes, entry.mtimeNs, entry.ctimeNs, entry.mode, entry.uid,
    entry.gid, entry.linkCount, entry.symlinkTargetRaw⟩ field

/-- `_current_values` -/
def currentValues (current : CurrentMetadataObservation) (field : TemporalField) : EvidenceValue :=
  match current.state with
  | .absent => .notApplicable
  | .present => current.value field
  | _ => .unknown

/-- The outcome for one field. -/
def fieldOutcome (state : CurrentState) (left right : EvidenceValue) : ComparisonOutcome :=
  if state = .absent then .notComparable
  else if left = .unknown ∨ right = .unknown then .unknown
  else if left = .notApplicable ∨ right = .notApplicable then .notComparable
  else if left = right then .same else .different

/-- `_field_comparisons` -/
def fieldComparisons (entry : FilesystemEntry) (current : CurrentMetadataObservation) : List FieldComparison :=
  temporalFields.map fun field => ⟨field, historicalValues entry field, currentValues current field,
    fieldOutcome current.state (historicalValues entry field) (currentValues current field)⟩

/-! ## Payloads -/

def completePrimaryStream : Text := txt "COMPLETE_PRIMARY_STREAM"

def currentFilesystemContent : Text := txt "CURRENT_FILESYSTEM_CONTENT"

/-- `_historical_digest`; every provenance is an admitted one. -/
def historicalDigest (entry : FilesystemEntry) (schemaVersion : Int) : Option DigestEvidence := do
  let facts ← entry.v2
  if schemaVersion ≠ 2 ∨ entry.objectType ≠ .regularFile ∨ ¬ facts.payloadObservation.hashed then none
  else
    let algorithm ← facts.payloadObservation.algorithm
    let algorithmVersion ← facts.payloadObservation.algorithmVersion
    let digest ← facts.payloadObservation.digest
    let bytesHashed ← facts.payloadObservation.bytesHashed
    let provenance ← facts.payloadObservation.provenance
    some ⟨txt "HISTORICAL_SNAPSHOT_METADATA", algorithm, algorithmVersion, completePrimaryStream, digest, bytesHashed,
      Named.name provenance⟩

/-- What the resolver, the two looks at the metadata, the bounded read and the clock answer. -/
structure TemporalAnswers where
  historical : Except Raised ResolvedHistoricalEntry
  before : Except Raised CurrentMetadataObservation
  content : Except Raised BoundedUtf8ContentResult
  after : Except Raised CurrentMetadataObservation
  elapsedMs : Int

/-- `_current_failure` for a state that changed. -/
def currentChanged (current : CurrentMetadataObservation) : CurrentMetadataObservation :=
  { state := .changedDuringObservation, scopeId := current.scopeId, relativePath := current.relativePath,
    reasonCode := some (txt "CURRENT_STATE_CHANGED") }

/-- What `_compare_payload` returns. -/
structure PayloadResult where
  comparison : PayloadComparison
  current : CurrentMetadataObservation
  bytesObserved : Nat
  attempted : Bool

/-- A comparison without the current side. -/
def uncompared (outcome : ComparisonOutcome) (digest : Option DigestEvidence) (reason : String)
    (current : CurrentMetadataObservation) (attempted : Bool) : PayloadResult :=
  ⟨⟨outcome, digest, none, txt reason⟩, current, 0, attempted⟩

/-- The digest of a read of all of the current file. -/
def currentDigest (content : BoundedUtf8ContentResult) (digest : Text) : DigestEvidence :=
  ⟨currentFilesystemContent, txt "sha256", 1, completePrimaryStream, digest, content.contentBytesObserved,
    txt "DIRECT_BOUNDED_READ"⟩

/-- The end of `_compare_payload`, with the three observations made. -/
def compareObserved (digest : DigestEvidence) (current after : CurrentMetadataObservation)
    (content : BoundedUtf8ContentResult) : PayloadResult :=
  if after.state ≠ .present ∨ current.coherenceToken ≠ after.coherenceToken then
    uncompared .unknown digest "CURRENT_STATE_CHANGED" (currentChanged current) true
  else if content.status.read ∧ (content.sourceSizeBytes ≠ current.sizeBytes ∨
      some (content.contentBytesObserved : Int) ≠ current.sizeBytes) then
    uncompared .unknown digest "CURRENT_STATE_CHANGED" (currentChanged current) true
  else match content.status.read, content.observedContentSha256 with
    | true, some read =>
      let result (outcome : ComparisonOutcome) (reason : String) : PayloadResult :=
        ⟨⟨outcome, digest, currentDigest content read, txt reason⟩, after, content.contentBytesObserved, true⟩
      if digest.digest = read then result .same "PAYLOAD_DIGEST_EQUAL"
      else result .different "PAYLOAD_DIGEST_DIFFERENT"
    | _, _ => uncompared .unknown digest "CURRENT_PAYLOAD_UNKNOWN" after true

/-- A digest that one of a bounded read can be compared with. -/
def DigestEvidence.compatible (digest : DigestEvidence) : Bool :=
  digest.algorithm = txt "sha256" && digest.algorithmVersion = 1 && digest.coverage = completePrimaryStream

/-- `_compare_payload` -/
def comparePayload (a : TemporalAnswers) (historical : ResolvedHistoricalEntry)
    (current : CurrentMetadataObservation) : Except Raised PayloadResult :=
  match historicalDigest historical.entry historical.provenance.snapshotSchemaVersion with
  | none => .ok (uncompared .unknown none "HISTORICAL_PAYLOAD_UNKNOWN" current false)
  | some digest =>
    if digest.compatible = false then .ok (uncompared .notComparable digest "PAYLOAD_INCOMPATIBLE" current false)
    else if current.state ≠ .present ∨ current.objectType ≠ some .regularFile then
      .ok (uncompared .unknown digest "CURRENT_PAYLOAD_UNKNOWN" current false)
    else if current.sizeBytes.all fun size => (maxContentBytesPerRead : Int) < size then
      .ok (uncompared .unknown digest "CURRENT_PAYLOAD_UNKNOWN" current false)
    else do
      let content ← a.content
      let after ← a.after
      pure (compareObserved digest current after content)

/-- The payload part of `compare`. -/
def requestedPayload (includePayload : Bool) (a : TemporalAnswers) (historical : ResolvedHistoricalEntry)
    (current : CurrentMetadataObservation) : Except Raised PayloadResult :=
  if includePayload then comparePayload a historical current
  else .ok (uncompared .unknown none "PAYLOAD_NOT_REQUESTED" current false)

/-! ## The relation -/

section
variable {F : Type}

/-- `arguments.get("include_payload_comparison", False)` -/
def payloadSelector (arguments : List (Text × Value F)) : Value F :=
  (lookup arguments (txt "include_payload_comparison")).getD (.bool false)

/-- `… is True` -/
def includePayload (arguments : List (Text × Value F)) : Bool :=
  match payloadSelector arguments with
  | .bool b => b
  | _ => false

/-- `content_reservation` -/
def contentReservation (arguments : List (Text × Value F)) : Nat :=
  if includePayload arguments then maxContentBytesPerRead else 0

/-- `preflight`; `require` is the bindings' part of it. -/
def temporalPreflight (require : Text → Text → Except Raised Unit) (arguments : List (Text × Value F)) :
    Except Raised SnapshotEntryReference :=
  match Value.get arguments (txt "snapshot_id"), Value.get arguments (txt "scope_id"),
    Value.get arguments (txt "relative_path") with
  | .str (s :: snapshotId), .str (c :: scopeId), .str (p :: relativePath) =>
    match payloadSelector arguments with
    | .bool _ => do
      require (c :: scopeId) (p :: relativePath)
      pure ⟨s :: snapshotId, c :: scopeId, p :: relativePath⟩
    | _ => .error (fail "TOOL_ARGUMENT_INVALID" "payload comparison selector is invalid")
  | _, _, _ => .error (fail "TOOL_ARGUMENT_INVALID" "historical reference is invalid")

/-- The relation of the answers, before it is charged. -/
def relate (includePayload : Bool) (reference : SnapshotEntryReference) (a : TemporalAnswers) :
    Except Raised TemporalEvidenceRelation := do
  let historical ← a.historical
  let current ← a.before
  let result ← requestedPayload includePayload a historical current
  pure {
    historicalReference := reference
    historicalProvenance := historical.provenance
    currentState := result.current.state
    fieldComparisons := fieldComparisons historical.entry result.current
    payloadComparison := result.comparison
    observationFacts := [match result.current.reasonCode with
      | some (c :: code) => c :: code
      | _ => txt "CURRENT_STATE_STABLE"]
    warnings := []
    currentSourceKinds := txt "CURRENT_FILESYSTEM_METADATA" ::
      if result.attempted then [currentFilesystemContent] else []
    contentBytesObserved := result.bytesObserved }

/-- An operation on the shared budget. -/
def charge (op : ToolBudgetUsage → Except AgentToolError ToolBudgetUsage) : Stateful ToolBudgetUsage Raised Unit :=
  fun u => match op u with
    | .ok u' => (.ok (), u')
    | .error _ => (.error (fail "BUDGET_EXHAUSTED" "historical shared budget is exhausted"), u)

/-- `compare`; `serialized` is the length of `canonical_json(relation.payload())`. -/
def compare (limits : ToolBudgetLimits) (require : Text → Text → Except Raised Unit)
    (serialized : TemporalEvidenceRelation → Except Raised Nat) (arguments : List (Text × Value F)) (a : TemporalAnswers) :
    Stateful ToolBudgetUsage Raised TemporalEvidenceRelation := do
  let reference ← Stateful.lift (temporalPreflight require arguments)
  charge fun u => do
    let _ ← u.effectiveLimit limits (some 1)
    u.beginCall limits none
  let relation ← Stateful.lift (relate (includePayload arguments) reference a)
  let serializedBytes ← Stateful.lift (serialized relation)
  charge fun u => u.consumeResult limits 1 serializedBytes a.elapsedMs
  pure relation

/-! ## What a relation asserts -/

/-- One value is said to be the other, or not to be. -/
def ComparisonOutcome.asserts : ComparisonOutcome → Bool
  | same | different => true
  | unknown | notComparable => false

/-- The read of the whole file between two looks that agree, beside a complete digest. -/
structure PayloadObserved (a : TemporalAnswers) : Prop where
  historical : ∃ h digest, a.historical = .ok h ∧
    historicalDigest h.entry h.provenance.snapshotSchemaVersion = some digest ∧ digest.compatible = true
  current : ∃ before after content size, a.before = .ok before ∧ a.after = .ok after ∧ a.content = .ok content ∧
    before.state = .present ∧ after.state = .present ∧ before.coherenceToken = after.coherenceToken ∧
    content.status.read = true ∧ before.sizeBytes = some size ∧ content.sourceSizeBytes = some size ∧
    (content.contentBytesObserved : Int) = size

/-- What is asserted has been observed. -/
structure Coherent (arguments : List (Text × Value F)) (a : TemporalAnswers) (r : TemporalEvidenceRelation) : Prop where
  payload : r.payloadComparison.outcome.asserts = true → PayloadObserved a
  fields : ∀ c ∈ r.fieldComparisons,
    (c.outcome = .same ↔ ∃ x y, c.historical = .observed x ∧ c.current = .observed y ∧ x = y) ∧
    (c.outcome = .different ↔ ∃ x y, c.historical = .observed x ∧ c.current = .observed y ∧ x ≠ y)
  absent : r.currentState ≠ .present → ∀ c ∈ r.fieldComparisons, c.outcome.asserts = false
  bounded : r.contentBytesObserved ≤ contentReservation arguments

variable {arguments : List (Text × Value F)} {a : TemporalAnswers} {historical : ResolvedHistoricalEntry}
  {current after : CurrentMetadataObservation} {content : BoundedUtf8ContentResult} {digest : DigestEvidence}
  {result : PayloadResult}

theorem fieldOutcome_spec {state : CurrentState} {left right : EvidenceValue}
    (habsent : state = .absent → right = .notApplicable) :
    (fieldOutcome state left right = .same ↔ ∃ x y, left = .observed x ∧ right = .observed y ∧ x = y) ∧
      (fieldOutcome state left right = .different ↔ ∃ x y, left = .observed x ∧ right = .observed y ∧ x ≠ y) := by
  by_cases hstate : state = .absent
  · rw [fieldOutcome, if_pos hstate, habsent hstate]
    exact ⟨iff_of_false (by decide) (by rintro ⟨_, _, _, ⟨⟩, _⟩), iff_of_false (by decide) (by rintro ⟨_, _, _, ⟨⟩, _⟩)⟩
  · rw [fieldOutcome, if_neg hstate]
    cases left with
    | observed x => cases right with
      | observed y => by_cases hxy : x = y <;> simp [hxy, eq_comm]
      | _ => simp
    | _ => cases right <;> simp

/-- A comparison that asserts something is one of a whole read between two looks that agree. -/
theorem compareObserved_cases (h : compareObserved digest current after content = result) :
    result.comparison.outcome.asserts = false ∧ result.bytesObserved = 0 ∨
      after.state = .present ∧ current.coherenceToken = after.coherenceToken ∧ content.status.read = true ∧
        content.sourceSizeBytes = current.sizeBytes ∧ current.sizeBytes = some (content.contentBytesObserved : Int) ∧
        result.bytesObserved = content.contentBytesObserved := by
  subst h
  unfold compareObserved
  split_ifs with hchanged hsize
  · exact .inl ⟨rfl, rfl⟩
  · exact .inl ⟨rfl, rfl⟩
  · obtain ⟨hpresent, htoken⟩ := not_or.1 hchanged
    split
    · rename_i hread _
      obtain ⟨hsource, hobserved⟩ := not_or.1 fun h => hsize ⟨hread, h⟩
      refine .inr ⟨not_not.1 hpresent, not_not.1 htoken, hread, not_not.1 hsource, (not_not.1 hobserved).symm, ?_⟩
      split_ifs <;> rfl
    · exact .inl ⟨rfl, rfl⟩

/-- What asserts something or has read something rests on the observations. -/
theorem comparePayload_cases (hh : a.historical = .ok historical) (hb : a.before = .ok current)
    (h : comparePayload a historical current = .ok result) :
    result.comparison.outcome.asserts = false ∧ result.bytesObserved = 0 ∨
      PayloadObserved a ∧ result.bytesObserved ≤ maxContentBytesPerRead := by
  unfold comparePayload at h
  split at h
  · cases h
    exact .inl ⟨rfl, rfl⟩
  · rename_i digest hdigest
    split_ifs at h with hincompatible hstate hlarge
    iterate 3
      · cases h
        exact .inl ⟨rfl, rfl⟩
    obtain ⟨content, hcontent, h⟩ := bind_eq_ok.1 h
    obtain ⟨after, hafter, h⟩ := bind_eq_ok.1 h
    rcases compareObserved_cases (Except.ok.inj h) with hnone | ⟨hpresent, htoken, hread, hsource, hsize, hbytes⟩
    · exact .inl hnone
    · refine .inr ⟨⟨⟨historical, digest, hh, hdigest, Bool.of_not_eq_false hincompatible⟩, current, after, content, _, hb, hafter,
        hcontent, not_not.1 (not_or.1 hstate).1, hpresent, htoken, hread, hsize, hsource.trans hsize, rfl⟩, ?_⟩
      rw [hsize, Option.all_some, decide_eq_true_eq] at hlarge
      rw [hbytes]
      omega

theorem relate_coherent {reference : SnapshotEntryReference} {r : TemporalEvidenceRelation}
    (h : relate (includePayload arguments) reference a = .ok r) : Coherent arguments a r := by
  obtain ⟨historical, hh, h⟩ := bind_eq_ok.1 h
  obtain ⟨current, hb, h⟩ := bind_eq_ok.1 h
  obtain ⟨result, hresult, h⟩ := bind_eq_ok.1 h
  cases h
  have hcases : result.comparison.outcome.asserts = false ∧ result.bytesObserved = 0 ∨
      PayloadObserved a ∧ result.bytesObserved ≤ contentReservation arguments := by
    unfold contentReservation
    unfold requestedPayload at hresult
    by_cases hinclude : includePayload arguments = true
    · rw [if_pos hinclude] at hresult ⊢
      exact comparePayload_cases hh hb hresult
    · rw [if_neg hinclude] at hresult
      cases hresult
      exact .inl ⟨rfl, rfl⟩
  have hnone (hstate : result.current.state ≠ .present) (field : TemporalField) (x : Int ⊕ Text) :
      currentValues result.current field ≠ .observed x := by
    rw [currentValues]
    split <;> first | rintro ⟨⟩ | contradiction
  have hspec (c : FieldComparison) (hc : c ∈ fieldComparisons historical.entry result.current) :
      (∃ field, c.current = currentValues result.current field) ∧
        (c.outcome = .same ↔ ∃ x y, c.historical = .observed x ∧ c.current = .observed y ∧ x = y) ∧
        (c.outcome = .different ↔ ∃ x y, c.historical = .observed x ∧ c.current = .observed y ∧ x ≠ y) := by
    obtain ⟨field, -, rfl⟩ := List.mem_map.1 hc
    exact ⟨⟨field, rfl⟩, fieldOutcome_spec fun habsent => by rw [currentValues, habsent]⟩
  refine ⟨fun hasserts => ?_, fun c hc => (hspec c hc).2, fun hstate c hc => ?_, ?_⟩
  · rcases hcases with ⟨hno, -⟩ | ⟨hobserved, -⟩
    · exact absurd (hasserts.symm.trans hno) (by decide)
    · exact hobserved
  · obtain ⟨⟨field, hfield⟩, hsame, hdifferent⟩ := hspec c hc
    cases houtcome : c.outcome with
    | same =>
      obtain ⟨_, y, -, hy, -⟩ := hsame.1 houtcome
      exact absurd (hfield.symm.trans hy) (hnone hstate field y)
    | different =>
      obtain ⟨_, y, -, hy, -⟩ := hdifferent.1 houtcome
      exact absurd (hfield.symm.trans hy) (hnone hstate field y)
    | _ => rfl
  · rcases hcases with ⟨-, hzero⟩ | ⟨-, hle⟩
    · exact hzero.trans_le (Nat.zero_le _)
    · exact hle

end

/-! ## The comparisons of a turn -/

section
open ToolBudgetUsage
variable {F : Type} {limits : ToolBudgetLimits} {require : Text → Text → Except Raised Unit}
  {serialized : TemporalEvidenceRelation → Except Raised Nat}

theorem triple_chargeBudget {op : ToolBudgetUsage → Except AgentToolError ToolBudgetUsage} {u : ToolBudgetUsage}
    {Q : Unit → ToolBudgetUsage → Prop} {E : Raised → ToolBudgetUsage → Prop} (hok : ∀ u', op u = .ok u' → Q () u')
    (herror : ∀ e, E e u) : Stateful.Triple (fun s => s = u) (charge op) Q E := by
  rintro _ rfl
  unfold charge
  cases hop : op _ with
  | ok u' => exact hok u' hop
  | error e => exact herror _

/-- What a comparison leaves of the budget. -/
theorem compare_charges {arguments : List (Text × Value F)} {a : TemporalAnswers} {u : ToolBudgetUsage}
    (h : Within limits u) :
    Stateful.Triple (fun s => s = u) (compare limits require serialized arguments a)
      (fun _ s => Within limits s ∧ s.items = u.items + 1) (fun _ s => Within limits s ∧ s.items = u.items) := by
  have hkept {v s : ToolBudgetUsage} (hv : Within limits v ∧ v.items = u.items) (hs : s = v) :
      Within limits s ∧ s.items = u.items := by rwa [hs]
  refine .bind (.lift (fun _ _ _ hs => hs) fun _ s _ hs => hkept ⟨h, rfl⟩ hs) fun reference => ?_
  refine .bind (Q := fun _ s => Within limits s ∧ s.items = u.items)
    (triple_chargeBudget (fun u' hu' => ?_) fun _ => ⟨h, rfl⟩) fun _ => ?_
  · obtain ⟨_, -, hcall⟩ := bind_eq_ok.1 hu'
    obtain ⟨hwithin, rfl⟩ := h.beginCall hcall
    exact ⟨hwithin, rfl⟩
  refine .bind (.lift (fun _ _ _ hs => hs) fun _ s _ hs => hs) fun relation => ?_
  refine .bind (.lift (fun _ _ _ hs => hs) fun _ s _ hs => hs) fun serializedBytes => ?_
  refine .bind (Q := fun _ s => Within limits s ∧ s.items = u.items + 1) (fun s hs => ?_) fun _ => .pure fun _ hs => hs
  refine triple_chargeBudget (fun u' hu' => ?_) (fun _ => hs) s rfl
  obtain ⟨hwithin, rfl, -⟩ := hs.1.consumeResult hu'
  exact ⟨hwithin, by rw [← hs.2]⟩

/-- The comparisons of one turn, one after the other. -/
def compareAll (limits : ToolBudgetLimits) (require : Text → Text → Except Raised Unit)
    (serialized : TemporalEvidenceRelation → Except Raised Nat) :
    List (List (Text × Value F) × TemporalAnswers) → ToolBudgetUsage → List TemporalEvidenceRelation × ToolBudgetUsage
  | [], u => ([], u)
  | (arguments, a) :: calls, u =>
    let result := compare limits require serialized arguments a u
    let rest := compareAll limits require serialized calls result.2
    (result.1.toOption.toList ++ rest.1, rest.2)

/-- The comparisons of a turn stay within its limits, and are charged one item for each relation they return. -/
theorem compareAll_within (calls : List (List (Text × Value F) × TemporalAnswers)) :
    Within limits (compareAll limits require serialized calls {}).2 ∧
      (compareAll limits require serialized calls {}).2.items =
        (compareAll limits require serialized calls {}).1.length := by
  have hfrom (u : ToolBudgetUsage) (h : Within limits u) : Within limits (compareAll limits require serialized calls u).2 ∧
      (compareAll limits require serialized calls u).2.items =
        u.items + (compareAll limits require serialized calls u).1.length := by
    induction calls generalizing u with
    | nil => exact ⟨h, by simp [compareAll]⟩
    | cons call calls ih =>
      rw [compareAll]
      rcases hcall : compare limits require serialized call.1 call.2 u with ⟨e | r, s⟩
      · obtain ⟨hs, hsame⟩ := (compare_charges h).error rfl hcall
        obtain ⟨hwithin, hitems⟩ := ih s hs
        exact ⟨hwithin, by rw [hitems, hsame]; rfl⟩
      · obtain ⟨hs, hone⟩ := (compare_charges h).ok rfl hcall
        obtain ⟨hwithin, hitems⟩ := ih s hs
        refine ⟨hwithin, ?_⟩
        rw [hitems, hone]
        simp [Except.toOption, add_assoc, add_comm]
  simpa using hfrom {} within_start

end

/-! ## An unchanged file -/

def unchangedMetadata : CurrentMetadataObservation where
  state := .present
  scopeId := txt "s"
  relativePath := txt "a"
  objectType := some .regularFile
  sizeBytes := some 2
  mtimeNs := some 8

/-- A file of two bytes, hashed once and read again. -/
def unchangedFile : TemporalAnswers where
  historical := .ok ⟨⟨txt "m", txt "s", txt "a", .regularFile, none, none, none, none, none, some 2, some 7, none, none,
    none, none, true, false, false, .observed, none, none, false, some ⟨none, .hashed, some (txt "sha256"), some 1,
      some (txt "d"), some 2, some .directRead, none, none⟩⟩, ⟨2⟩⟩
  before := .ok unchangedMetadata
  content := .ok ⟨.complete, txt "s", txt "a", some 2, 2, some (txt "ok"), some (txt "d")⟩
  after := .ok unchangedMetadata
  elapsedMs := 3

def unchangedArguments : List (Text × Value Unit) :=
  [(txt "snapshot_id", .str (txt "m")), (txt "scope_id", .str (txt "s")), (txt "relative_path", .str (txt "a")),
    (txt "include_payload_comparison", .bool true)]

/-- The comparison of the file, in a context that allows one call. -/
def unchangedRun : Except Raised TemporalEvidenceRelation × ToolBudgetUsage :=
  compare ⟨some 1, none, none, none, none, none, none, none⟩ (fun _ _ => .ok ()) (fun _ => .ok 1000) unchangedArguments
    unchangedFile {}

theorem unchangedRun_same : ∃ r u', unchangedRun = (.ok r, u') ∧ r.payloadComparison.outcome = .same :=
  ⟨_, _, rfl, rfl⟩

end Steward.Agent
