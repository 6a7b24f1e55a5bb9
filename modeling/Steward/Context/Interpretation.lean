import Steward.Py.Grouping
import Steward.Py.Pattern
import Steward.Routing.Request
import Steward.Runs.Coordinator

/-!
# Interpretation results

The Context packet, the model's interpretation of it, the request constraints
that the runner sends, and the two validations. A validation is a list of
checks: which condition violates, and the code of the violation.
-/

namespace Steward.Context

open Py Sqlite

/-! ## Models -/

inductive LLMTaskDomain where
  | staticSnapshot
  | staticPairComparison
  | temporalSequence
  | temporalWindow
  | longitudinalTrend
  | periodicity
  | lifecycleState
  deriving DecidableEq, Repr

/-- `_SUPPORTED_DOMAINS` -/
def LLMTaskDomain.supported : LLMTaskDomain → Bool
  | staticSnapshot | staticPairComparison => true
  | _ => false

inductive ExplorationCapabilityClass where
  | currentProjectionExpansion
  | currentSnapshotReprojection
  | newObservationRequired
  | futureTemporalCapability
  | outOfScope
  deriving DecidableEq, Repr

def ExplorationCapabilityClass.value : ExplorationCapabilityClass → Text
  | currentProjectionExpansion => txt "CURRENT_PROJECTION_EXPANSION"
  | currentSnapshotReprojection => txt "CURRENT_SNAPSHOT_REPROJECTION"
  | newObservationRequired => txt "NEW_OBSERVATION_REQUIRED"
  | futureTemporalCapability => txt "FUTURE_TEMPORAL_CAPABILITY"
  | outOfScope => txt "OUT_OF_SCOPE"

/-- The members, in the order of the enumeration. -/
def ExplorationCapabilityClass.members : List ExplorationCapabilityClass :=
  [currentProjectionExpansion, currentSnapshotReprojection, newObservationRequired,
    futureTemporalCapability, outOfScope]

inductive InterpretationStatus where
  | completed
  | partialResult
  | needsMoreObservation
  | insufficientContext
  | unsupportedTask
  | invalidModelOutput
  deriving DecidableEq, Repr

inductive SemanticClass where
  | observation
  | interpretation
  | hypothesis
  | exploration
  deriving DecidableEq, Repr

inductive EvidenceReferenceKind where
  | entry
  | resultLocal
  | accounting
  | expansion
  | projectionSource
  deriving DecidableEq, Repr

/-- `EvidenceReference`: a token and one payload of its kind. -/
structure EvidenceReference (F : Type) where
  kind : EvidenceReferenceKind
  token : Text
  entryReference : Option (Value F)
  resultReference : Option (Value F)
  accountingDomain : Option (Value F)
  expansionDescriptor : Option (Value F)
  sourceIdentity : Option (Value F)

/-- The payload that belongs to a kind. -/
def EvidenceReference.payload {F : Type} (r : EvidenceReference F) : EvidenceReferenceKind → Option (Value F)
  | .entry => r.entryReference
  | .resultLocal => r.resultReference
  | .accounting => r.accountingDomain
  | .expansion => r.expansionDescriptor
  | .projectionSource => r.sourceIdentity

/-- `LLMContextPacket`: what the validation reads, and the machine object of the packet
without its digest. -/
structure LLMContextPacket (F : Type) where
  protocolVersion : Int
  taskDomain : LLMTaskDomain
  projectionDigest : Text
  evidenceReferences : List (EvidenceReference F)
  machineObject : List (Text × Value F)
  packetDigest : Text

structure ObservationItem where
  semanticClass : SemanticClass
  statement : Text
  evidenceReferences : List Text

structure InterpretationItem where
  semanticClass : SemanticClass
  statement : Text
  supportingEvidenceReferences : List Text
  qualifications : List Text

structure HypothesisItem where
  semanticClass : SemanticClass
  statement : Text
  supportingEvidenceReferences : List Text
  missingInformation : List Text
  competingExplanation : Option Text
  discriminatingObservation : Option Text

structure ExplorationItem where
  semanticClass : SemanticClass
  question : Text
  target : Text
  supportingEvidenceReferences : List Text
  missingInformation : List Text
  expectedValue : Text
  capabilityClass : ExplorationCapabilityClass

structure LLMInterpretationResult where
  protocolVersion : Int
  taskDomain : LLMTaskDomain
  status : InterpretationStatus
  summary : Text
  observations : List ObservationItem
  interpretations : List InterpretationItem
  hypotheses : List HypothesisItem
  explorations : List ExplorationItem
  unknowns : List Text
  limitations : List Text
  evidenceReferences : List Text

/-- `CONTEXT_PROTOCOL_VERSION` -/
def contextProtocolVersion : Int := 0

/-- `REQUEST_CONSTRAINTS_VERSION` -/
def requestConstraintsVersion : Int := 1

structure RequestConstraints where
  schemaVersion : Int
  taskDomain : LLMTaskDomain
  evidenceTokens : List Text
  capabilityClasses : List ExplorationCapabilityClass
  expansionTargetTokens : List Text
  excludedCapabilityClasses : List ExplorationCapabilityClass := []
  evidenceTokenWireType : Text := txt "string"
  evidenceArrayUnique : Bool := true
  topLevelReferenceRule : Text := txt "SORTED_UNIQUE_ITEM_USE_UNION"
  tokenOrderRule : Text := txt "LEXICOGRAPHIC_ASCENDING"
  emptyRegistryRule : Text := txt "EMPTY_ARRAY"

/-! ## Checks -/

inductive ValidationStatus where
  | valid
  | invalid
  deriving DecidableEq, Repr

structure LLMValidationResult where
  status : ValidationStatus
  violations : List Text

/-- A condition that violates, and the code of the violation. -/
abbrev Check := Bool × Text

def check (violated : Prop) [Decidable violated] (code : String) : Check := (violated, txt code)

/-- `_violation` on every check: a code is listed once. -/
def violations (checks : List Check) : List Text :=
  checks.foldl (fun codes c => if c.1 ∧ c.2 ∉ codes then codes ++ [c.2] else codes) []

def validationResult (checks : List Check) : LLMValidationResult :=
  ⟨if violations checks = [] then .valid else .invalid, sortedBy id (violations checks)⟩

/-- `tuple(sorted(xs)) == xs` and no repetition. -/
def SortedUnique (tokens : List Text) : Prop := tokens.Nodup ∧ sortedBy id tokens = tokens

instance (tokens : List Text) : Decidable (SortedUnique tokens) :=
  inferInstanceAs (Decidable (_ ∧ _))

/-! ## The packet and the result -/

section Result

variable {F : Type}

/-- `_FORBIDDEN_PATTERNS` -/
def forbiddenPatterns : List (Text × Pattern) :=
  open Pattern in
  [(txt "SAFE_DELETE_CLAIM",
      either (all [boundary, word "safe to delete", boundary]) (word "可以安全删除")),
    (txt "PHYSICAL_RECLAIMABLE_CLAIM",
      either (all [boundary, word "physical reclaimable", boundary]) (word "物理可回收空间")),
    (txt "CANDIDATE_MOVE_CLAIM",
      either (all [boundary, word "candidate", boundary, gap, boundary,
          oneOf [word "is", word "was", word "means"], boundary, gap, boundary,
          oneOf [word "move", word "rename"], boundary])
        (all [word "候选", gap, oneOf [word "确定", word "确认"], gap, oneOf [word "移动", word "重命名"]])),
    (txt "SINGLE_SNAPSHOT_TREND_CLAIM",
      either (all [boundary, oneOf [word "single snapshot", word "this snapshot"], boundary, gap, boundary,
          oneOf [word "trend", word "growth"], boundary])
        (all [word "单个快照", gap, word "趋势"])),
    (txt "SINGLE_PAIR_TREND_CLAIM",
      either (all [boundary, oneOf [word "single pair", word "this pair"], boundary, gap, boundary,
          oneOf [all [word "long", optional anyCharacter, word "term trend"], word "periodicity",
            word "lifecycle"], boundary])
        (all [word "单个快照对", gap, oneOf [word "长期趋势", word "周期", word "生命周期"]])),
    (txt "UNKNOWN_CERTAINTY_CLAIM",
      either (all [boundary, word "unknown", boundary, gap, boundary, oneOf [word "is", word "equals"],
          boundary, gap, boundary, word "0", boundary])
        (all [word "未知", gap, oneOf [word "就是", word "等于"], gap, word "0"])),
    (txt "ACTION_CLAIM",
      either (all [boundary, optional (oneOf [word "i ", word "we "]),
          oneOf [word "deleted", word "moved", word "renamed", word "archived"], boundary])
        (all [word "已", oneOf [word "删除", word "移动", word "重命名", word "归档"]])),
    (txt "UNAVAILABLE_OBSERVATION_CLAIM",
      either (all [boundary, optional (oneOf [word "i ", word "we "]),
          oneOf [word "scanned", word "hashed", word "created a snapshot",
            word "read the live filesystem"], boundary])
        (all [word "已", oneOf [word "扫描", word "哈希", word "创建快照", word "读取实时文件系统"]]))]

/-- `_all_text` -/
def allText (result : LLMInterpretationResult) : List Text :=
  result.summary :: result.unknowns ++ result.limitations ++
    result.observations.map ObservationItem.statement ++
    result.interpretations.map InterpretationItem.statement ++
    result.hypotheses.map HypothesisItem.statement ++
    result.explorations.map ExplorationItem.question ++ result.explorations.map ExplorationItem.target ++
    result.explorations.map ExplorationItem.expectedValue

/-- The tokens that items use. -/
def usedTokens (result : LLMInterpretationResult) : List Text :=
  result.observations.flatMap ObservationItem.evidenceReferences ++
    result.interpretations.flatMap InterpretationItem.supportingEvidenceReferences ++
    result.hypotheses.flatMap HypothesisItem.supportingEvidenceReferences ++
    result.explorations.flatMap ExplorationItem.supportingEvidenceReferences

def tokens (packet : LLMContextPacket F) : List Text := packet.evidenceReferences.map EvidenceReference.token

def payloadCount (r : EvidenceReference F) : Nat :=
  [r.entryReference, r.resultReference, r.accountingDomain, r.expansionDescriptor,
    r.sourceIdentity].countP Option.isSome

/-- `validate_context_packet`, given the digest of the packet. -/
def contextPacketChecks (packet : LLMContextPacket F) (digest : Text) : List Check :=
  [check (packet.protocolVersion ≠ contextProtocolVersion) "PACKET_PROTOCOL_VERSION_INVALID",
    check (packet.taskDomain.supported = false) "TASK_DOMAIN_UNSUPPORTED",
    check (packet.projectionDigest = []) "PROJECTION_DIGEST_MISSING",
    check (packet.packetDigest ≠ digest) "PACKET_DIGEST_INVALID",
    check (¬ SortedUnique (tokens packet)) "PACKET_REFERENCE_SET_INVALID"] ++
  packet.evidenceReferences.flatMap fun r =>
    [check (payloadCount r ≠ 1) "PACKET_REFERENCE_PAYLOAD_INVALID",
      check (payloadCount r = 1 ∧ (r.payload r.kind).isNone) "PACKET_REFERENCE_KIND_INVALID"]

def observationChecks (o : ObservationItem) : List Check :=
  [check (strip o.statement = []) "OBSERVATION_STATEMENT_INVALID",
    check (o.evidenceReferences = []) "OBSERVATION_EVIDENCE_REQUIRED"]

def interpretationChecks (i : InterpretationItem) : List Check :=
  [check (strip i.statement = [] ∨ i.supportingEvidenceReferences = []) "INTERPRETATION_EVIDENCE_REQUIRED"]

def hypothesisChecks (h : HypothesisItem) : List Check :=
  [check (strip h.statement = [] ∨ h.supportingEvidenceReferences = []) "HYPOTHESIS_EVIDENCE_REQUIRED",
    check (h.missingInformation = []) "HYPOTHESIS_MISSING_INFORMATION_REQUIRED"]

/-- `available = {item.token: item}`: the last reference of a token. -/
def available (packet : LLMContextPacket F) (token : Text) : Option (EvidenceReference F) :=
  packet.evidenceReferences.reverse.find? fun r => r.token = token

def explorationChecks (packet : LLMContextPacket F) (e : ExplorationItem) : List Check :=
  [check (strip e.question = [] ∨ strip e.target = [] ∨ strip e.expectedValue = [])
      "EXPLORATION_FIELDS_INVALID",
    check (e.supportingEvidenceReferences = [] ∨ e.missingInformation = []) "EXPLORATION_EVIDENCE_REQUIRED",
    check (e.capabilityClass = .currentProjectionExpansion ∧
        ∀ r ∈ available packet e.target, r.kind ≠ .expansion) "EXPANSION_DESCRIPTOR_REQUIRED"]

/-- The checks of the declared references against the used ones and a registry. -/
def referenceChecks (registry : List Text) (result : LLMInterpretationResult) : List Check :=
  [check (¬ SortedUnique result.evidenceReferences) "RESULT_REFERENCE_SET_INVALID",
    check (∃ token ∈ result.evidenceReferences, token ∉ registry) "EVIDENCE_REFERENCE_INVALID",
    check (∃ token ∈ usedTokens result, token ∉ registry) "EVIDENCE_REFERENCE_INVALID",
    check (¬ (result.evidenceReferences ⊆ usedTokens result ∧
      usedTokens result ⊆ result.evidenceReferences)) "RESULT_REFERENCE_SET_INCOMPLETE"]

/-- The checks of `validate_interpretation_result` after those of the packet. -/
def resultChecks (table : CaseTable) (packet : LLMContextPacket F) (result : LLMInterpretationResult) :
    List Check :=
  [check (result.protocolVersion ≠ contextProtocolVersion) "RESULT_PROTOCOL_VERSION_INVALID",
    check (result.taskDomain ≠ packet.taskDomain) "RESULT_TASK_DOMAIN_MISMATCH",
    check (result.taskDomain.supported = false) "TASK_DOMAIN_UNSUPPORTED"] ++
  referenceChecks (tokens packet) result ++
  result.observations.flatMap observationChecks ++ result.interpretations.flatMap interpretationChecks ++
  result.hypotheses.flatMap hypothesisChecks ++ result.explorations.flatMap (explorationChecks packet) ++
  (allText result).flatMap fun text =>
    forbiddenPatterns.map fun p => (p.2.search table text, p.1)

variable [SqliteFloat F]

/-- `packet_digest` -/
def packetDigest (packet : LLMContextPacket F) : Result Text :=
  domainDigest F (txt "local_steward.llm_context_packet.v0") (.dict packet.machineObject)

/-- `validate_interpretation_result` -/
def validateInterpretationResult (table : CaseTable) (packet : LLMContextPacket F)
    (result : LLMInterpretationResult) : Result LLMValidationResult := do
  let digest ← packetDigest packet
  pure (validationResult (contextPacketChecks packet digest ++ resultChecks table packet result))

end Result

/-! ## The request constraints -/

/-- `build_request_constraints`; an error is the code of the exception. -/
def buildRequestConstraints (taskDomain : LLMTaskDomain) (evidenceTokens : List Text)
    (capabilityClasses : List ExplorationCapabilityClass) (expansionTargetTokens : List Text) :
    Except Text RequestConstraints :=
  let normalizedTokens := sortedSet evidenceTokens
  let normalizedCapabilities := sortedBy ExplorationCapabilityClass.value capabilityClasses.dedup
  let normalizedExpansion := sortedSet expansionTargetTokens
  if taskDomain.supported = false then .error (txt "LLM_TASK_DOMAIN_UNSUPPORTED")
  else if ∃ token ∈ normalizedExpansion, token ∉ normalizedTokens then
    .error (txt "REQUEST_CONSTRAINTS_EXPANSION_INVALID")
  else if normalizedExpansion ≠ [] ∧ .currentProjectionExpansion ∉ normalizedCapabilities then
    .error (txt "REQUEST_CONSTRAINTS_CAPABILITY_INVALID")
  else .ok {
    schemaVersion := requestConstraintsVersion
    taskDomain := taskDomain
    evidenceTokens := normalizedTokens
    capabilityClasses := normalizedCapabilities
    expansionTargetTokens := normalizedExpansion
    excludedCapabilityClasses := sortedBy ExplorationCapabilityClass.value
      (ExplorationCapabilityClass.members.filter (· ∉ normalizedCapabilities)) }

/-- The tokens of the expansion references. -/
def expansionTokens {F : Type} (packet : LLMContextPacket F) : List Text :=
  (packet.evidenceReferences.filter fun r => r.kind = .expansion).map EvidenceReference.token

/-- `_packet_request_constraints` -/
def packetRequestConstraints {F : Type} (packet : LLMContextPacket F) : Except Text RequestConstraints :=
  buildRequestConstraints packet.taskDomain (tokens packet)
    ([.newObservationRequired, .outOfScope] ++
      if expansionTokens packet = [] then [] else [.currentProjectionExpansion])
    (expansionTokens packet)

/-- The checks of `validate_request_constraints` on the constraints alone. -/
def constraintChecks (constraints : RequestConstraints) : List Check :=
  [check (constraints.schemaVersion ≠ requestConstraintsVersion) "REQUEST_CONSTRAINTS_SCHEMA_INVALID",
    check (¬ SortedUnique constraints.evidenceTokens) "REQUEST_CONSTRAINTS_REGISTRY_INVALID",
    check (sortedBy id (constraints.capabilityClasses.map ExplorationCapabilityClass.value) ≠
      constraints.capabilityClasses.map ExplorationCapabilityClass.value)
      "REQUEST_CONSTRAINTS_CAPABILITY_INVALID",
    check (¬ constraints.capabilityClasses.Nodup) "REQUEST_CONSTRAINTS_CAPABILITY_INVALID",
    check (sortedBy id (constraints.excludedCapabilityClasses.map ExplorationCapabilityClass.value) ≠
      constraints.excludedCapabilityClasses.map ExplorationCapabilityClass.value)
      "REQUEST_CONSTRAINTS_CAPABILITY_INVALID",
    check ((∃ c ∈ constraints.capabilityClasses, c ∈ constraints.excludedCapabilityClasses) ∨
      ∃ c ∈ ExplorationCapabilityClass.members,
        c ∉ constraints.capabilityClasses ∧ c ∉ constraints.excludedCapabilityClasses)
      "REQUEST_CONSTRAINTS_CAPABILITY_INVALID",
    check (constraints.evidenceTokenWireType ≠ txt "string" ∨ constraints.evidenceArrayUnique = false ∨
      constraints.topLevelReferenceRule ≠ txt "SORTED_UNIQUE_ITEM_USE_UNION" ∨
      constraints.tokenOrderRule ≠ txt "LEXICOGRAPHIC_ASCENDING" ∨
      constraints.emptyRegistryRule ≠ txt "EMPTY_ARRAY") "REQUEST_CONSTRAINTS_SCHEMA_INVALID",
    check (¬ SortedUnique constraints.expansionTargetTokens) "REQUEST_CONSTRAINTS_EXPANSION_INVALID",
    check (∃ token ∈ constraints.expansionTargetTokens, token ∉ constraints.evidenceTokens)
      "REQUEST_CONSTRAINTS_EXPANSION_INVALID"]

/-- Its checks of an exploration. -/
def capabilityChecks (constraints : RequestConstraints) (e : ExplorationItem) : List Check :=
  [check (e.capabilityClass ∉ constraints.capabilityClasses) "EXPLORATION_CAPABILITY_INVALID",
    check (e.capabilityClass = .currentProjectionExpansion ∧
      e.target ∉ constraints.expansionTargetTokens) "EXPANSION_DESCRIPTOR_REQUIRED"]

/-- `validate_request_constraints` -/
def validateRequestConstraints (constraints : RequestConstraints) (result : LLMInterpretationResult) :
    LLMValidationResult :=
  validationResult (constraintChecks constraints ++
    [check (result.taskDomain ≠ constraints.taskDomain) "RESULT_TASK_DOMAIN_MISMATCH"] ++
    referenceChecks constraints.evidenceTokens result ++
    result.explorations.flatMap (capabilityChecks constraints))

end Steward.Context
