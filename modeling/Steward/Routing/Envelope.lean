import Steward.Routing.FactBlock

/-!
# Publication envelopes

`build_publication_envelope` and the validation it ends with. An envelope that
is built has a block within the product limit and a canonical form.
-/

namespace Steward

open Py Sqlite Lines

inductive StatusOrTypedError where
  | status (value : Text)
  | typedError (error : PublicationTypedError)
  deriving DecidableEq

structure PublicationEnvelope where
  schemaName : Text
  schemaVersion : Int
  routeDecision : RouteDecision
  operationIdentity : Text
  operationKind : OperationKind
  statusOrTypedError : StatusOrTypedError
  deterministicFacts : List PublicationFact
  sourceProvenance : List PublicationSourceProvenance
  exactIntegerEncoding : List PublicationExactInteger
  inclusionAccounting : List PublicationAccounting
  omissionAccounting : List PublicationAccounting
  authorityBoundary : List AuthorityBoundary
  factBlockMarkdown : Text
  factBlockSha256 : Text
  deriving DecidableEq

def publicationSchemaName : Text := txt "local_steward.agent_publication_envelope"

def publicationSchemaVersion : Int := 1

section
variable {F : Type}

def typedErrorValue (error : PublicationTypedError) : Value F :=
  .dict [(txt "code", .str error.code), (txt "message", .str error.message)]

def StatusOrTypedError.value : StatusOrTypedError → Value F
  | .status value => .str value
  | .typedError error => typedErrorValue error

/-- `publication_envelope_machine_object` -/
def publicationEnvelopeMachineObject (envelope : PublicationEnvelope) : List (Text × Value F) :=
  [(txt "schema_name", .str envelope.schemaName),
    (txt "schema_version", .int envelope.schemaVersion),
    (txt "route_decision", .str (Named.name envelope.routeDecision)),
    (txt "operation_identity", .str envelope.operationIdentity),
    (txt "operation_kind", .str (Named.name envelope.operationKind)),
    (txt "status_or_typed_error", envelope.statusOrTypedError.value),
    (txt "deterministic_facts", .list (envelope.deterministicFacts.map fun item =>
      .dict [(txt "key", .str item.key), (txt "value", .str item.value)])),
    (txt "source_provenance", .list (envelope.sourceProvenance.map fun item =>
      .dict [(txt "snapshot_id", .str item.snapshotId), (txt "snapshot_digest", .str item.snapshotDigest),
        (txt "persistent_run_id", .str item.persistentRunId), (txt "evidence_id", .str item.evidenceId)])),
    (txt "exact_integer_encoding", .list (envelope.exactIntegerEncoding.map fun item =>
      .dict [(txt "json_pointer", .str item.jsonPointer), (txt "decimal_value", .str item.decimalValue)])),
    (txt "inclusion_accounting", .list (envelope.inclusionAccounting.map fun item =>
      .dict [(txt "category", .str item.category), (txt "count", .int item.count)])),
    (txt "omission_accounting", .list (envelope.omissionAccounting.map fun item =>
      .dict [(txt "category", .str item.category), (txt "count", .int item.count)])),
    (txt "authority_boundary", .list (envelope.authorityBoundary.map fun item => .str (Named.name item))),
    (txt "fact_block_markdown", .str envelope.factBlockMarkdown),
    (txt "fact_block_sha256", .str envelope.factBlockSha256)]

end

variable (F : Type) [SqliteFloat F]

/-- `fact_block_digest` -/
def factBlockDigest (markdown : Text) : Result Text := do
  let bytes ← encodeStrict markdown
  .ok (Runtime.sha256 F bytes)

/-- `canonical_publication_envelope` -/
def canonicalPublicationEnvelope (envelope : PublicationEnvelope) : Result Text :=
  canonicalJson (.dict (publicationEnvelopeMachineObject envelope) : Value F)

/-- `_payload_from_envelope` -/
def payloadFromEnvelope (envelope : PublicationEnvelope) : Result PublicationPayload := do
  let status ← match envelope.statusOrTypedError with
    | .typedError error => .ok (PublicationStatus.error, some error)
    | .status value =>
      if value = Named.name PublicationStatus.ok then .ok (PublicationStatus.ok, none) else publicationInvalid
  .ok ⟨envelope.routeDecision, envelope.operationIdentity, envelope.operationKind, status.1, status.2,
    envelope.deterministicFacts, envelope.sourceProvenance, envelope.exactIntegerEncoding,
    envelope.inclusionAccounting, envelope.omissionAccounting, envelope.authorityBoundary⟩

/-- A code where the condition holds. -/
def codeIf (condition : Prop) [Decidable condition] (code : Text) : List Text := if condition then [code] else []

/-- The subclasses of `AgentRoutingError`. -/
def Exc.isAgentRoutingError : Exc → Bool
  | .steward .agentRoutingRequestError | .steward .agentRouteGrantError | .steward .agentRouteGrantReusedError
  | .steward .agentPublicationError => true
  | _ => false

/-- The codes of the checks, up to the first that raises. -/
def collectCodes : List (Result (List Text)) → List Text
  | [] => []
  | .ok codes :: checks => codes ++ collectCodes checks
  | .error e :: _ => [if e.isAgentRoutingError then txt "PUBLICATION_PAYLOAD_INVALID"
      else txt "PUBLICATION_CANONICAL_INVALID"]

def blockCheck (envelope : PublicationEnvelope) : Result (List Text) := do
  let payload ← payloadFromEnvelope envelope
  validatePublicationPayload payload
  let expected ← renderPublicationFactBlock payload
  .ok (codeIf (envelope.factBlockMarkdown ≠ expected) (txt "PUBLICATION_FACT_BLOCK_MISMATCH"))

def digestCheck (envelope : PublicationEnvelope) : Result (List Text) := do
  let expected ← factBlockDigest F envelope.factBlockMarkdown
  .ok (codeIf (envelope.factBlockSha256 ≠ expected) (txt "PUBLICATION_FACT_BLOCK_DIGEST_INVALID"))

def canonicalCheck (envelope : PublicationEnvelope) : Result (List Text) := do
  let canonical ← canonicalPublicationEnvelope F envelope
  .ok (codeIf ((Text.utf8 canonical).length > maxPublicationFactBlockBytes * 2)
    (txt "PUBLICATION_ENVELOPE_RESOURCE_LIMIT"))

/-- Return stable violations without repairing or partially publishing. -/
def validatePublicationEnvelope (envelope : PublicationEnvelope) : List Text :=
  sortedSet (codeIf (envelope.schemaName ≠ publicationSchemaName) (txt "PUBLICATION_SCHEMA_NAME_INVALID") ++
    codeIf (envelope.schemaVersion ≠ publicationSchemaVersion) (txt "PUBLICATION_SCHEMA_VERSION_INVALID") ++
    collectCodes [blockCheck envelope, digestCheck F envelope, canonicalCheck F envelope])

/-- The payload of a route's publication, in the published order. -/
def publicationPayload (route : StewardRouteOutcome) (operation : OperationKind) (status : PublicationStatus)
    (deterministicFacts : List PublicationFact) (sourceProvenance : List PublicationSourceProvenance)
    (exactIntegerEncoding : List PublicationExactInteger)
    (inclusionAccounting omissionAccounting : List PublicationAccounting)
    (authorityBoundary : List AuthorityBoundary) (typedError : Option PublicationTypedError) : PublicationPayload :=
  PublicationPayload.ordered ⟨route.decision, route.requestDigest, operation, status, typedError, deterministicFacts,
    sourceProvenance, exactIntegerEncoding, inclusionAccounting, omissionAccounting, authorityBoundary⟩

def statusOrTypedErrorOf : PublicationStatus → Option PublicationTypedError → Result StatusOrTypedError
  | .ok, _ => .ok (.status (Named.name PublicationStatus.ok))
  | .error, some error => .ok (.typedError error)
  | .error, none => publicationInvalid

/-- Build and independently validate one complete deterministic publication. -/
def buildPublicationEnvelope (route : StewardRouteOutcome) (status : PublicationStatus)
    (deterministicFacts : List PublicationFact) (sourceProvenance : List PublicationSourceProvenance)
    (exactIntegerEncoding : List PublicationExactInteger)
    (inclusionAccounting omissionAccounting : List PublicationAccounting)
    (authorityBoundary : List AuthorityBoundary) (typedError : Option PublicationTypedError) :
    Result PublicationEnvelope :=
  match Named.ofName? (α := OperationKind) route.operationKind with
  | none => publicationInvalid
  | some operation => do
    let payload := publicationPayload route operation status deterministicFacts sourceProvenance exactIntegerEncoding
      inclusionAccounting omissionAccounting authorityBoundary typedError
    let block ← renderPublicationFactBlock payload
    let statusOrTypedError ← statusOrTypedErrorOf status typedError
    let digest ← factBlockDigest F block
    let envelope : PublicationEnvelope := ⟨publicationSchemaName, publicationSchemaVersion, payload.routeDecision,
      payload.operationIdentity, payload.operationKind, statusOrTypedError, payload.deterministicFacts,
      payload.sourceProvenance, payload.exactIntegerEncoding, payload.inclusionAccounting,
      payload.omissionAccounting, payload.authorityBoundary, block, digest⟩
    if validatePublicationEnvelope F envelope ≠ [] then publicationInvalid else .ok envelope

variable {F}

theorem collectCodes_eq_nil {checks : List (Result (List Text))} :
    collectCodes checks = [] ↔ ∀ check ∈ checks, check = .ok [] := by
  induction checks with
  | nil => simp [collectCodes]
  | cons check checks ih =>
    rw [List.forall_mem_cons]
    cases check with
    | ok codes => simp [collectCodes, ih]
    | error e => simp [collectCodes]

/-- What a built envelope is known to be. -/
structure PublicationEnvelope.Built (F : Type) [SqliteFloat F] (envelope : PublicationEnvelope) : Prop where
  encodable : envelope.factBlockMarkdown.encodable = true
  length : (Text.utf8 envelope.factBlockMarkdown).length ≤ maxPublicationFactBlockBytes
  safe : (Value.dict (publicationEnvelopeMachineObject envelope) : Value F).safe = true

theorem renderPublicationFactBlock_limit {payload : PublicationPayload} {block : Text}
    (h : renderPublicationFactBlock payload = .ok block) :
    block.encodable = true ∧ (Text.utf8 block).length ≤ maxPublicationFactBlockBytes := by
  obtain ⟨_, -, h⟩ := bind_eq_ok.1 h
  obtain ⟨errorLines, -, h⟩ := bind_eq_ok.1 h
  obtain ⟨bytes, hbytes, h⟩ := bind_eq_ok.1 h
  split_ifs at h with hlimit
  · cases h
  rw [← Except.ok.inj h]
  rw [encodeStrict, Text.encode] at hbytes
  by_cases hencodable : (joinLines (factBlockLines payload errorLines)).encodable = true
  · rw [if_pos hencodable] at hbytes
    obtain rfl := Except.ok.inj hbytes
    exact ⟨hencodable, Nat.not_lt.1 hlimit⟩
  · rw [if_neg hencodable] at hbytes
    cases hbytes

theorem built_of_buildPublicationEnvelope {route : StewardRouteOutcome} {status : PublicationStatus}
    {facts : List PublicationFact} {sources : List PublicationSourceProvenance}
    {exact : List PublicationExactInteger} {included omitted : List PublicationAccounting}
    {boundary : List AuthorityBoundary} {error : Option PublicationTypedError} {envelope : PublicationEnvelope}
    (h : buildPublicationEnvelope F route status facts sources exact included omitted boundary error = .ok envelope) :
    envelope.Built F := by
  rw [buildPublicationEnvelope] at h
  split at h
  · cases h
  · obtain ⟨block, hblock, h⟩ := bind_eq_ok.1 h
    obtain ⟨statusOrTypedError, -, h⟩ := bind_eq_ok.1 h
    obtain ⟨digest, -, h⟩ := bind_eq_ok.1 h
    simp only at h
    split_ifs at h with hviolations
    · cases h
    · obtain rfl := Except.ok.inj h
      obtain ⟨hencodable, hlength⟩ := renderPublicationFactBlock_limit hblock
      have hcodes := sortedSet_eq_nil.1 (not_not.1 hviolations)
      have hchecks := collectCodes_eq_nil.1 (List.append_eq_nil_iff.1 hcodes).2
      obtain ⟨canonical, hcanonical, -⟩ := bind_eq_ok.1 (hchecks _ (List.mem_cons_of_mem _
        (List.mem_cons_of_mem _ List.mem_cons_self)))
      exact ⟨hencodable, hlength, (canonicalJson_eq_ok.1 hcanonical).1⟩

end Steward
