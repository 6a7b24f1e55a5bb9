import Steward.Py.JsonText
import Steward.Routing.Envelope
import Steward.Routing.PackRequest

/-!
# The Context route dispatcher

`AgentContextRouteDispatcher.dispatch`: schema, route, grant, pack request,
preparation and publication, with the exceptions each step lets through.
Preparing and presenting a pack are the dispatcher's parameters.
-/

namespace Steward

open Py Sqlite

/-! ## The input schema -/

section
variable {F : Type} [PyFloat F]

/-- `re.search` of a pattern that ends with `$`, which also matches before a final newline. -/
def searchEnd (pattern : Text → Bool) (t : Text) : Bool :=
  pattern t || (t.getLast? = some (ch '\n') && pattern t.dropLast)

/-- A property that may be missing. -/
def propertyAdmitted (fs : List (Text × Value F)) (k : Text) (p : Value F → Bool) : Bool :=
  match lookup fs k with
  | some v => p v
  | none => true

/-- A string of a length within bounds. -/
def stringWithin (minimum maximum : Nat) : Value F → Bool
  | .str t => minimum ≤ t.length && t.length ≤ maximum
  | _ => false

/-- `"type": ["string", "null"]` -/
def optionalStringWithin (minimum maximum : Nat) : Value F → Bool
  | .none => true
  | v => stringWithin minimum maximum v

def operationKindAdmitted : Value F → Bool
  | .str t => searchEnd (fun t => operationPattern t && t.length ≤ 96) t
  | _ => false

def snapshotIdAdmitted : Value F → Bool
  | .str t => searchEnd uuidPattern t
  | _ => false

def stringItems (vs : List (Value F)) : List Text := vs.filterMap fun | .str t => some t | _ => none

def snapshotIdsAdmitted : Value F → Bool
  | .list vs => vs.length ≤ 2 && vs.all snapshotIdAdmitted && (stringItems vs).Nodup
  | _ => false

/-- `"type": "integer"` admits whole floats. -/
def integerWithin (minimum : Nat) (count : Nat) : Value F → Bool
  | .int n => minimum ≤ n && n < minimum + count
  | .float x => (List.range' minimum count).any fun n => PyFloat.eqInt x n
  | _ => false

def boundsAdmitted : Value F → Bool
  | .none => true
  | .dict fs => (keys fs).all (fun k => k ∈ [txt "limit", txt "offset"]) && (lookup fs (txt "limit")).isSome &&
      propertyAdmitted fs (txt "limit") (integerWithin 1 12) && propertyAdmitted fs (txt "offset") (integerWithin 0 1)
  | _ => false

/-- `INPUT_SCHEMA` -/
def inputAdmitted (fs : List (Text × Value F)) : Bool :=
  (keys fs).all (fun k => k ∈ [txt "operation_kind", txt "ordered_snapshot_ids", txt "scope_id",
      txt "path_or_prefix", txt "bounds", txt "question"]) &&
    (lookup fs (txt "operation_kind")).isSome && (lookup fs (txt "question")).isSome &&
    propertyAdmitted fs (txt "operation_kind") operationKindAdmitted &&
    propertyAdmitted fs (txt "ordered_snapshot_ids") snapshotIdsAdmitted &&
    propertyAdmitted fs (txt "scope_id") (optionalStringWithin 1 256) &&
    propertyAdmitted fs (txt "path_or_prefix") (optionalStringWithin 1 4096) &&
    propertyAdmitted fs (txt "bounds") boundsAdmitted &&
    propertyAdmitted fs (txt "question") (stringWithin 1 8192)

/-! ## The route request -/

/-- A field that routing requires to be a string; routing rejects any other value. -/
def requiredText : Value F → Result Text
  | .str t => .ok t
  | _ => requestInvalid

def optionalTextField : Value F → Result (Option Text)
  | .none => .ok none
  | v => some <$> requiredText v

/-- A field that routing requires to be an `int`; a float is rejected there. -/
def intField : Value F → Result Int
  | .int n => .ok n
  | _ => requestInvalid

def boundsField : Value F → Result (Option RouteBounds)
  | .dict fs => do
    let limit ← py (Value.item (.dict fs) (txt "limit"))
    let limit ← intField limit
    let offset ← intField ((lookup fs (txt "offset")).getD (.int 0))
    .ok (some ⟨limit, offset⟩)
  | _ => .ok none

def snapshotIdsField : Value F → Result (List Text)
  | .list vs => vs.mapM requiredText
  | _ => requestInvalid

/-- `_route_request`, with the type tests of `_validate_route_request`. -/
def routeRequest (fs : List (Text × Value F)) : Result StewardRouteRequest := do
  let snapshotIds ← snapshotIdsField ((lookup fs (txt "ordered_snapshot_ids")).getD (.list []))
  let bounds ← boundsField (Value.get fs (txt "bounds"))
  let operationKind ← py (Value.item (.dict fs) (txt "operation_kind"))
  let operationKind ← requiredText operationKind
  let scopeId ← optionalTextField (Value.get fs (txt "scope_id"))
  let pathOrPrefix ← optionalTextField (Value.get fs (txt "path_or_prefix"))
  .ok ⟨operationKind, snapshotIds, scopeId, pathOrPrefix, bounds⟩

end

/-! ## Failures -/

/-- The `AgentContextError` classes. -/
inductive AgentContextErrorClass where
  | agentContext
  | request
  | source
  | sourceUnsupported
  | resource
  | invariant
  | canonical
  | sourceUnavailable
  | unavailable
  | contextProjection
  | unsupportedProfile
  | continuationMismatch
  | projectionResource
  deriving DecidableEq

def AgentContextErrorClass.code : AgentContextErrorClass → Text
  | .agentContext => txt "AGENT_CONTEXT_UNAVAILABLE"
  | .request => txt "AGENT_CONTEXT_REQUEST_INVALID"
  | .source => txt "AGENT_CONTEXT_SOURCE_INVALID"
  | .sourceUnsupported => txt "AGENT_CONTEXT_SOURCE_UNSUPPORTED"
  | .resource => txt "AGENT_CONTEXT_RESOURCE_LIMIT"
  | .invariant => txt "AGENT_CONTEXT_INVARIANT_VIOLATION"
  | .canonical => txt "AGENT_CONTEXT_CANONICAL_INVARIANT_VIOLATION"
  | .sourceUnavailable => txt "AGENT_CONTEXT_SOURCE_UNAVAILABLE"
  | .unavailable => txt "AGENT_CONTEXT_UNAVAILABLE"
  | .contextProjection => txt "CONTEXT_PROJECTION_INVALID"
  | .unsupportedProfile => txt "UNSUPPORTED_PROFILE"
  | .continuationMismatch => txt "CONTINUATION_MISMATCH"
  | .projectionResource => txt "CONTEXT_PROJECTION_RESOURCE_LIMIT"

/-- The `ConfigurationError` classes. -/
inductive ConfigurationErrorClass where
  | configuration
  | notFound
  | schema
  | scopeValidation
  deriving DecidableEq

def ConfigurationErrorClass.code : ConfigurationErrorClass → Text
  | .configuration => txt "CONFIG_INVALID"
  | .notFound => txt "CONFIG_NOT_FOUND"
  | .schema => txt "CONFIG_INVALID"
  | .scopeValidation => txt "SCOPE_INVALID"

/-- What `prepare_agent_context(load_config(…), …)` raises, under the deadline. -/
inductive PrepareError where
  | timeout
  | agentContext (cls : AgentContextErrorClass) (causeCode : Option Text)
  | configuration (cls : ConfigurationErrorClass)
  | other
  deriving DecidableEq

/-- The codes the dispatcher answers with. -/
inductive FailureCode where
  | argumentInvalid
  | coreRequired
  | clarificationRequired
  | unsupported
  | grantInvalid
  | resourceLimit
  | timeout
  | sourceUnavailable
  | unavailable
  | agentContext (cls : AgentContextErrorClass)
  deriving DecidableEq

def FailureCode.text : FailureCode → Text
  | .argumentInvalid => txt "STEWARD_AGENT_MCP_ARGUMENT_INVALID"
  | .coreRequired => txt "STEWARD_ROUTE_CORE_REQUIRED"
  | .clarificationRequired => txt "STEWARD_ROUTE_CLARIFICATION_REQUIRED"
  | .unsupported => txt "STEWARD_ROUTE_UNSUPPORTED"
  | .grantInvalid => txt "STEWARD_ROUTE_GRANT_INVALID"
  | .resourceLimit => txt "STEWARD_AGENT_MCP_RESOURCE_LIMIT"
  | .timeout => txt "STEWARD_AGENT_MCP_TIMEOUT"
  | .sourceUnavailable => txt "STEWARD_AGENT_MCP_SOURCE_UNAVAILABLE"
  | .unavailable => txt "STEWARD_AGENT_MCP_UNAVAILABLE"
  | .agentContext cls => cls.code

/-- `_safe_message` -/
def FailureCode.safeMessage : FailureCode → Text
  | .argumentInvalid => txt "The STEWARD route arguments are invalid."
  | .coreRequired => txt "This operation must use the supported STEWARD Core path."
  | .clarificationRequired => txt "Exact route identities or bounds are missing."
  | .unsupported => txt "The requested operation is outside the closed STEWARD surface."
  | .grantInvalid => txt "The Context route grant was rejected."
  | .resourceLimit => txt "The STEWARD route result exceeds the governed limit."
  | .timeout => txt "The STEWARD Context operation exceeded its time limit."
  | .sourceUnavailable => txt "The configured STEWARD source is unavailable."
  | .unavailable => txt "The STEWARD Context operation is unavailable."
  | .agentContext _ => txt "The STEWARD operation failed safely."

structure AdapterError where
  code : Text
  message : Text
  causeCode : Option Text
  missingFields : List Text
  deriving DecidableEq

/-- The structured content of an answer. -/
structure AdapterEnvelope (F : Type) where
  route : StewardRouteOutcome
  publication : Option PublicationEnvelope
  contextPack : Option (List (Text × Value F))
  decimalStringPaths : List Text
  factBlockMarkdown : Text
  factBlockSha256 : Text
  error : Option AdapterError

structure CallToolResult (F : Type) where
  text : Text
  structuredContent : AdapterEnvelope F
  isError : Bool

def adapterSchemaName : Text := txt "local_steward.agent_context_route_result"

def contextToolName : Text := txt "steward_execute_context_route"

def exactIntegerEncodingScheme : Text := txt "safe-json-integer-or-decimal-string-v1"

def maxTextBytes : Nat := 262144

section
variable {F : Type}

def grantValue : Option StewardRouteGrant → Value F
  | some grant => .dict ((txt "grant_id", .str grant.grantId) :: routeGrantMachineObject grant)
  | none => .none

/-- `route_outcome_machine_object` -/
def routeOutcomeMachineObject (route : StewardRouteOutcome) : List (Text × Value F) :=
  [(txt "schema_name", .str route.schemaName), (txt "schema_version", .int route.schemaVersion),
    (txt "decision", .str (Named.name route.decision)), (txt "operation_kind", .str route.operationKind),
    (txt "request_digest", .str route.requestDigest), (txt "missing_fields", .list (route.missingFields.map .str)),
    (txt "grant", grantValue route.grant)]

def adapterErrorValue : Option AdapterError → Value F
  | none => .none
  | some error => .dict ([(txt "code", .str error.code), (txt "message", .str error.message)] ++
      (match error.causeCode with
        | some cause => [(txt "cause_code", .str cause)]
        | none => []) ++
      if error.missingFields = [] then [] else [(txt "missing_fields", .list (error.missingFields.map .str))])

def publicationValue : Option PublicationEnvelope → Value F
  | some publication => .dict (publicationEnvelopeMachineObject publication)
  | none => .none

def adapterEnvelopeValue (envelope : AdapterEnvelope F) : Value F :=
  .dict [(txt "schema_name", .str adapterSchemaName), (txt "schema_version", .int 1),
    (txt "tool_name", .str contextToolName),
    (txt "status", .str (if envelope.error = none then txt "OK" else txt "ERROR")),
    (txt "route", .dict (routeOutcomeMachineObject envelope.route)),
    (txt "publication", publicationValue envelope.publication),
    (txt "context_pack", match envelope.contextPack with
      | some pack => .dict pack
      | none => .none),
    (txt "exact_integer_encoding", .dict [(txt "scheme", .str exactIntegerEncodingScheme),
      (txt "decimal_string_paths", .list (envelope.decimalStringPaths.map .str))]),
    (txt "fact_block_markdown", .str envelope.factBlockMarkdown),
    (txt "fact_block_sha256", .str envelope.factBlockSha256),
    (txt "error", adapterErrorValue envelope.error)]

/-- `^/context_pack(?:/.*)?$` -/
def contextPackPattern (t : Text) : Bool :=
  t = txt "/context_pack" || (t.startsWith (txt "/context_pack/") && ch '\n' ∉ t)

def adapterErrorAdmitted (error : AdapterError) : Bool :=
  error.code ≠ [] && error.message ≠ [] && error.causeCode.all (· ≠ []) &&
    error.missingFields.all (· ≠ []) && error.missingFields.Nodup

/-- `OUTPUT_SCHEMA` on an envelope: its constants and types hold of every envelope. -/
def outputAdmitted (envelope : AdapterEnvelope F) : Bool :=
  envelope.decimalStringPaths.all (searchEnd contextPackPattern) && envelope.decimalStringPaths.Nodup &&
    searchEnd digestPattern envelope.factBlockSha256 && envelope.error.all adapterErrorAdmitted

end

/-! ## Publishing -/

section
variable {F : Type} [SqliteFloat F]

/-- The adapter's `canonical_json`, which lets the `ValueError` through. -/
def adapterCanonicalJson (value : Value F) : Result Text :=
  if value.safe then .ok (canonicalText value) else .error (.python .valueError)

/-- Whether `_publish` returns the envelope as it is. -/
def publishable (maxResultBytes : Nat) (envelope : AdapterEnvelope F) (text : Text) : Result Bool := do
  let canonical ← adapterCanonicalJson (adapterEnvelopeValue envelope)
  let bytes ← encodeStrict text
  .ok (!(bytes.length > maxTextBytes || !outputAdmitted envelope ||
    ((Text.utf8 canonical).length > maxResultBytes && envelope.error = none)))

/-- `_failure_block` -/
def failureBlock (route : StewardRouteOutcome) (code : FailureCode) : Text :=
  Lines.joinLines [txt "## STEWARD Deterministic Route Block", [],
    txt "- Route decision: " ++ Lines.codeSpan (Named.name route.decision),
    txt "- Operation kind: " ++ Lines.codeSpan route.operationKind,
    txt "- Operation identity: " ++ Lines.codeSpan route.requestDigest,
    txt "- Error code: " ++ Lines.codeSpan code.text,
    txt "- Safe message: " ++ Json.quote ⟨false, true⟩ code.safeMessage,
    txt "- Missing fields: " ++ Lines.codeSpan
      (if route.missingFields = [] then txt "None" else Json.join (txt ", ") route.missingFields),
    txt "- Business result: `NONE`", []]

/-- The publication of a failure: none where the route is not executable, and none where building it raises. -/
def failurePublication (F : Type) [SqliteFloat F] (route : StewardRouteOutcome) (code : FailureCode) :
    Option PublicationEnvelope :=
  if route.decision = .core ∨ route.decision = .context then
    match buildPublicationEnvelope F route .error [] [] [] [] [] [.noBusinessResult]
      (some ⟨code.text, code.safeMessage⟩) with
    | .ok publication => some publication
    | .error _ => none
  else none

/-- The text of a failure. -/
def failureText (F : Type) [SqliteFloat F] (route : StewardRouteOutcome) (code : FailureCode) : Text :=
  match failurePublication F route code with
  | some publication => publication.factBlockMarkdown
  | none => failureBlock route code

/-- The error object of a failure; an empty cause is left out. -/
def adapterError (code : FailureCode) (causeCode : Option Text) (missingFields : List Text) : AdapterError :=
  ⟨code.text, code.safeMessage, causeCode.filter (· ≠ []), missingFields⟩

/-- `_routed_failure`; an envelope with an error that `_publish` does not return is a `RuntimeError`. -/
def routedFailure (maxResultBytes : Nat) (route : StewardRouteOutcome) (code : FailureCode) (causeCode : Option Text)
    (missingFields : List Text) : Result (CallToolResult F) := do
  let text := failureText F route code
  let digest ← factBlockDigest F text
  let envelope : AdapterEnvelope F := ⟨route, failurePublication F route code, none, [], text, digest,
    some (adapterError code causeCode missingFields)⟩
  let fits ← publishable maxResultBytes envelope text
  if fits then .ok ⟨text, envelope, true⟩ else .error (.python .runtimeError)

/-- `_publish` of a business result. -/
def publishResult (maxResultBytes : Nat) (envelope : AdapterEnvelope F) (text : Text) : Result (CallToolResult F) := do
  let fits ← publishable maxResultBytes envelope text
  if fits then .ok ⟨text, envelope, false⟩
  else routedFailure maxResultBytes { envelope.route with grant := none } .resourceLimit none []

/-! ## Dispatching -/

/-- What the success path computes of a pack: its publication, safe JSON and exact integers. -/
structure Presented (F : Type) where
  publication : PublicationEnvelope
  contextPack : List (Text × Value F)
  exactPaths : List Text

structure AgentContextRouteDispatcher (F Pack : Type) where
  decoder : Decoder
  maxResultBytes : Nat
  /-- `prepare_agent_context(load_config(…), …)` under the deadline. -/
  prepare : AgentContextPackRequest → Except PrepareError Pack
  /-- `model_safe_json` and `_publication` of the pack. -/
  present : StewardRouteOutcome → Pack → Result (Presented F)

namespace AgentContextRouteDispatcher

variable {Pack : Type} (d : AgentContextRouteDispatcher F Pack)

/-- `_argument_failure` -/
def argumentFailure : Result (CallToolResult F) :=
  routedFailure d.maxResultBytes ⟨txt "local_steward.agent_route_outcome", 1, .unsupported, txt "INVALID",
    List.replicate 64 (ch '0'), [], none⟩ .argumentInvalid none []

def success (route : StewardRouteOutcome) (pack : Pack) : Result (CallToolResult F) := do
  let presented ← d.present route pack
  publishResult d.maxResultBytes ⟨route, some presented.publication, some presented.contextPack, presented.exactPaths,
    presented.publication.factBlockMarkdown, presented.publication.factBlockSha256, none⟩
    presented.publication.factBlockMarkdown

/-- From the pack request on, every exception is an answer. -/
def execute (route : StewardRouteOutcome) (packRequest : AgentContextPackRequest) : Result (CallToolResult F) :=
  match d.prepare packRequest with
  | .error .timeout => routedFailure d.maxResultBytes route .timeout none []
  | .error (.agentContext cls causeCode) => routedFailure d.maxResultBytes route (.agentContext cls) causeCode []
  | .error (.configuration cls) => routedFailure d.maxResultBytes route .sourceUnavailable (some cls.code) []
  | .error .other => routedFailure d.maxResultBytes route .unavailable none []
  | .ok pack =>
    match d.success route pack with
    | .ok result => .ok result
    | .error _ => routedFailure d.maxResultBytes route .unavailable none []

/-- `except AgentRouteGrantError` -/
def rejected (route : StewardRouteOutcome) (e : Exc) : Result (CallToolResult F) :=
  if e = .steward .agentRouteGrantError ∨ e = .steward .agentRouteGrantReusedError then
    routedFailure d.maxResultBytes route .grantInvalid none []
  else .error e

/-- A granted route: the grant is consumed, then the pack request is built. -/
def granted (guard : RouteGrantGuard) (request : StewardRouteRequest) (route : StewardRouteOutcome)
    (grant : StewardRouteGrant) (fs : List (Text × Value F)) : Result (CallToolResult F) × RouteGrantGuard :=
  match guard.consume F request grant with
  | .error e => (d.rejected route e, guard)
  | .ok guard' =>
    match (do d.decoder.packRequest request (← py (Value.item (.dict fs) (txt "question")))) with
    | .error e => (d.rejected route e, guard')
    | .ok packRequest => (d.execute route packRequest, guard')

def routed (guard : RouteGrantGuard) (request : StewardRouteRequest) (route : StewardRouteOutcome)
    (fs : List (Text × Value F)) : Result (CallToolResult F) × RouteGrantGuard :=
  match route.decision, route.grant with
  | .core, _ => (routedFailure d.maxResultBytes route .coreRequired none [], guard)
  | .clarify, _ => (routedFailure d.maxResultBytes route .clarificationRequired none route.missingFields, guard)
  | .unsupported, _ => (routedFailure d.maxResultBytes route .unsupported none [], guard)
  | .context, none => (routedFailure d.maxResultBytes route .grantInvalid none [], guard)
  | .context, some grant => d.granted guard request route grant fs

/-- The request of admitted arguments, and its route. -/
def route (fs : List (Text × Value F)) : Result (StewardRouteRequest × StewardRouteOutcome) := do
  let request ← routeRequest fs
  let outcome ← routeStewardOperation F request
  .ok (request, outcome)

def dispatchFields (guard : RouteGrantGuard) (fs : List (Text × Value F)) :
    Result (CallToolResult F) × RouteGrantGuard :=
  if ¬ inputAdmitted fs then (d.argumentFailure, guard)
  else match route fs with
    | .error _ => (d.argumentFailure, guard)
    | .ok r => d.routed guard r.1 r.2 fs

/-- `dispatch`: the answer or what it raises, and the guard it leaves. -/
def dispatch (guard : RouteGrantGuard) (toolName : Text) (arguments : Value F) :
    Result (CallToolResult F) × RouteGrantGuard :=
  match arguments with
  | .dict fs => if toolName ≠ contextToolName then (d.argumentFailure, guard) else d.dispatchFields guard fs
  | _ => (d.argumentFailure, guard)

end AgentContextRouteDispatcher

end

end Steward
