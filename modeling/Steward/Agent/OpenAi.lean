import Steward.Agent.Returns
import Steward.Py.StrictJson
import Steward.Py.Utf8
import Steward.Runs.Coordinator
import Steward.Sqlite.Integral

/-!
# The OpenAI-compatible model port

`OpenAICompatibleToolCallingModel.complete`: the request, the transport, and the
decoding of the response. Of the audit record only what building it may raise is
modelled: the turn does not read it.
-/

namespace Steward.Agent

open Py Sqlite

/-- What `complete` raises: a `ModelToolCallingError`, or something else. -/
inductive PortError where
  | rejected (code message : Text)
  | raised (e : Raised)

/-- `ModelToolCallingError` is a `RuntimeError`, not a `RuntimeFailure`. -/
def PortError.toRaised : PortError → Raised
  | .rejected _ _ => .other (txt "ModelToolCallingError")
  | .raised e => e

def reject {α : Type} (code message : String) : Except PortError α :=
  .error (.rejected (txt code) (txt message))

variable {F σ : Type} [SqliteFloat F]

/-- `strict_json_object` -/
def strictJsonObject (text : Text) : Except PortError (List (Text × Value F)) :=
  match Json.strictLoads (F := F) text with
  | none => reject "MODEL_TOOL_CALL_INVALID" "tool arguments are not strict JSON"
  | some (.dict fields) => .ok fields
  | some _ => reject "MODEL_TOOL_CALL_INVALID" "tool arguments must be a JSON object"

/-- `_strict_response_object` -/
def strictResponseObject (body : List Byte) : Except PortError (List (Text × Value F)) :=
  if ¬ Utf8.valid body then reject "MODEL_CALL_FAILED" "provider response is not strict JSON"
  else match Json.strictLoads (F := F) (Utf8.decodeReplace body) with
    | none => reject "MODEL_CALL_FAILED" "provider response is not strict JSON"
    | some (.dict fields) => .ok fields
    | some _ => reject "MODEL_CALL_FAILED" "provider response must be an object"

/-! ## The audit -/

/-- `_AUDIT_SECRET_MARKERS` -/
def auditSecretMarkers : List Text :=
  [txt "authorization", txt "bearer ", txt "api_key", txt "api-key",
    txt "steward_file_agent_provider_api_key"]

/-- `[^\s"'\\]` -/
def isPathCharacter (c : CodePoint) : Bool :=
  !(isSpace c || c.val = 0x22 || c.val = 0x27 || c.val = 0x5C)

/-- `[A-Za-z0-9_.-]` -/
def isNameCharacter (c : CodePoint) : Bool :=
  Text.isDigit c || (65 ≤ c.val && c.val ≤ 90) || (97 ≤ c.val && c.val ≤ 122) ||
    c = ch '_' || c = ch '.' || c = ch '-'

/-- `_ABSOLUTE_PATH_TEXT.sub("[ABSOLUTE_PATH]", text)`: a match is a slash and all the path
characters after it. Flags: inside a match, and after a name character. -/
def redactPaths : Bool → Bool → Text → Text
  | _, _, [] => []
  | inside, afterName, c :: s =>
    if inside && isPathCharacter c then redactPaths true afterName s
    else if c = ch '/' ∧ afterName = false ∧ s.head?.any isPathCharacter then
      txt "[ABSOLUTE_PATH]" ++ redactPaths true afterName s
    else c :: redactPaths false (isNameCharacter c) s

section Decoding

variable (casefold : Text → Text) (host : Host F σ) (tools : List (ModelToolDescriptor F))

/-- `_safe_audit_text` -/
def safeAuditText (text : Text) : Option Text :=
  if auditSecretMarkers.any fun marker => Text.hasInfix marker (casefold text) then none
  else some (redactPaths false false text)

/-- `_audit_sha256`: text with a lone surrogate is not encoded. -/
def auditSha256 : Option Text → Except PortError Unit
  | none => .ok ()
  | some text =>
    if text.encodable then .ok () else .error (.raised (.other (txt "UnicodeEncodeError")))

/-- `_content_audit` -/
def contentAudit : Value F → Except PortError Unit
  | .str text => auditSha256 (safeAuditText casefold text)
  | _ => .ok ()

/-- The members of an object; `{}` for any other value. -/
def members : Value F → List (Text × Value F)
  | .dict fields => fields
  | _ => []

/-- The elements of an array; `[]` for any other value. -/
def elements : Value F → List (Value F)
  | .list xs => xs
  | _ => []

/-- The audit's own schema validation. -/
def validateAudited (name : Value F) (arguments : Option (List (Text × Value F))) : Except PortError Unit :=
  match name, arguments with
  | .str name, some arguments =>
    match tools.find? fun tool => tool.name = name with
    | none => .ok ()
    | some tool => match host.validate tool.inputSchema arguments with
      | .raises e => .error (.raised e)
      | .fails | .passes => .ok ()
  | _, _ => .ok ()

/-- `_tool_call_audit` -/
def toolCallAudit (rawCall : Value F) : Except PortError Unit := do
  let function := members (Value.get (members rawCall) (txt "function"))
  let safeArguments := match Value.get function (txt "arguments") with
    | .str text => safeAuditText casefold text
    | _ => none
  let parsed := safeArguments.bind fun text => (strictJsonObject (F := F) text).toOption
  validateAudited host tools (Value.get function (txt "name")) parsed
  match Value.get (members rawCall) (txt "id") with
  | .str callId => auditSha256 (safeAuditText casefold callId)
  | _ => pure ()
  auditSha256 safeArguments

/-- The message of the only choice, as the audit selects it. -/
def auditedMessage (envelope : List (Text × Value F)) : List (Text × Value F) :=
  match Value.get envelope (txt "choices") with
  | .list [choice] => members (Value.get (members choice) (txt "message"))
  | _ => []

/-- `_response_audit` -/
def responseAudit (envelope : List (Text × Value F)) : Except PortError Unit := do
  let message := auditedMessage envelope
  (elements (Value.get message (txt "tool_calls"))).forM (toolCallAudit casefold host tools)
  contentAudit casefold (Value.get message (txt "content"))

/-! ## The response -/

def isText (text : String) : Value F → Bool
  | .str s => s = txt text
  | _ => false

def incomplete {α : Type} : Except PortError α :=
  reject "MODEL_TOOL_CALL_INVALID" "provider tool call is incomplete"

/-- One element of `tool_calls`. -/
def decodeCall (rawCall : Value F) : Except PortError (ModelToolCall F) :=
  match rawCall with
  | .dict rawCall =>
    if ¬ isText "function" (Value.get rawCall (txt "type")) then
      reject "MODEL_TOOL_CALL_INVALID" "provider tool call is invalid"
    else match Value.get rawCall (txt "id"), Value.get rawCall (txt "function") with
      | .str callId, .dict function =>
        if hid : callId = [] then incomplete
        else match Value.get function (txt "name"), Value.get function (txt "arguments") with
          | .str name, .str arguments =>
            if hname : name = [] then incomplete
            else if ∀ tool ∈ tools, tool.name ≠ name then
              reject "TOOL_NOT_ALLOWED" "provider requested an unregistered tool"
            else do
              let arguments ← strictJsonObject arguments
              pure ⟨callId, name, arguments, hid, hname⟩
          | _, _ => incomplete
      | _, _ => incomplete
  | _ => reject "MODEL_TOOL_CALL_INVALID" "provider tool call is invalid"

/-- `ModelTurnResult(tool_calls=…)` -/
def newToolCalls (calls : List (ModelToolCall F)) (preamble : Option Text) :
    Except PortError (ModelTurnResult F) :=
  if hne : calls = [] then
    reject "MODEL_TOOL_CALL_INVALID" "model response must contain exactly one final answer or tool batch"
  else if hlen : ¬ calls.length ≤ 3 then
    reject "MODEL_TOOL_CALL_INVALID" "tool-call batch exceeds limit"
  else if hids : ¬ (calls.map ModelToolCall.providerCallId).Nodup then
    reject "MODEL_TOOL_CALL_INVALID" "duplicate tool call ID"
  else .ok ⟨none, calls, preamble, by simp [hne], not_not.1 hlen, not_not.1 hids⟩

/-- `ModelTurnResult(final_answer=…)` -/
def newFinalAnswer (answer : Text) : ModelTurnResult F :=
  ⟨some answer, [], none, rfl, by simp, List.nodup_nil⟩

/-- The preamble of a batch: a content that is not blank. -/
def decodePreamble : Value F → Except PortError (Option Text)
  | .none => .ok none
  | .str content =>
    if strip content = [] then .ok none
    else if (safeAuditText casefold content).isNone then
      reject "MODEL_TOOL_CALL_INVALID" "tool call preamble is unsafe"
    else .ok (some content)
  | _ => reject "MODEL_TOOL_CALL_INVALID" "tool call response content is invalid"

/-- A message with tool calls, or a final answer. -/
def decodeMessage (message : List (Text × Value F)) (finishReason : Text) :
    Except PortError (ModelTurnResult F) :=
  let content := Value.get message (txt "content")
  match Value.get message (txt "tool_calls") with
  | .none | .list [] =>
    if txt "function_call" ∈ keys message then
      reject "MODEL_TOOL_CALL_INVALID" "legacy function calls are not supported"
    else if finishReason ≠ txt "stop" then
      reject "MODEL_TOOL_CALL_INVALID" "final response finish reason is unsupported"
    else match content with
      | .str answer =>
        if strip answer = [] then
          reject "MODEL_TOOL_CALL_INVALID" "provider final response is missing"
        else .ok (newFinalAnswer answer)
      | _ => reject "MODEL_TOOL_CALL_INVALID" "provider final response is missing"
  | .list rawCalls =>
    if rawCalls.length > 3 then reject "MODEL_TOOL_CALL_INVALID" "tool-call batch exceeds limit"
    else if txt "function_call" ∈ keys message then
      reject "MODEL_TOOL_CALL_INVALID" "legacy function calls are not supported"
    else if finishReason ≠ txt "tool_calls" then
      reject "MODEL_TOOL_CALL_INVALID" "tool call finish reason is contradictory"
    else do
      let preamble ← decodePreamble casefold content
      let calls ← rawCalls.mapM (decodeCall tools)
      newToolCalls calls preamble
  | _ => reject "MODEL_CALL_FAILED" "provider tool calls are invalid"

/-- The decoding of a response body. -/
def decodeBody (body : List Byte) : Except PortError (ModelTurnResult F) := do
  let envelope ← strictResponseObject body
  responseAudit casefold host tools envelope
  match Value.get envelope (txt "choices") with
  | .list [.dict choice] =>
    match Value.get choice (txt "message"), Value.get choice (txt "finish_reason") with
    | .dict message, .str finishReason =>
      match Value.get envelope (txt "model") with
      | .none | .str _ => decodeMessage casefold tools message finishReason
      | _ => reject "MODEL_CALL_FAILED" "provider returned model is invalid"
    | _, _ => reject "MODEL_CALL_FAILED" "provider response choice is invalid"
  | _ => reject "MODEL_CALL_FAILED" "provider response must contain exactly one choice"

end Decoding

/-! ## The port -/

/-- `ToolCallingProviderSettings`, less the timeout that only the transport reads. -/
structure ProviderSettings (F : Type) where
  baseUrl : Text
  apiKey : Text
  model : Text
  maxTokens : Int
  temperature : Value F
  maxResponseBytes : Nat
  allowNetwork : Bool

/-- What a transport raises: an `HTTPError`, another `OSError`, or something else. -/
inductive TransportError where
  | http (status : Int)
  | unreachable
  | raised (e : Raised)

/-- What a transport returns. Plain bytes have no status. -/
inductive Received where
  | response (body : List Byte) (httpStatus : Option Int)
  | foreign

/-- `ToolCallingProviderTransport`: URL, headers, payload and size limit. -/
abbrev Transport (σ : Type) :=
  Text → List (Text × Text) → List Byte → Nat → σ → Except TransportError Received × σ

/-- `_chat_completions_url` -/
def chatCompletionsUrl (baseUrl : Text) : Text :=
  let normalized := (baseUrl.reverse.dropWhile (· = ch '/')).reverse
  if Text.endsWith normalized (txt "/chat/completions") then normalized
  else normalized ++ txt "/chat/completions"

/-- `json.dumps(…, ensure_ascii=False, separators=(",", ":"), allow_nan=False)` -/
def dumpsFinite (v : Value F) : Option Text :=
  if v.finite then some (Json.render canonicalStyle v) else none

def wireCall (call : ModelToolCall F) : Option (Value F) := do
  let arguments ← dumpsFinite (.dict call.arguments : Value F)
  pure (.dict [(txt "id", .str call.providerCallId), (txt "type", .str (txt "function")),
    (txt "function", .dict [(txt "name", .str call.name), (txt "arguments", .str arguments)])])

def wireResult (message : ModelToolResultMessage F) : Option (Value F) := do
  let content ← dumpsFinite (.dict message.result : Value F)
  pure (.dict [(txt "role", .str (txt "tool")),
    (txt "tool_call_id", .str message.toolCall.providerCallId), (txt "content", .str content)])

def wireAssistant (preamble : Option Text) (calls : List (Value F)) : Value F :=
  .dict [(txt "role", .str (txt "assistant")), (txt "content", optionalValue preamble),
    (txt "tool_calls", .list calls)]

/-- `_wire_message` -/
def wireMessage : ModelConversationItem F → Option (List (Value F))
  | .system content =>
    some [.dict [(txt "role", .str (txt "system")), (txt "content", .str content)]]
  | .user content =>
    some [.dict [(txt "role", .str (txt "user")), (txt "content", .str content)]]
  | .toolResult message => do
    let call ← wireCall message.toolCall
    let result ← wireResult message
    pure [wireAssistant message.assistantPreamble [call], result]
  | .batchResult results preamble toolCalls => do
    let calls ← toolCalls.mapM wireCall
    let results ← results.mapM wireResult
    pure (wireAssistant preamble calls :: results)

/-- `_wire_tool` -/
def wireTool (descriptor : ModelToolDescriptor F) : Value F :=
  .dict [(txt "type", .str (txt "function")),
    (txt "function", .dict [(txt "name", .str descriptor.name),
      (txt "description", .str descriptor.description), (txt "parameters", .dict descriptor.inputSchema)])]

section Port

variable (casefold : Text → Text) (host : Host F σ) (settings : ProviderSettings F)
  (transport : Transport σ)

/-- The payload of a request. -/
def requestPayload (messages : List (ModelConversationItem F)) (tools : List (ModelToolDescriptor F)) :
    Option (List Byte) := do
  let wireMessages ← messages.mapM wireMessage
  let text ← dumpsFinite (.dict [(txt "model", .str settings.model),
    (txt "messages", .list wireMessages.flatten), (txt "tools", .list (tools.map wireTool)),
    (txt "tool_choice", .str (txt "auto")), (txt "stream", .bool false),
    (txt "max_tokens", .int settings.maxTokens), (txt "temperature", settings.temperature)] : Value F)
  Text.encode text

/-- The checks before the transport is called. -/
def request (messages : List (ModelConversationItem F)) (tools : List (ModelToolDescriptor F)) :
    Except PortError (List Byte) :=
  if settings.allowNetwork = false then
    reject "MODEL_CALL_FAILED" "network use requires explicit opt-in"
  else if ¬ (tools.map ModelToolDescriptor.name).Nodup then
    reject "MODEL_TOOL_CALL_INVALID" "tool descriptors must have unique names"
  else match requestPayload settings messages tools with
    | none => reject "MODEL_TOOL_CALL_INVALID" "provider request is not serializable"
    | some payload => .ok payload

/-- `Authorization`, `Content-Type` and `Accept`. -/
def headers : List (Text × Text) :=
  [(txt "Authorization", txt "Bearer " ++ settings.apiKey),
    (txt "Content-Type", txt "application/json"), (txt "Accept", txt "application/json")]

def TransportError.toPort : TransportError → PortError
  | .http status => .rejected (txt "MODEL_CALL_FAILED")
      (txt "provider returned HTTP status " ++ Text.ofInt status)
  | .unreachable => .rejected (txt "MODEL_CALL_FAILED") (txt "provider transport failed")
  | .raised e => .raised e

/-- What comes back, up to the body. -/
def receive (tools : List (ModelToolDescriptor F)) : Received → Except PortError (ModelTurnResult F)
  | .foreign => reject "MODEL_CALL_FAILED" "provider transport returned an invalid response"
  | .response body httpStatus =>
    if httpStatus.any fun status => ¬ (200 ≤ status ∧ status < 300) then
      reject "MODEL_CALL_FAILED" "provider returned a non-success status"
    else if body.length > settings.maxResponseBytes then
      reject "MODEL_CALL_FAILED" "provider response exceeds the byte limit"
    else decodeBody casefold host tools body

/-- `complete` -/
def complete (messages : List (ModelConversationItem F)) (tools : List (ModelToolDescriptor F)) :
    Injected σ (Response F) := fun env =>
  match request settings messages tools with
  | .error e => (.error e.toRaised, env)
  | .ok payload =>
    match transport (chatCompletionsUrl settings.baseUrl) (headers settings) payload
        settings.maxResponseBytes env with
    | (.error e, env') => (.error e.toPort.toRaised, env')
    | (.ok received, env') =>
      ((receive casefold host settings tools received |>.mapError PortError.toRaised).map .turn, env')

/-- `OpenAICompatibleToolCallingModel` -/
def openAiModel : ToolCallingModel F σ := ⟨complete casefold host settings transport⟩

end Port

namespace Nan

def host : Host Integral Unit := ⟨fun _ _ => .passes, fun env => (0, env)⟩

/-- A tool that takes any object. -/
def tool : RuntimeTool Integral Unit where
  name := txt "read"
  description := txt "read"
  inputSchema := []
  sourceFamily := .synthetic
  dispatcher := fun _ env => (.ok .foreign, env)
  readOnly := true
  contentReservationBytes := some 0
  preflight := none
  contentReservation := none

def registry : ToolRegistry Integral Unit := ⟨[tool], by decide⟩

def settings : ProviderSettings Integral where
  baseUrl := txt "http://localhost"
  apiKey := txt "key"
  model := txt "model"
  maxTokens := 1024
  temperature := .int 0
  maxResponseBytes := 1000000
  allowNetwork := true

/-- One choice with one call, whose arguments are an object with a NaN. -/
def envelope : Value Integral :=
  .dict [(txt "choices", .list [.dict [(txt "finish_reason", .str (txt "tool_calls")),
    (txt "message", .dict [(txt "content", .none), (txt "tool_calls", .list [.dict
      [(txt "id", .str (txt "1")), (txt "type", .str (txt "function")),
        (txt "function", .dict [(txt "name", .str (txt "read")),
          (txt "arguments", .str (txt "\x7b\"n\":NaN\x7d"))])]])])]])]

def body : List Byte := Text.utf8 (Json.render canonicalStyle envelope)

def model : ToolCallingModel Integral Unit :=
  openAiModel id host settings fun _ _ _ _ env => (.ok (.response body (some 200)), env)

def ended : Except Raised (AgentTurnResult Integral) × Turn Integral Unit :=
  run host registry Limits.default model ⟨txt "read it", []⟩ {} ()

end Nan

end Steward.Agent
