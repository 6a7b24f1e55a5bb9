import Steward.Mcp.ModelSafe
import Steward.Py.Writing
import Steward.Routing.Dispatch

/-!
# Answers of the native dispatcher

The envelopes of `NativeStewardDispatcher`: `_success` with its size and schema
checks, `_error`, and the `except` clauses of `dispatch`. The validators of the
input and output schemas are the dispatcher's parameters.
-/

namespace Steward.Native

open Py Sqlite

/-! ## Tools and codes -/

def historyTool : Text := txt "steward_history"
def documentTool : Text := txt "steward_read_document"
def codeTool : Text := txt "steward_code_execution"
def updateTool : Text := txt "steward_update_snapshot"
def recoveryTool : Text := txt "steward_recover_snapshot_run"

def toolNames : List Text := [historyTool, documentTool, codeTool, updateTool, recoveryTool]

/-- `_tool_risk` -/
def toolRisk (toolName : Text) : Text :=
  if toolName = historyTool then txt "HISTORICAL_READ"
  else if toolName = documentTool then txt "CURRENT_CONTENT_READ"
  else if toolName = codeTool then txt "CODE_WORKSPACE_READ"
  else if toolName = updateTool then txt "DERIVED_STATE_APPEND"
  else if toolName = recoveryTool then txt "RECOVERY_OR_ADMIN"
  else txt "HISTORICAL_READ"

/-- The codes of an error answer. -/
inductive ErrorCode where
  | toolNotFound
  | argumentInvalid
  | selectionInvalid
  | sourceUnavailable
  | busy
  | operationRejected
  | timeout
  | resourceLimit
  | unavailable
  deriving DecidableEq

def ErrorCode.text : ErrorCode → Text
  | .toolNotFound => txt "STEWARD_NATIVE_TOOL_NOT_FOUND"
  | .argumentInvalid => txt "STEWARD_NATIVE_ARGUMENT_INVALID"
  | .selectionInvalid => txt "STEWARD_NATIVE_SELECTION_INVALID"
  | .sourceUnavailable => txt "STEWARD_NATIVE_SOURCE_UNAVAILABLE"
  | .busy => txt "STEWARD_NATIVE_BUSY"
  | .operationRejected => txt "STEWARD_NATIVE_OPERATION_REJECTED"
  | .timeout => txt "STEWARD_NATIVE_TIMEOUT"
  | .resourceLimit => txt "STEWARD_NATIVE_RESOURCE_LIMIT"
  | .unavailable => txt "STEWARD_NATIVE_UNAVAILABLE"

/-- `_safe_message` -/
def ErrorCode.safeMessage : ErrorCode → Text
  | .toolNotFound => txt "The requested STEWARD tool is unavailable."
  | .argumentInvalid => txt "The STEWARD tool arguments are invalid."
  | .selectionInvalid => txt "STEWARD could not resolve one safe exact selection."
  | .sourceUnavailable => txt "The configured STEWARD source is unavailable."
  | .busy => txt "STEWARD is busy or changed during the operation."
  | .operationRejected => txt "STEWARD rejected the requested operation safely."
  | .timeout => txt "The STEWARD operation exceeded its bounded time."
  | .resourceLimit => txt "The STEWARD result exceeds its bounded size."
  | .unavailable => txt "The STEWARD operation failed safely."

/-- `_map_steward_error` -/
def mapStewardError (code : Text) : ErrorCode :=
  if code.startsWith (txt "STEWARD_SELECTION_") ∨ code ∈ [txt "STEWARD_SCOPE_RESOLUTION_INVALID",
      txt "STEWARD_PATH_RESOLUTION_INVALID", txt "SNAPSHOT_NOT_FOUND", txt "SNAPSHOT_SCOPE_INVALID",
      txt "BASE_SELECTOR_REQUIRED"] then .selectionInvalid
  else if code ∈ [txt "UNSUPPORTED_PROFILE", txt "CONTINUATION_MISMATCH", txt "CONTEXT_PROJECTION_INVALID",
      txt "CODE_EXECUTION_INVALID", txt "CODE_EXECUTION_BASELINE_INVALID"] then .argumentInvalid
  else if code = txt "CODE_EXECUTION_REPOSITORY_INVALID" then .sourceUnavailable
  else if code = txt "CODE_EXECUTION_RESOURCE_LIMIT" then .resourceLimit
  else if code = txt "STORAGE_BUSY" then .busy
  else if code.startsWith (txt "CONFIG_") ∨ code ∈ [txt "STORAGE_NOT_INITIALIZED", txt "STORAGE_SCHEMA_INVALID",
      txt "STORAGE_SCHEMA_TOO_NEW", txt "STORAGE_MIGRATION_REQUIRED", txt "STEWARD_SESSION_UNAVAILABLE",
      txt "STEWARD_SESSION_CONFIGURATION_INVALID", txt "STEWARD_AUTHORITY_DOMAIN_MISMATCH"] then .sourceUnavailable
  else if Text.hasInfix (txt "RESOURCE_LIMIT") code ∨ code.endsWith (txt "BUDGET_INVALID") then .resourceLimit
  else .operationRejected

/-- What an operation or its answer raises, as the `except` clauses of `dispatch` tell it apart. -/
inductive Raised where
  | timeout
  | steward (code : Text) (causeCode : Option Text)
  | argument
  | other
  deriving DecidableEq

/-! ## Envelopes -/

structure ImageContent where
  data : Text
  mimeType : Text
  deriving DecidableEq

/-- The result, the selections and the images of an operation. -/
structure OperationResult (F : Type) where
  result : List (Text × Value F)
  selection : List (Value F)
  images : List ImageContent

structure CallToolResult (F : Type) where
  text : Text
  images : List ImageContent
  structuredContent : List (Text × Value F)
  isError : Bool

structure NativeStewardDispatcher (F : Type) where
  /-- `safe_session_identity_payload` of the session -/
  sessionIdentity : List (Text × Value F)
  /-- `host_authority_machine_object` of the host policy -/
  authority : Text → List (Text × Value F)
  maxResultBytes : Nat
  /-- the validator finds no error in arguments of a tool -/
  inputAdmitted : Text → List (Text × Value F) → Bool
  /-- the validator finds no error in an envelope of a tool -/
  outputAdmitted : Text → List (Text × Value F) → Bool

def adapterSchemaName : Text := txt "local_steward.native_agent_result"

def okText : Text := txt "OK: STEWARD returned a governed structured result with exact selection facts."

section
variable {F : Type}

/-- A text, or `None`. -/
def nullable : Option Text → Value F
  | some t => .str t
  | none => .none

/-- The kinds of tracks in a packet, each once, in the order of its facts. -/
def trackKinds (facts : List (Value F)) : List Text :=
  let kinds := facts.filterMap fun fact =>
    match fact.getIf (txt "kind") with
    | .str kind => lookup [(txt "video_video_stream", txt "video"), (txt "video_audio_stream", txt "audio"),
        (txt "video_subtitle_stream", txt "subtitle"), (txt "audio_stream", txt "audio")] kind
    | _ => none
  kinds.foldl (fun seen kind => if kind ∈ seen then seen else seen ++ [kind]) []

/-- The summary of a structural read, for `_success_text`. -/
def readSummary (document : List (Text × Value F)) (packet : Value F) : List (Text × Value F) :=
  let media := match Value.get document (txt "media") with
    | .dict media => [txt "duration_ms", txt "decoded_frame_count", txt "decoded_audio_bytes"].map fun k =>
        (k, Value.get media k)
    | _ => []
  let tracks := match packet.getIf (txt "facts") with
    | .list facts => if trackKinds facts = [] then []
        else [(txt "track_kinds", .list ((trackKinds facts).map .str))]
    | _ => []
  let verification := match packet.getIf (txt "verification") with
    | .dict verification => [(txt "verification", Value.get verification (txt "status"))]
    | _ => []
  [txt "view", txt "source_format", txt "returned_count", txt "has_more"].map (fun k => (k, Value.get document k)) ++
    media ++ tracks ++ verification

end

namespace NativeStewardDispatcher

section
variable {F : Type} (d : NativeStewardDispatcher F)

/-- `_base` -/
def base (toolName : Text) (selection : List (Value F)) (attribution : List (Text × Value F)) :
    List (Text × Value F) :=
  [(txt "schema_name", .str adapterSchemaName), (txt "schema_version", .int 3), (txt "tool_name", .str toolName),
    (txt "risk_class", .str (toolRisk toolName)), (txt "session", .dict d.sessionIdentity),
    (txt "authority", .dict (d.authority toolName)), (txt "thread_attribution", .dict attribution),
    (txt "selection", .list selection)]

def integerEncoding (paths : List Text) : Value F :=
  .dict [(txt "scheme", .str exactIntegerEncodingScheme), (txt "decimal_string_paths", .list (paths.map .str))]

/-- `_error` -/
def error (toolName : Text) (code : ErrorCode) (causeCode : Option Text) (attribution : List (Text × Value F)) :
    CallToolResult F where
  text := txt "ERROR [" ++ code.text ++ txt "]: " ++ code.safeMessage
  images := []
  structuredContent := d.base toolName [] attribution ++
    [(txt "status", .str (txt "ERROR")), (txt "exact_integer_encoding", integerEncoding []), (txt "result", .none),
      (txt "error", .dict [(txt "code", .str code.text), (txt "cause_code", nullable causeCode),
        (txt "message", .str code.safeMessage)])]
  isError := true

/-- The envelope of a success. -/
def envelope (toolName : Text) (result : OperationResult F) (attribution : List (Text × Value F)) :
    List (Text × Value F) :=
  let safe := modelSafeJson (txt "/result") (.dict result.result)
  d.base toolName result.selection attribution ++
    [(txt "status", .str (txt "OK")), (txt "exact_integer_encoding", integerEncoding safe.2),
      (txt "result", safe.1), (txt "error", .none)]

end

section
variable {F : Type} [SqliteFloat F] (d : NativeStewardDispatcher F)

/-- The adapter's `canonical_json`. -/
def canonical (value : Value F) : Except Raised Text :=
  (adapterCanonicalJson value).mapError fun _ => .argument

/-- `_success_text` -/
def successText (toolName : Text) (result : Value F) : Except Raised Text :=
  match result.getIf (txt "document") with
  | .dict document =>
    if toolName = documentTool then do
      let structural ← (Value.memStrs (Value.get document (txt "view")) [txt "STRUCTURE", txt "LOCATE"]).mapError
        fun _ => .argument
      if structural then do
        let encoded ← canonical (.dict (readSummary document (result.getIf (txt "evidence_packet"))))
        .ok (txt "OK exact read facts: " ++ encoded ++ txt ". Citations remain in structuredContent.")
      else .ok okText
    else .ok okText
  | _ => .ok okText

/-- `_success` -/
def success (toolName : Text) (result : OperationResult F) (attribution : List (Text × Value F)) :
    Except Raised (CallToolResult F) :=
  let safe := (modelSafeJson (txt "/result") (.dict result.result)).1
  if safe.isDict then do
    let envelope := d.envelope toolName result attribution
    let encoded ← canonical (.dict envelope)
    if d.maxResultBytes < (Text.utf8 encoded).length then .ok (d.error toolName .resourceLimit none attribution)
    else if d.outputAdmitted toolName envelope then do
      let text ← successText toolName safe
      .ok ⟨text, result.images, envelope, false⟩
    else .ok (d.error toolName .unavailable none attribution)
  else .ok (d.error toolName .unavailable none attribution)

/-- The `except` clauses of `dispatch`. -/
def caught (toolName : Text) (attribution : List (Text × Value F)) : Raised → CallToolResult F
  | .timeout => d.error toolName .timeout (some (if toolName = documentTool
      then txt "DOCUMENT_OPERATION_DEADLINE_EXCEEDED" else txt "OPERATION_DEADLINE_EXCEEDED")) attribution
  | .steward code causeCode => d.error toolName (mapStewardError code) (some (causeCode.getD code)) attribution
  | .argument => d.error toolName .argumentInvalid none attribution
  | .other => d.error toolName .unavailable none attribution

/-- The answer to an operation that ended before its deadline. -/
def answer (toolName : Text) (attribution : List (Text × Value F))
    (outcome : Except Raised (OperationResult F)) : CallToolResult F :=
  match outcome >>= fun result => d.success toolName result attribution with
  | .ok result => result
  | .error raised => d.caught toolName attribution raised

/-- The result passes the checks between an operation and its answer. -/
def Presents (toolName : Text) (attribution : List (Text × Value F)) (result : OperationResult F) : Prop :=
  (Value.dict (d.envelope toolName result attribution)).safe = true ∧
    (Text.utf8 (canonicalText (.dict (d.envelope toolName result attribution)))).length ≤ d.maxResultBytes ∧
    d.outputAdmitted toolName (d.envelope toolName result attribution) = true ∧
    Ok (successText toolName (modelSafeJson (txt "/result") (.dict result.result)).1)

variable {d} {toolName : Text} {attribution : List (Text × Value F)}

section

omit [SqliteFloat F]

/-- Every `except` clause answers with `_error`. -/
theorem caught_eq_error (raised : Raised) :
    ∃ code causeCode, d.caught toolName attribution raised = d.error toolName code causeCode attribution := by
  cases raised <;> exact ⟨_, _, rfl⟩

/-- An error carries no result. -/
theorem result_error (code : ErrorCode) (causeCode : Option Text) :
    Value.get (d.error toolName code causeCode attribution).structuredContent (txt "result") = .none := rfl

theorem isDict_modelSafeJson (pointer : Text) (fs : List (Text × Value F)) :
    (modelSafeJson pointer (.dict fs)).1.isDict = true := by
  rw [modelSafeJson]
  rfl

end

theorem canonical_of_safe {value : Value F} (h : value.safe = true) :
    canonical value = .ok (canonicalText value) := by
  rw [canonical, adapterCanonicalJson, if_pos h]
  rfl

theorem canonical_of_not_safe {value : Value F} (h : ¬ value.safe = true) :
    canonical value = .error .argument := by
  rw [canonical, adapterCanonicalJson, if_neg h]
  rfl

/-- `_success` answers `OK`, answers with `_error` or raises. -/
theorem success_cases (result : OperationResult F) :
    (d.Presents toolName attribution result ∧
      ∃ r, d.success toolName result attribution = .ok r ∧ r.isError = false) ∨
    (¬ d.Presents toolName attribution result ∧ ∀ r, d.success toolName result attribution = .ok r →
      ∃ code, r = d.error toolName code none attribution) := by
  unfold success Presents
  simp only [isDict_modelSafeJson, if_true]
  by_cases hsafe : (Value.dict (d.envelope toolName result attribution)).safe = true
  · rw [canonical_of_safe hsafe, ok_bind_ok]
    split_ifs with hsize hout
    · exact .inr ⟨fun h => absurd h.2.1 (Nat.not_le.2 hsize), fun r hr => ⟨_, (Except.ok.inj hr).symm⟩⟩
    · cases htext : successText toolName (modelSafeJson (txt "/result") (.dict result.result)).1 with
      | ok text => exact .inl ⟨⟨hsafe, Nat.not_lt.1 hsize, hout, text, rfl⟩, _, rfl, rfl⟩
      | error raised => exact .inr ⟨fun h => not_ok_error raised h.2.2.2, fun r hr => by cases hr⟩
    · exact .inr ⟨fun h => hout h.2.2.1, fun r hr => ⟨_, (Except.ok.inj hr).symm⟩⟩
  · rw [canonical_of_not_safe hsafe]
    exact .inr ⟨fun h => hsafe h.1, fun r hr => by cases hr⟩

/-- An operation that returns a result that passes every check is answered with success, any other with `_error`. -/
theorem answer_cases (toolName : Text) (attribution : List (Text × Value F))
    (outcome : Except Raised (OperationResult F)) :
    ((∃ result, outcome = .ok result ∧ d.Presents toolName attribution result) ∧
      (d.answer toolName attribution outcome).isError = false) ∨
    ((¬ ∃ result, outcome = .ok result ∧ d.Presents toolName attribution result) ∧
      ∃ code causeCode, d.answer toolName attribution outcome = d.error toolName code causeCode attribution) := by
  cases outcome with
  | error raised => exact .inr ⟨(by rintro ⟨_, h, -⟩; cases h), caught_eq_error raised⟩
  | ok result =>
    have hdef : d.answer toolName attribution (.ok result) = match d.success toolName result attribution with
      | .ok r => r
      | .error raised => d.caught toolName attribution raised := rfl
    rw [hdef]
    rcases d.success_cases result with ⟨hpresents, r, hr, hok⟩ | ⟨hnot, herror⟩
    · rw [hr]
      exact .inl ⟨⟨result, rfl, hpresents⟩, hok⟩
    · refine .inr ⟨fun ⟨result', h, hpresents⟩ => hnot (Except.ok.inj h ▸ hpresents), ?_⟩
      cases hs : d.success toolName result attribution with
      | ok r =>
        obtain ⟨code, rfl⟩ := herror r hs
        exact ⟨code, none, rfl⟩
      | error raised => exact caught_eq_error raised

end

end NativeStewardDispatcher

end Steward.Native
