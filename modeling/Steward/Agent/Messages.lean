import Steward.Py.Value

/-!
# The tool-calling protocol

What the agent runtime and a model port exchange. The constructors' checks are
fields, so that an invalid call or response cannot be built.
-/

namespace Steward.Agent

open Py

variable (F : Type)

/-- `ModelToolCall` -/
structure ModelToolCall where
  providerCallId : Text
  name : Text
  arguments : List (Text × Value F)
  id_ne_nil : providerCallId ≠ []
  name_ne_nil : name ≠ []

/-- `ModelToolDescriptor` -/
structure ModelToolDescriptor where
  name : Text
  description : Text
  inputSchema : List (Text × Value F)

/-- `ModelToolResultDisposition` -/
inductive Disposition where
  | success
  | error
  | notExecuted
  deriving DecidableEq, Repr

/-- `ModelToolResultMessage` -/
structure ModelToolResultMessage where
  toolCall : ModelToolCall F
  result : List (Text × Value F)
  assistantPreamble : Option Text
  disposition : Disposition

/-- `ModelConversationItem`: a message, the result of a single call, or those of a batch. -/
inductive ModelConversationItem where
  | system (content : Text)
  | user (content : Text)
  | toolResult (message : ModelToolResultMessage F)
  | batchResult (results : List (ModelToolResultMessage F)) (assistantPreamble : Option Text)
      (toolCalls : List (ModelToolCall F))

/-- `ModelTurnResult`: a final answer, or one to three calls with ids of their own. -/
structure ModelTurnResult where
  finalAnswer : Option Text
  toolCalls : List (ModelToolCall F)
  assistantPreamble : Option Text
  exactly_one : finalAnswer.isSome = toolCalls.isEmpty
  at_most_three : toolCalls.length ≤ 3
  ids_nodup : (toolCalls.map ModelToolCall.providerCallId).Nodup

end Steward.Agent
