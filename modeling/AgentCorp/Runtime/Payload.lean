/-
  Requests as the runtime receives them, and the attributes it reads off them.

  The runtime takes any object with the right attributes: `Payload` has the request schemas,
  the payload that the autonomous loop synthesizes, and `other` for any further object.
-/
import AgentCorp.Runtime.AutonomousExecution

namespace AgentCorp.Runtime

open AgentCorp.Python

/-- The override fields that the chat and stream requests share. -/
structure ChatBaseRequest where
  message : String
  provider : Option String := none
  model : Option String := none
  temperature : Option Rat := none
  topP : Option Rat := none
  maxTokens : Option Nat := none
  runtimeVersion : String := "AgentCorp V1"
  stream : Bool := false
  toolChoice : Option String := none
  deriving DecidableEq, Repr

structure ChatCreateRequest extends ChatBaseRequest where
  agentId : Int
  deriving DecidableEq, Repr

structure ChatContinueRequest extends ChatBaseRequest where
  deriving DecidableEq, Repr

structure ChatRegenerateRequest where
  provider : Option String := none
  model : Option String := none
  temperature : Option Rat := none
  topP : Option Rat := none
  maxTokens : Option Nat := none
  runtimeVersion : String := "AgentCorp V1"
  stream : Bool := false
  deriving DecidableEq, Repr

structure ChatRetryRequest where
  provider : Option String := none
  model : Option String := none
  runtimeVersion : String := "AgentCorp V1"
  deriving DecidableEq, Repr

structure StreamingChatRequest where
  agentId : Option Int := none
  conversationId : Option Int := none
  message : String
  provider : Option String := none
  model : Option String := none
  temperature : Option Rat := none
  topP : Option Rat := none
  maxTokens : Option Nat := none
  runtimeVersion : String := "AgentCorp V1"
  toolChoice : Option String := none
  deriving DecidableEq, Repr

/-- An object of another class: the attributes it has. -/
structure OtherPayload where
  typeName : String
  message : Option String := none
  provider : Option String := none
  temperature : Option Rat := none
  maxTokens : Option Nat := none
  runtimeVersion : Option String := none
  toolChoice : Option String := none
  deriving DecidableEq, Repr

inductive Payload where
  | create (request : ChatCreateRequest)
  | continued (request : ChatContinueRequest)
  | regenerate (request : ChatRegenerateRequest)
  | retry (request : ChatRetryRequest)
  | streaming (request : StreamingChatRequest)
  | task (payload : TaskPayload)
  | other (payload : OtherPayload)
  deriving DecidableEq, Repr

namespace Payload

/-- `type(payload).__name__`. -/
def typeName : Payload → String
  | create _ => "ChatCreateRequest"
  | continued _ => "ChatContinueRequest"
  | regenerate _ => "ChatRegenerateRequest"
  | retry _ => "ChatRetryRequest"
  | streaming _ => "StreamingChatRequest"
  | task _ => "TaskPayload"
  | other payload => payload.typeName

/-- `payload.message`; `none` where there is no such attribute. -/
def message : Payload → Option String
  | create request => some request.message
  | continued request => some request.message
  | regenerate _ => none
  | retry _ => none
  | streaming request => some request.message
  | task payload => some payload.message
  | other payload => payload.message

/-- `getattr(payload, "runtime_version", None)`. -/
def runtimeVersion : Payload → Option String
  | create request => some request.runtimeVersion
  | continued request => some request.runtimeVersion
  | regenerate request => some request.runtimeVersion
  | retry request => some request.runtimeVersion
  | streaming request => some request.runtimeVersion
  | task payload => some payload.runtimeVersion
  | other payload => payload.runtimeVersion

/-- `getattr(payload, "provider", None)`. -/
def provider : Payload → Option String
  | create request => request.provider
  | continued request => request.provider
  | regenerate request => request.provider
  | retry request => request.provider
  | streaming request => request.provider
  | task _ => none
  | other payload => payload.provider

/-- `getattr(payload, "tool_choice", None)`. -/
def toolChoice : Payload → Option String
  | create request => request.toolChoice
  | continued request => request.toolChoice
  | regenerate _ => none
  | retry _ => none
  | streaming request => request.toolChoice
  | task _ => none
  | other payload => payload.toolChoice

/-- `getattr(payload, "max_tokens", None)`. -/
def maxTokens : Payload → Option Nat
  | create request => request.maxTokens
  | continued request => request.maxTokens
  | regenerate request => request.maxTokens
  | retry _ => none
  | streaming request => request.maxTokens
  | task _ => none
  | other payload => payload.maxTokens

/-- `getattr(payload, "temperature", None)`. -/
def temperature : Payload → Option Rat
  | create request => request.temperature
  | continued request => request.temperature
  | regenerate request => request.temperature
  | retry _ => none
  | streaming request => request.temperature
  | task _ => none
  | other payload => payload.temperature

end Payload

/-- The attributes of a user that the runtime reads. -/
structure User where
  id : Int
  isActive : Bool := true
  isSuperuser : Bool := false
  deriving DecidableEq, Repr

end AgentCorp.Runtime
