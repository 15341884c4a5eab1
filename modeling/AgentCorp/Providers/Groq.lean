/-
  The messages of the Groq API, and how `GroqProvider` writes them.

  A message of the API is a dictionary. An assistant's message lists the tool calls that it
  makes under `tool_calls`, and the result of a call names it under `tool_call_id`.

  * `not_carries_buildMessage`: no message that the provider writes lists a tool call.
-/
import AgentCorp.Providers.ProviderManager

namespace AgentCorp.Providers

open AgentCorp.Python AgentCorp.Chat

/-! ## Messages of the API -/

inductive WireValue where
  | text (s : String)
  | toolCalls (calls : List ToolCall)
  deriving DecidableEq, Repr

abbrev WireMessage := Dict WireValue

namespace WireMessage

/-- The text under a key. -/
def text (message : WireMessage) (key : String) : Option String :=
  match message.lookup key with
  | some (.text s) => some s
  | _ => none

/-- The message is an assistant's and makes a tool call with this identifier. -/
def Carries (message : WireMessage) (callId : String) : Prop :=
  message.text "role" = some "assistant" ∧
    ∃ calls, message.lookup "tool_calls" = some (.toolCalls calls) ∧
      ∃ call ∈ calls, call.id = callId

/-- The call whose result a message is. -/
def resultOf (message : WireMessage) : Option String :=
  if message.text "role" = some "tool" then message.text "tool_call_id" else none

end WireMessage

/-! ## GroqProvider._build_messages -/

/-- `MessageRole.value`. -/
def roleValue : MessageRole → String
  | .system => "system"
  | .user => "user"
  | .assistant => "assistant"
  | .tool => "tool"

/-- A field that is written if it is there and not empty. -/
def optionalField (key : String) (value : Option String) : WireMessage :=
  (nonempty value).toList.map fun s => (key, .text s)

def buildMessage (message : ChatMessage) : WireMessage :=
  [("role", .text (roleValue message.role)), ("content", .text message.content)] ++
    optionalField "name" message.name ++ optionalField "tool_call_id" message.toolCallId

/-- `GroqProvider._build_messages`. -/
def buildMessages (messages : List ChatMessage) : List WireMessage :=
  messages.map buildMessage

/-! ## What is written -/

theorem lookup_optionalField {key key' : String} (h : key' ≠ key) (value : Option String)
    (rest : WireMessage) :
    (optionalField key value ++ rest).lookup key' = rest.lookup key' := by
  unfold optionalField
  cases nonempty value with
  | none => rfl
  | some s =>
      have hkey : (key' == key) = false := by simpa using h
      simp [List.lookup_cons, hkey]

theorem not_carries_buildMessage (message : ChatMessage) (callId : String) :
    ¬ (buildMessage message).Carries callId := by
  rintro ⟨-, calls, hcalls, -⟩
  have hnone : (buildMessage message).lookup "tool_calls" = none := by
    unfold buildMessage
    rw [List.append_assoc]
    show (optionalField "name" message.name ++
      optionalField "tool_call_id" message.toolCallId).lookup "tool_calls" = none
    rw [lookup_optionalField (by decide), ← List.append_nil (optionalField _ message.toolCallId),
      lookup_optionalField (by decide)]
    rfl
  rw [hnone] at hcalls
  cases hcalls

theorem resultOf_buildMessage (message : ChatMessage) :
    (buildMessage message).resultOf =
      if message.role = .tool then nonempty message.toolCallId else none := by
  have hrole : (buildMessage message).text "role" = some (roleValue message.role) := rfl
  have hid : (buildMessage message).text "tool_call_id" = nonempty message.toolCallId := by
    have hlookup : (buildMessage message).lookup "tool_call_id" =
        (optionalField "tool_call_id" message.toolCallId).lookup "tool_call_id" := by
      unfold buildMessage
      rw [List.append_assoc]
      show (optionalField "name" message.name ++
        optionalField "tool_call_id" message.toolCallId).lookup "tool_call_id" = _
      exact lookup_optionalField (by decide) _ _
    unfold WireMessage.text
    rw [hlookup]
    unfold optionalField
    cases nonempty message.toolCallId <;> rfl
  unfold WireMessage.resultOf
  rw [hrole, hid]
  cases message.role <;> rfl

end AgentCorp.Providers
