/-
  The tool calls of a model, as `ToolSerializer.parse_openai_call` reads them from a dictionary
  and the tool-call branch of `GroqProvider._parse_response` from the objects of the API.

  The arguments of a call are a text. Both readers take the empty dictionary where the text is
  not JSON, and both build a pydantic object, which refuses any value but a dictionary.

  * `validated_loadsArguments_iff`: what either reader makes of a text.
  * `toolCallParsing_iff`: when no reader raises, and what they return then.
-/
import AgentCorp.Python.JsonDecoder

namespace AgentCorp.Tools

open AgentCorp.Python

/-! ## Readers -/

/-- A `ToolCallRequest` or a `ToolCall`, with whole JSON values as arguments. The execution
    context of a request is not filled in yet. -/
structure ParsedCall where
  callId : String
  name : String
  arguments : Dict Decoded

/-- What a reader raises: an error of `json.loads`, or pydantic's `ValidationError` for a field
    of a class. -/
inductive CallError where
  | loads (e : LoadsError)
  | validation (model field : String)
  deriving DecidableEq, Repr

/-- The constructor of a class: `arguments: dict[str, Any]`. -/
def validated (model callId name : String) : Decoded → Except CallError ParsedCall
  | .dict entries => .ok ⟨callId, name, entries⟩
  | _ => .error (.validation model "arguments")

/-- `try: json.loads(text) except json.JSONDecodeError: {}`. -/
def loadsArguments (limits : LoadsLimits) (text : String) : Except CallError Decoded :=
  match loads limits text with
  | .error .decode => .ok (.dict [])
  | .error e => .error (.loads e)
  | .ok value => .ok value

/-- The `function` of a tool call, as a dictionary. Either key may be missing. -/
structure FunctionDict where
  name : Option String := none
  arguments : Option Decoded := none

structure ToolCallDict where
  id : Option String := none
  function : Option FunctionDict := none

/-- `json.loads(args_str) if isinstance(args_str, str) else args_str`, with its handler. -/
def openaiArguments (limits : LoadsLimits) : Decoded → Except CallError Decoded
  | .str text => loadsArguments limits text
  | value => .ok value

/-- `ToolSerializer.parse_openai_call`. -/
def parseOpenaiCall (limits : LoadsLimits) (toolCall : ToolCallDict) :
    Except CallError ParsedCall := do
  let callId := toolCall.id.getD ""
  let function := toolCall.function.getD {}
  let name := function.name.getD ""
  let arguments ← openaiArguments limits (function.arguments.getD (.str "{}"))
  validated "ToolCallRequest" callId name arguments

/-- A tool call of the API. The text of the arguments may be absent. -/
structure ModelCall where
  id : String
  name : String
  arguments : Option String := none

/-- The same call as a dictionary, without the key if the text is absent. -/
def ModelCall.toDict (call : ModelCall) : ToolCallDict where
  id := some call.id
  function := some { name := some call.name, arguments := call.arguments.map .str }

/-- `json.loads(arguments) if arguments else {}`, with its handler. -/
def groqArguments (limits : LoadsLimits) : Option String → Except CallError Decoded
  | none => .ok (.dict [])
  | some text => if text = "" then .ok (.dict []) else loadsArguments limits text

/-- One round of the loop of `GroqProvider._parse_response`. -/
def parseToolCall (limits : LoadsLimits) (call : ModelCall) : Except CallError ParsedCall := do
  let arguments ← groqArguments limits call.arguments
  validated "ToolCall" call.id call.name arguments

/-- The tool calls of a response. -/
def parseToolCalls (limits : LoadsLimits) (calls : List ModelCall) :
    Except CallError (List ParsedCall) :=
  calls.mapM (parseToolCall limits)

/-! ## What they should read -/

/-- The decoded value where it is an object, and the empty dictionary otherwise. -/
def expectedArguments (limits : LoadsLimits) (arguments : Option String) : Dict Decoded :=
  match arguments.map (loads limits) with
  | some (.ok (.dict entries)) => entries
  | _ => []

def expectedCall (limits : LoadsLimits) (call : ModelCall) : ParsedCall :=
  ⟨call.id, call.name, expectedArguments limits call.arguments⟩

/-- The text is not JSON, or it is JSON that starts with a brace. -/
def ObjectText (limits : LoadsLimits) (text : String) : Prop :=
  loads limits text = .error .decode ∨
    (∃ value, loads limits text = .ok value) ∧
      (JsonDecoder.skipBlanks text.toList).head? = some '{'

/-- `ObjectText`, unless there is no text. -/
def ObjectArguments (limits : LoadsLimits) (arguments : Option String) : Prop :=
  ∀ text, arguments = some text → ObjectText limits text

/-! ## What they read -/

section
variable (limits : LoadsLimits)

theorem loadsArguments_braces : loadsArguments limits "{}" = .ok (.dict []) := by
  rw [loadsArguments, loads_braces]

theorem groqArguments_some (text : String) :
    groqArguments limits (some text) = loadsArguments limits text := by
  rw [groqArguments]
  split_ifs with htext
  · rw [htext, loadsArguments, loads_empty]
  · rfl

/-- A text, decoded and validated. Both readers read a text so. -/
theorem validated_loadsArguments_iff (model callId name text : String) :
    (loadsArguments limits text >>= validated model callId name) =
        .ok ⟨callId, name, expectedArguments limits (some text)⟩ ↔ ObjectText limits text := by
  unfold loadsArguments expectedArguments ObjectText
  rw [Option.map_some]
  cases hloads : loads limits text with
  | error e =>
      cases e with
      | decode => exact iff_of_true rfl (.inl rfl)
      | value =>
          refine iff_of_false (fun hraised => ?_) (by simp)
          cases hraised
      | recursion =>
          refine iff_of_false (fun hraised => ?_) (by simp)
          cases hraised
  | ok value =>
      rw [← loads_isDict hloads]
      cases value with
      | dict entries => exact iff_of_true rfl (.inr ⟨⟨_, rfl⟩, rfl⟩)
      | null | bool | int | float | str | list =>
          refine iff_of_false (fun hraised => ?_) (by simp [Decoded.isDict])
          cases hraised

theorem objectArguments_some {text : String} :
    ObjectArguments limits (some text) ↔ ObjectText limits text :=
  ⟨fun h => h text rfl, fun h _ htext => Option.some.inj htext ▸ h⟩

theorem parseOpenaiCall_iff (call : ModelCall) :
    parseOpenaiCall limits call.toDict = .ok (expectedCall limits call) ↔
      ObjectArguments limits call.arguments := by
  obtain ⟨id, name, arguments⟩ := call
  cases arguments with
  | none =>
      show (loadsArguments limits "{}" >>= validated "ToolCallRequest" id name) = _ ↔ _
      rw [loadsArguments_braces]
      exact iff_of_true rfl nofun
  | some text =>
      rw [objectArguments_some]
      exact validated_loadsArguments_iff limits "ToolCallRequest" id name text

theorem parseToolCall_iff (call : ModelCall) :
    parseToolCall limits call = .ok (expectedCall limits call) ↔
      ObjectArguments limits call.arguments := by
  obtain ⟨id, name, arguments⟩ := call
  cases arguments with
  | none => exact iff_of_true rfl nofun
  | some text =>
      show (groqArguments limits (some text) >>= validated "ToolCall" id name) = _ ↔ _
      rw [groqArguments_some, objectArguments_some]
      exact validated_loadsArguments_iff limits "ToolCall" id name text

/-- Both readers return what they should exactly when no text is JSON of another kind than an
    object, or beyond the limits of the interpreter. -/
theorem toolCallParsing_iff (calls : List ModelCall) :
    (parseToolCalls limits calls = .ok (calls.map (expectedCall limits)) ∧
        ∀ call ∈ calls, parseOpenaiCall limits call.toDict = .ok (expectedCall limits call)) ↔
      ∀ call ∈ calls, ObjectArguments limits call.arguments := by
  have hgroq : parseToolCalls limits calls = .ok (calls.map (expectedCall limits)) ↔
      ∀ call ∈ calls, ObjectArguments limits call.arguments := by
    unfold parseToolCalls
    rw [Proc.mapM_eq_map_iff]
    exact forall₂_congr fun call _ => parseToolCall_iff limits call
  have hopenai : (∀ call ∈ calls,
      parseOpenaiCall limits call.toDict = .ok (expectedCall limits call)) ↔
        ∀ call ∈ calls, ObjectArguments limits call.arguments :=
    forall₂_congr fun call _ => parseOpenaiCall_iff limits call
  rw [hgroq, hopenai, and_self]

end

/-- The arguments `[]`: both readers raise a `ValidationError`. -/
theorem toolCallParsing_list :
    ¬ ∀ (limits : LoadsLimits) (call : ModelCall),
      (∃ parsed, parseToolCalls limits [call] = .ok parsed) ∧
        ∃ parsed, parseOpenaiCall limits call.toDict = .ok parsed := by
  intro h
  obtain ⟨⟨parsed, hparse⟩, -⟩ :=
    h ⟨1000, 4300, by decide⟩ { id := "call_1", name := "lookup", arguments := some "[]" }
  have hraise : parseToolCalls ⟨1000, 4300, by decide⟩
      [{ id := "call_1", name := "lookup", arguments := some "[]" }] =
        .error (.validation "ToolCall" "arguments") := rfl
  rw [hraise] at hparse
  cases hparse

end AgentCorp.Tools
