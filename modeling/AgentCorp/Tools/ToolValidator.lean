/-
  `ToolValidator`: which requests may be executed.

  The repositories are procedures that may raise. Of the arguments the validator checks that the
  required ones are there and, for four types, the Python class of the others. `Conforms` is what
  the schema itself says.

  * `argumentErrors_eq_nil`: which arguments it accepts.
  * `conforms_iff`: which of these conform to the schema.
  * `validateRequest_exact_iff`: when it accepts exactly what conforms.
-/
import AgentCorp.Python.Effects
import AgentCorp.Tools.ToolExecution
import AgentCorp.Tools.ToolRegistry

namespace AgentCorp.Tools

open AgentCorp.Python

variable {F σ : Type}

/-! ## Requests and stores -/

/-- A `ToolCallRequest`, with all of its arguments. -/
structure ToolRequest where
  callId : String
  toolName : String
  arguments : Dict Json := []
  agentId : Option Int := none
  organizationId : Option Int := none
  conversationId : Option Int := none
  recursionDepth : Int := 0
  deriving Repr

/-- A `ToolValidationResult`, with all of its fields. -/
structure ToolVerdict extends ToolValidationResult where
  toolName : String
  fieldErrors : Dict String := []
  deriving DecidableEq, Repr

/-- The registry and everything else. -/
structure ToolState (F σ : Type) where
  registry : ToolRegistry F
  state : σ

/-- The repositories of the validator. -/
structure ToolRepositories (F σ : Type) where
  getByName : String → Py (ToolState F σ) (Option ToolRow)
  getAssignment : Int → Int → Py (ToolState F σ) (Option AgentTool)

/-! ## Checks of the arguments -/

/-- `isinstance(val, cls)` fails for the class of the type, if it is one of four. -/
def typeMismatch (type : String) (value : Json) : Bool :=
  (type = "string" && !(value matches .str _)) ||
    (type = "integer" && !(value matches .int _ | .bool _)) ||
    (type = "number" && !(value matches .int _ | .bool _ | .float _)) ||
    (type = "boolean" && !(value matches .bool _))

def missingErrors (required : List String) (arguments : Dict Json) : Dict String :=
  required.foldl (fun errors name =>
    if (arguments.lookup name).isSome then errors
    else errors.set name "Missing required parameter") []

/-- `field_errors`, once all checks are made. -/
def argumentErrors (schema : ToolSchema) (arguments : Dict Json) : Dict String :=
  schema.properties.foldl (fun errors (name, param) =>
    match arguments.lookup name with
    | some value =>
        if typeMismatch param.type value then
          errors.set name ("Expected type " ++ param.type ++ ", got " ++ value.typeName)
        else errors
    | none => errors) (missingErrors schema.required arguments)

/-! ## ToolValidator.validate_request -/

/-- What the guarded part of `validate_request` raises. -/
inductive CheckRaise where
  | engine (error : ToolEngineError)
  | raised (raised : BaseExn)

/-- The checks before those of the arguments: the registry, the database and the assignment.
    They return the schema of the tool. -/
def resolveTool (repositories : ToolRepositories F σ) (request : ToolRequest) :
    Proc (ToolState F σ) CheckRaise ToolSchema := do
  let toolName := request.toolName
  let registry := (← get).registry
  if registry.isRegistered toolName then
    let entry ← Proc.ofExcept ((registry.getCallable toolName).mapError .engine)
    if entry.metadata.enabled then
      match ← (repositories.getByName toolName).adaptExcept .raised with
      | none => throw (.engine
          { cls := "ToolNotFoundError"
            message := "Tool '" ++ toolName ++ "' not registered in database." })
      | some row =>
          modify fun w => { w with registry := w.registry.syncDbId toolName row.id }
          match request.agentId with
          | none => return entry.metadata.parameters
          | some agentId =>
              match ← (repositories.getAssignment agentId row.id).adaptExcept .raised with
              | none => throw (.engine
                  { cls := "ToolPermissionDeniedError"
                    message := "Tool '" ++ toolName ++ "' is not assigned to agent " ++
                      toString agentId ++ "." })
              | some _ => return entry.metadata.parameters
    else throw (.engine
      { cls := "ToolDisabledError", message := "Tool '" ++ toolName ++ "' is disabled." })
  else throw (.engine
    { cls := "ToolNotFoundError", message := "Tool '" ++ toolName ++ "' not found in registry." })

def checkRequest (repositories : ToolRepositories F σ) (request : ToolRequest) :
    Proc (ToolState F σ) CheckRaise Unit := do
  let schema ← resolveTool repositories request
  let fieldErrors := argumentErrors schema request.arguments
  if fieldErrors ≠ [] then
    throw (.engine
      { cls := "ToolValidationError"
        message := "Parameter validation failed for tool '" ++ request.toolName ++ "'."
        fieldErrors := fieldErrors })

def validateRequest (repositories : ToolRepositories F σ) (request : ToolRequest) :
    Py (ToolState F σ) ToolVerdict := fun w =>
  match (checkRequest repositories request).run w with
  | .ok _ w' => .ok { valid := true, toolName := request.toolName } w'
  | .error (.engine error) w' =>
      .ok { valid := false, toolName := request.toolName, errorCode := some error.cls
            errorMessage := some error.message, fieldErrors := error.fieldErrors } w'
  | .error (.raised raised) w' => .error raised w'

/-! ## What a schema says -/

/-- The value has the JSON type of that name. A boolean is no number. -/
structure HasType (type : String) (value : Json) : Prop where
  string : type = "string" → ∃ s, value = .str s
  integer : type = "integer" → ∃ i, value = .int i
  number : type = "number" → (∃ i, value = .int i) ∨ ∃ x, value = .float x
  boolean : type = "boolean" → ∃ b, value = .bool b
  array : type = "array" → ∃ items, value = .list items
  object : type = "object" → ∃ entries, value = .dict entries

/-- The number that a JSON number is. -/
def jsonNumber : Json → Option Rat
  | .int i => some i
  | .float x => some x
  | _ => none

namespace ToolParameter

variable (param : ToolParameter) (value : Json)

/-- The constraints of a parameter other than its type. -/
structure InRange : Prop where
  enum : ∀ allowed, param.enum = some allowed → ∃ s ∈ allowed, value = .str s
  minimum : ∀ bound, param.minimum = some bound → ∀ x, jsonNumber value = some x → bound ≤ x
  maximum : ∀ bound, param.maximum = some bound → ∀ x, jsonNumber value = some x → x ≤ bound
  minLength : ∀ bound, param.minLength = some bound → ∀ s, value = .str s → bound ≤ s.length
  maxLength : ∀ bound, param.maxLength = some bound → ∀ s, value = .str s → s.length ≤ bound

/-- The value conforms to the parameter. -/
structure Conforms : Prop where
  type : HasType param.type value
  range : param.InRange value

/-- What the validator does not look at: booleans among the numbers, arrays, objects, and every
    constraint other than the type. -/
structure KeepsUnchecked : Prop where
  notBool : param.type = "integer" ∨ param.type = "number" → ∀ b, value ≠ .bool b
  array : param.type = "array" → ∃ items, value = .list items
  object : param.type = "object" → ∃ entries, value = .dict entries
  range : param.InRange value

end ToolParameter

namespace ToolSchema

variable (schema : ToolSchema) (arguments : Dict Json)

/-- Every argument that a parameter stands for satisfies `P`. -/
def Each (P : ToolParameter → Json → Prop) : Prop :=
  ∀ entry ∈ schema.properties, ∀ value, arguments.lookup entry.1 = some value → P entry.2 value

def HasRequired : Prop :=
  ∀ name ∈ schema.required, (arguments.lookup name).isSome

/-- Without additional properties, every argument is one of the properties. -/
def NoneAdditional : Prop :=
  schema.additionalProperties = false →
    ∀ entry ∈ arguments, entry.1 ∈ schema.properties.map Prod.fst

/-- The arguments conform to the schema. -/
structure Conforms : Prop where
  required : schema.HasRequired arguments
  additional : schema.NoneAdditional arguments
  each : schema.Each arguments ToolParameter.Conforms

/-- The validator finds no error. -/
structure Accepted : Prop where
  required : schema.HasRequired arguments
  types : schema.Each arguments fun param value => typeMismatch param.type value = false

/-- No constraint is violated that the validator does not look at. -/
structure KeepsUnchecked : Prop where
  additional : schema.NoneAdditional arguments
  each : schema.Each arguments ToolParameter.KeepsUnchecked

end ToolSchema

/-! ## What the validator accepts -/

/-- A fold that adds an error for some elements adds none exactly if there is none of these. -/
theorem foldl_errors_eq_nil {α : Type} (step : Dict String → α → Dict String) (bad : α → Prop)
    (hbad : ∀ errors a, bad a → step errors a ≠ [])
    (hgood : ∀ errors a, ¬ bad a → step errors a = errors) (l : List α) (errors : Dict String) :
    l.foldl step errors = [] ↔ errors = [] ∧ ∀ a ∈ l, ¬ bad a := by
  induction l generalizing errors with
  | nil => simp
  | cons a l ih =>
      rw [List.foldl_cons, ih, List.forall_mem_cons]
      by_cases ha : bad a
      · simp [hbad errors a ha, ha]
      · rw [hgood errors a ha]
        simp [ha]

theorem missingErrors_eq_nil {required : List String} {arguments : Dict Json} :
    missingErrors required arguments = [] ↔
      ∀ name ∈ required, (arguments.lookup name).isSome := by
  unfold missingErrors
  rw [foldl_errors_eq_nil _ fun name => ¬ (arguments.lookup name).isSome]
  · simp
  · intro errors name hbad
    rw [if_neg hbad]
    exact set_ne_nil _ _ _
  · intro errors name hgood
    rw [if_pos (not_not.mp hgood)]

theorem argumentErrors_eq_nil {schema : ToolSchema} {arguments : Dict Json} :
    argumentErrors schema arguments = [] ↔ schema.Accepted arguments := by
  have hfold := foldl_errors_eq_nil
    (fun errors (entry : String × ToolParameter) =>
      match arguments.lookup entry.1 with
      | some value =>
          if typeMismatch entry.2.type value then
            errors.set entry.1 ("Expected type " ++ entry.2.type ++ ", got " ++ value.typeName)
          else errors
      | none => errors)
    (fun entry => ∃ value, arguments.lookup entry.1 = some value ∧
      typeMismatch entry.2.type value = true)
    (fun errors entry => by
      rintro ⟨value, hvalue, hmismatch⟩
      simp only [hvalue, hmismatch, if_true]
      exact set_ne_nil _ _ _)
    (fun errors entry hgood => by
      cases hvalue : arguments.lookup entry.1 with
      | none => rfl
      | some value =>
          have hmatch : ¬ typeMismatch entry.2.type value = true :=
            fun h => hgood ⟨value, hvalue, h⟩
          simp only [if_neg hmatch])
    schema.properties (missingErrors schema.required arguments)
  unfold argumentErrors
  rw [hfold, missingErrors_eq_nil]
  constructor
  · intro ⟨hrequired, htypes⟩
    refine ⟨hrequired, fun entry hentry value hvalue => ?_⟩
    exact Bool.eq_false_iff.mpr fun h => htypes entry hentry ⟨value, hvalue, h⟩
  · intro h
    refine ⟨h.required, fun entry hentry => ?_⟩
    rintro ⟨value, hvalue, hmismatch⟩
    rw [h.types entry hentry value hvalue] at hmismatch
    cases hmismatch

theorem typeMismatch_eq_false {type : String} {value : Json} :
    typeMismatch type value = false ↔
      (type = "string" → ∃ s, value = .str s) ∧
      (type = "integer" → (∃ i, value = .int i) ∨ ∃ b, value = .bool b) ∧
      (type = "number" → (∃ i, value = .int i) ∨ (∃ b, value = .bool b) ∨ ∃ x, value = .float x) ∧
      (type = "boolean" → ∃ b, value = .bool b) := by
  unfold typeMismatch
  cases value <;> simp [and_assoc]

/-- What the class checks leave open of a type. -/
theorem hasType_iff {type : String} {value : Json} :
    HasType type value ↔ typeMismatch type value = false ∧
      (type = "integer" ∨ type = "number" → ∀ b, value ≠ .bool b) ∧
      (type = "array" → ∃ items, value = .list items) ∧
      (type = "object" → ∃ entries, value = .dict entries) := by
  rw [typeMismatch_eq_false]
  constructor
  · intro h
    refine ⟨⟨h.string, fun ht => .inl (h.integer ht), fun ht => ?_, h.boolean⟩, ?_, h.array,
      h.object⟩
    · exact (h.number ht).imp_right .inr
    · intro ht b heq
      rcases ht with hinteger | hnumber
      · obtain ⟨i, hi⟩ := h.integer hinteger
        cases heq.symm.trans hi
      · rcases h.number hnumber with ⟨i, hi⟩ | ⟨x, hx⟩
        · cases heq.symm.trans hi
        · cases heq.symm.trans hx
  · intro ⟨⟨hstring, hinteger, hnumber, hboolean⟩, hbool, harray, hobject⟩
    refine ⟨hstring, fun ht => ?_, fun ht => ?_, hboolean, harray, hobject⟩
    · rcases hinteger ht with hi | ⟨b, hb⟩
      · exact hi
      · exact absurd hb (hbool (.inl ht) b)
    · rcases hnumber ht with hi | ⟨b, hb⟩ | hx
      · exact .inl hi
      · exact absurd hb (hbool (.inr ht) b)
      · exact .inr hx

theorem ToolParameter.conforms_iff {param : ToolParameter} {value : Json} :
    param.Conforms value ↔
      typeMismatch param.type value = false ∧ param.KeepsUnchecked value := by
  constructor
  · intro h
    obtain ⟨hmatch, hbool, harray, hobject⟩ := hasType_iff.mp h.type
    exact ⟨hmatch, hbool, harray, hobject, h.range⟩
  · intro ⟨hmatch, h⟩
    exact ⟨hasType_iff.mpr ⟨hmatch, h.notBool, h.array, h.object⟩, h.range⟩

/-- Accepted arguments conform if they keep what the validator does not look at. -/
theorem conforms_iff {schema : ToolSchema} {arguments : Dict Json} :
    schema.Conforms arguments ↔
      schema.Accepted arguments ∧ schema.KeepsUnchecked arguments := by
  constructor
  · intro h
    refine ⟨⟨h.required, fun entry hentry value hvalue => ?_⟩, h.additional,
      fun entry hentry value hvalue => ?_⟩
    · exact (ToolParameter.conforms_iff.mp (h.each entry hentry value hvalue)).1
    · exact (ToolParameter.conforms_iff.mp (h.each entry hentry value hvalue)).2
  · intro ⟨haccepted, hkeeps⟩
    refine ⟨haccepted.required, hkeeps.additional, fun entry hentry value hvalue => ?_⟩
    exact ToolParameter.conforms_iff.mpr
      ⟨haccepted.types entry hentry value hvalue, hkeeps.each entry hentry value hvalue⟩

/-- The verdict on a request that passes the checks before those of its arguments. -/
theorem validateRequest_of_resolved {repositories : ToolRepositories F σ} {request : ToolRequest}
    {w w' : ToolState F σ} {schema : ToolSchema}
    (h : (resolveTool repositories request).run w = .ok schema w') :
    ∃ verdict, (validateRequest repositories request).run w = .ok verdict w' ∧
      (verdict.valid = true ↔ schema.Accepted request.arguments) := by
  have hcheck : (checkRequest repositories request).run w =
      if argumentErrors schema request.arguments ≠ [] then
        .error (.engine
          { cls := "ToolValidationError"
            message := "Parameter validation failed for tool '" ++ request.toolName ++ "'."
            fieldErrors := argumentErrors schema request.arguments }) w'
      else .ok () w' := by
    unfold checkRequest
    rw [Proc.run_bind_of_ok h]
    dsimp only
    split <;> rfl
  show ∃ verdict, validateRequest repositories request w = .ok verdict w' ∧ _
  unfold validateRequest
  rw [hcheck]
  by_cases haccepted : schema.Accepted request.arguments
  · rw [if_neg (not_not.mpr (argumentErrors_eq_nil.mpr haccepted))]
    exact ⟨_, rfl, by simp [haccepted]⟩
  · rw [if_pos fun hnil => haccepted (argumentErrors_eq_nil.mp hnil)]
    exact ⟨_, rfl, by simp [haccepted]⟩

/-- A request that fails one of these checks is refused. -/
theorem validateRequest_of_refused {repositories : ToolRepositories F σ} {request : ToolRequest}
    {w w' : ToolState F σ} {error : ToolEngineError}
    (h : (resolveTool repositories request).run w = .error (.engine error) w') :
    ∃ verdict, (validateRequest repositories request).run w = .ok verdict w' ∧
      verdict.valid = false := by
  have hcheck : (checkRequest repositories request).run w = .error (.engine error) w' :=
    Proc.run_bind_of_error h
  show ∃ verdict, validateRequest repositories request w = .ok verdict w' ∧ _
  unfold validateRequest
  rw [hcheck]
  exact ⟨_, rfl, rfl⟩

section Example

/-- The built-in tool `echo`. -/
def echoMetadata : ToolMetadata where
  id := 0
  name := "echo"
  description := "Echoes the input message back unchanged."
  parameters :=
    { properties := [("message", { type := "string", maxLength := some 1000 })]
      required := ["message"] }
  category := some "utility"
  tags := ["debug", "test", "utility"]

/-- Repositories where every tool is in the database and assigned to every agent. -/
def openRepositories : ToolRepositories Unit Unit where
  getByName name := pure (some ⟨7, name⟩)
  getAssignment agentId toolId := pure (some ⟨agentId, toolId⟩)

def echoState : ToolState Unit Unit where
  registry := ToolRegistry.register [] echoMetadata () true
  state := ()

/-- A request of `echo` with an argument that it does not have. -/
def shoutRequest : ToolRequest where
  callId := "call_1"
  toolName := "echo"
  arguments := [("message", .str "hi"), ("shout", .bool true)]
  agentId := some 1

def helloRequest : ToolRequest :=
  { shoutRequest with arguments := [("message", .str "hi")] }

end Example

/-- It is accepted. -/
theorem shoutRequest_accepted :
    (∃ w', (resolveTool openRepositories shoutRequest).run echoState =
      .ok echoMetadata.parameters w') ∧
    (∃ verdict w', (validateRequest openRepositories shoutRequest).run echoState =
      .ok verdict w' ∧ verdict.valid = true) ∧
    ¬ echoMetadata.parameters.Conforms shoutRequest.arguments := by
  refine ⟨⟨_, rfl⟩, ⟨_, _, rfl, rfl⟩, fun h => ?_⟩
  have hproperty := h.additional rfl ("shout", .bool true) (by simp [shoutRequest])
  exact absurd hproperty (by decide)

/-- **Validation.** For a request that passes the other checks, the verdict is conformance to the
    schema exactly if the validator finds an error itself, or there is none in what it does not
    look at. -/
theorem validateRequest_exact_iff {repositories : ToolRepositories F σ} {request : ToolRequest}
    {w w' : ToolState F σ} {schema : ToolSchema}
    (h : (resolveTool repositories request).run w = .ok schema w') :
    ∃ verdict, (validateRequest repositories request).run w = .ok verdict w' ∧
      ((verdict.valid = true ↔ schema.Conforms request.arguments) ↔
        ¬ schema.Accepted request.arguments ∨ schema.KeepsUnchecked request.arguments) := by
  obtain ⟨verdict, hrun, hvalid⟩ := validateRequest_of_resolved h
  refine ⟨verdict, hrun, ?_⟩
  rw [hvalid, conforms_iff]
  constructor
  · intro hexact
    by_cases haccepted : schema.Accepted request.arguments
    · exact .inr (hexact.mp haccepted).2
    · exact .inl haccepted
  · intro hkeeps
    constructor
    · intro haccepted
      exact ⟨haccepted, hkeeps.resolve_left (not_not.mpr haccepted)⟩
    · exact And.left

theorem helloRequest_exact :
    ∃ verdict w', (validateRequest openRepositories helloRequest).run echoState = .ok verdict w' ∧
      ((verdict.valid = true ↔ echoMetadata.parameters.Conforms helloRequest.arguments) ↔
        ¬ echoMetadata.parameters.Accepted helloRequest.arguments ∨
          echoMetadata.parameters.KeepsUnchecked helloRequest.arguments) := by
  have h : (resolveTool openRepositories helloRequest).run echoState =
      .ok echoMetadata.parameters { echoState with
        registry := echoState.registry.syncDbId "echo" 7 } := rfl
  obtain ⟨verdict, hrun, hexact⟩ := validateRequest_exact_iff h
  exact ⟨verdict, _, hrun, hexact⟩

end AgentCorp.Tools
