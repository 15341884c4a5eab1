/-
  One node of a workflow: what it asks of the services, and how often it is tried.

  What the services answer is a parameter (`NodeServices`), one for each attempt. A node has
  failed when its last attempt raises. A service that reports a failure returns an output whose
  `success` is false, and the node has not failed.

  * `attemptFrom_ok`: the attempts that are made before one returns.
  * `executeNode_ok`: a node that returns has the output of its last attempt.
-/
import AgentCorp.Executions.Control
import AgentCorp.Tools.ToolExecution
import AgentCorp.Workflow.Graph

namespace AgentCorp.Workflows

open AgentCorp.Python AgentCorp.Tools AgentCorp.Executions

/-! ## Executions -/

structure WorkflowExecution where
  id : Int
  status : ExecutionStatus
  currentNodeId : Option Int := none
  conversationId : Option Int := none
  executionContext : Dict Json
  deriving Repr

/-! ## Services -/

/-- A memory, as a node lists it. -/
structure MemoryHit where
  id : Int
  title : Option String
  content : String
  deriving DecidableEq, Repr

/-- What one attempt meets. `requestError` is what `ToolCallRequest` raises on a name or on
    arguments of another type, `toolLatency` the measured time of the call. -/
structure NodeServices where
  retrieveMemories : (query topK : Json) → Except BaseExn (List MemoryHit)
  retrieveContext : (kbId query topK maxTokens : Json) → Except BaseExn String
  requestError : Exn
  tool : ToolEnv
  toolLatency : Rat

/-- A text column that may be null. -/
def optionalText (text : Option String) : Json :=
  (text.map Json.str).getD .null

def MemoryHit.toJson (memory : MemoryHit) : Json :=
  .dict [("id", .int memory.id), ("title", optionalText memory.title),
    ("content", .str memory.content)]

/-- `result.model_dump()`. -/
def dumpResult (latency : Rat) (result : ToolCallResult) : Json :=
  .dict [("call_id", .str result.callId), ("tool_name", .str result.toolName),
    ("success", .bool result.success), ("content", .str result.content),
    ("error_code", optionalText result.errorCode), ("latency_seconds", .float latency),
    ("retries_used", .int result.retriesUsed)]

/-- A value, as a tool's argument. -/
def toPyValue (T : TextTables) : Json → PyValue
  | .null => .none
  | .bool b => .bool b
  | .int i => .int i
  | .str s => .str s
  | value => .other (String.ofList (value.text T)) value.truthy

/-! ## WorkflowService._execute_node -/

section Execute

variable (L : Lower) (T : TextTables) (organizationId agentId : Int) (node : WorkflowNode)
  (execution : WorkflowExecution)

/-- The request of a tool node. -/
def toolRequest (services : NodeServices) (config : Dict Json) (toolName : Json) :
    Except Exn ToolCallRequest :=
  let callId := (getJson config "call_id").orElse
    (.str ("workflow-" ++ toString execution.id ++ "-" ++ toString node.id))
  match toolName, getJsonD config "arguments" (.dict []) with
  | .str name, .dict arguments => .ok {
      callId := String.ofList (callId.text T)
      toolName := name
      arguments := arguments.map fun entry => (entry.1, toPyValue T entry.2) }
  | _, _ => .error services.requestError

/-- One attempt: the body of the loop. -/
def attemptNode (services : NodeServices) : Except BaseExn (Dict Json) :=
  let config := node.configuration.getD []
  let nodeType := L.lower node.nodeType
  let query := (getJson config "query").orElse
    (getJsonD execution.executionContext "objective" (.str ""))
  let topK := getJsonD config "top_k" (.int 5)
  if nodeType ∈ ["start", "end"] then
    return [("success", .bool true), ("node_type", .str nodeType)]
  else if nodeType ∈ ["memory", "memory_search"] then do
    let memories ← services.retrieveMemories query topK
    return [("success", .bool true), ("memories", .list (memories.map MemoryHit.toJson))]
  else if nodeType ∈ ["rag", "knowledge", "knowledge_search"] then
    match (getJson config "kb_id").orElse (getJson config "knowledge_base_id") with
    | .null =>
        return [("success", .bool false), ("placeholder", .bool true),
          ("reason", .str "RAG node requires kb_id in configuration.")]
    | kbId => do
        let context ← services.retrieveContext kbId query topK
          (getJsonD config "max_tokens" (.int 2000))
        return [("success", .bool true), ("context", .str context)]
  else if nodeType ∈ ["tool", "tool_call", "execute_tool"] then
    let toolName := (getJson config "tool_name").orElse (getJson config "name")
    if !toolName.truthy then
      return [("success", .bool false), ("placeholder", .bool true),
        ("reason", .str "Tool node requires tool_name in configuration.")]
    else do
      let request ← (toolRequest T node execution services config toolName).mapError .exception
      let result ← executeBatch (fun _ => services.tool) [request] organizationId agentId
        (execution.conversationId.getD 0)
      return [("success", .bool result.allSucceeded),
        ("tool_results", .list (result.results.map (dumpResult services.toolLatency)))]
  else
    return [("success", .bool true), ("placeholder", .bool true),
      ("reason", .str ("No executable runtime is registered for node type '" ++ node.nodeType ++
        "'."))]

end Execute

/-- The loop over the attempts, with those that are left and those that were used: the output
    and the number of the attempt that returned. Only an `Exception` is tried again. -/
def attemptFrom {α : Type} (attempt : Nat → Except BaseExn α) :
    Nat → Nat → Except BaseExn (α × Nat)
  | remaining, used =>
      match attempt used with
      | .ok output => .ok (output, used)
      | .error (.exception exc) =>
          match remaining with
          | 0 => .error (.exception exc)
          | remaining + 1 => attemptFrom attempt remaining (used + 1)
      | .error raised => .error raised

/-- `int((node.retry_policy or {}).get("max_retries", 0))`. -/
def maxRetries (T : TextTables) (node : WorkflowNode) : Except Exn Int :=
  (getJsonD (node.retryPolicy.getD []) "max_retries" (.int 0)).toInt T.toUnicode

/-- `WorkflowService._execute_node`, with the services that each attempt meets. Below zero
    retries, nothing is attempted. -/
def executeNode (L : Lower) (T : TextTables) (services : Nat → NodeServices)
    (organizationId agentId : Int) (node : WorkflowNode) (execution : WorkflowExecution) :
    Except BaseExn (Dict Json × Nat) := do
  let retries ← (maxRetries T node).mapError .exception
  if retries < 0 then
    throw (.exception (.other "RuntimeError" "Workflow node execution failed."))
  else
    attemptFrom (fun used =>
      attemptNode L T organizationId agentId node execution (services used)) retries.toNat 0

/-- An attempt that returns comes after attempts that raised, within the retries. -/
theorem attemptFrom_ok {α : Type} {attempt : Nat → Except BaseExn α} {remaining used : Nat}
    {output : α} {retries : Nat}
    (h : attemptFrom attempt remaining used = .ok (output, retries)) :
    attempt retries = .ok output ∧ used ≤ retries ∧ retries ≤ used + remaining ∧
      ∀ i, used ≤ i → i < retries → ∃ exc, attempt i = .error (.exception exc) := by
  induction remaining generalizing used with
  | zero =>
      unfold attemptFrom at h
      split at h
      · next hok =>
          obtain ⟨rfl, rfl⟩ := Prod.mk.inj (Except.ok.inj h)
          exact ⟨hok, le_refl _, by omega, fun i hi hlt => by omega⟩
      · cases h
      · cases h
  | succ remaining ih =>
      unfold attemptFrom at h
      split at h
      · next hok =>
          obtain ⟨rfl, rfl⟩ := Prod.mk.inj (Except.ok.inj h)
          exact ⟨hok, le_refl _, by omega, fun i hi hlt => by omega⟩
      · next exc herror =>
          obtain ⟨hok, hle, hbound, hearlier⟩ := ih h
          refine ⟨hok, by omega, by omega, ?_⟩
          intro i hi hlt
          by_cases heq : i = used
          · exact ⟨exc, heq ▸ herror⟩
          · exact hearlier i (by omega) hlt
      · cases h

section Execute

variable {L : Lower} {T : TextTables} {services : Nat → NodeServices}
  {organizationId agentId : Int} {node : WorkflowNode} {execution : WorkflowExecution}

/-- A node that returns has the output of one of its attempts. -/
theorem executeNode_ok {output : Dict Json} {retries : Nat}
    (h : executeNode L T services organizationId agentId node execution = .ok (output, retries)) :
    attemptNode L T organizationId agentId node execution (services retries) = .ok output := by
  unfold executeNode at h
  obtain ⟨limit, -, h⟩ := Proc.bind_ok h
  split at h
  · cases h
  · exact (attemptFrom_ok h).1

end Execute

/-! ## A quiet environment -/

/-- Services that have nothing. -/
def quietServices : NodeServices where
  retrieveMemories := fun _ _ => .ok []
  retrieveContext := fun _ _ _ _ => .ok ""
  requestError := .other "ValidationError" "1 validation error for ToolCallRequest"
  tool := {
    validate := fun _ => .ok { valid := false }
    maxRetries := fun _ => .ok 0
    attempt := fun _ _ => .ok "" }
  toolLatency := 0

/-- ASCII, and every float is written as zero. -/
def asciiTables : TextTables where
  repr := fun _ => "0.0"
  numeral := fun _ => rfl
  toUnicode := .asciiOnly

end AgentCorp.Workflows
