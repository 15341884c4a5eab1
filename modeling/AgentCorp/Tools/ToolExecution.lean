/-
  The tool calling engine: from a list of requested calls to a list of results.

  What the registry, the tables and the tools themselves answer is a parameter (`ToolEnv`), one
  for each call of a batch. The dispatcher turns every `Exception` into a failed result; only
  what is not an `Exception` ends a batch.

  * `dispatch_echo`: a result names its request.
  * `executeBatch_ok`: one result for each request, in order.
  * `executeBatch_error_iff`: when a batch has no results.
-/
import AgentCorp.Chat.Prompt

namespace AgentCorp.Tools

open AgentCorp.Python

/-! ## Requests and results -/

structure ToolCallRequest where
  callId : String
  toolName : String
  arguments : PyDict
  agentId : Option Int := none
  organizationId : Option Int := none
  conversationId : Option Int := none
  recursionDepth : Int := 0
  deriving DecidableEq, Repr

structure ToolCallResult where
  callId : String
  toolName : String
  success : Bool
  content : String
  errorCode : Option String := none
  retriesUsed : Nat := 0
  deriving DecidableEq, Repr

structure ToolExecutionResult where
  results : List ToolCallResult
  allSucceeded : Bool
  deriving DecidableEq, Repr

structure ToolValidationResult where
  valid : Bool
  errorCode : Option String := none
  errorMessage : Option String := none
  deriving DecidableEq, Repr

/-- What an attempt to run a tool raises: a `ToolExecutionError`, with its flag, or anything
    else. -/
inductive ToolRaise where
  | executionError (cls message : String) (retryable : Bool)
  | other (raised : BaseExn)
  deriving DecidableEq, Repr

/-- What one call meets: the verdict of the validator, the retries of the registered tool, and
    how each attempt ends. The content of an attempt that returns has passed the sandbox. -/
structure ToolEnv where
  validate : ToolCallRequest → Except BaseExn ToolValidationResult
  maxRetries : String → Except Exn Int
  attempt : ToolCallRequest → Nat → Except ToolRaise String

/-! ## ToolExecutor -/

/-- How a failed attempt is reported: the class, the text and whether it is retried. Any other
    exception is wrapped. -/
def ToolRaise.report : ToolRaise → Except BaseExn (String × String × Bool)
  | .executionError cls message retryable => .ok (cls, message, retryable)
  | .other (.exception exc) =>
      .ok ("ToolExecutionFailedError", "Tool execution failed: " ++ exc.text, true)
  | .other raised => .error raised

/-- The loop of `ToolExecutor.execute`, with the retries that are left and those used. -/
def executeFrom (env : ToolEnv) (request : ToolCallRequest) :
    Nat → Nat → Except BaseExn ToolCallResult
  | remaining, used =>
      match env.attempt request used with
      | .ok content =>
          .ok { callId := request.callId, toolName := request.toolName, success := true
                content := content, retriesUsed := used }
      | .error raised => do
          let (cls, message, retryable) ← raised.report
          let failed : ToolCallResult :=
            { callId := request.callId, toolName := request.toolName, success := false
              content := message, errorCode := some cls, retriesUsed := used }
          match remaining with
          | 0 => return failed
          | remaining + 1 =>
              if retryable then executeFrom env request remaining (used + 1) else return failed

/-- `ToolExecutor.execute`. -/
def execute (env : ToolEnv) (request : ToolCallRequest) : Except BaseExn ToolCallResult :=
  match env.maxRetries request.toolName with
  | .error exc => .error (.exception exc)
  | .ok maxRetries => executeFrom env request maxRetries.toNat 0

/-! ## ToolDispatcher -/

/-- `ToolSandbox.check_recursion_depth`. -/
def checkRecursionDepth (depth : Int) (toolName : String) : Except Exn Unit :=
  if 5 < depth then
    .error (.other "ToolRecursionLimitExceededError" ("Recursion limit of 5 exceeded at depth " ++
      toString depth ++ " for tool '" ++ toolName ++ "'."))
  else .ok ()

/-- The steps that `ToolDispatcher.dispatch` guards. -/
def dispatchSteps (env : ToolEnv) (request : ToolCallRequest) : Except BaseExn ToolCallResult := do
  (checkRecursionDepth request.recursionDepth request.toolName).mapError .exception
  let validation ← env.validate request
  if validation.valid then execute env request
  else return {
    callId := request.callId
    toolName := request.toolName
    success := false
    content := (Chat.nonempty validation.errorMessage).getD "Validation failed."
    errorCode := validation.errorCode }

/-- `ToolDispatcher.dispatch`. -/
def dispatch (env : ToolEnv) (request : ToolCallRequest) : Except BaseExn ToolCallResult :=
  match dispatchSteps env request with
  | .error (.exception exc) =>
      .ok { callId := request.callId, toolName := request.toolName, success := false
            content := "An unexpected dispatcher error occurred: " ++ exc.text
            errorCode := some exc.className }
  | result => result

/-! ## ToolExecutionService -/

/-- The context that `execute_batch` writes into a request. -/
def ToolCallRequest.inContext (request : ToolCallRequest)
    (organizationId agentId conversationId : Int) : ToolCallRequest :=
  { request with
    agentId := some agentId
    organizationId := some organizationId
    conversationId := some conversationId }

/-- `ToolExecutionService.execute_batch`, with the environment of each call. -/
def executeBatch (env : Nat → ToolEnv) (requests : List ToolCallRequest)
    (organizationId agentId conversationId : Int) : Except BaseExn ToolExecutionResult := do
  let results ← requests.zipIdx.mapM fun (request, i) =>
    dispatch (env i) (request.inContext organizationId agentId conversationId)
  return { results := results, allSucceeded := results.all ToolCallResult.success }

/-! ## Results name their requests -/

theorem executeFrom_echo {env : ToolEnv} {request : ToolCallRequest} {remaining used : Nat}
    {result : ToolCallResult} (h : executeFrom env request remaining used = .ok result) :
    result.callId = request.callId ∧ result.toolName = request.toolName := by
  induction remaining generalizing used with
  | zero =>
      unfold executeFrom at h
      cases hattempt : env.attempt request used with
      | ok content =>
          rw [hattempt] at h
          obtain rfl := Except.ok.inj h
          exact ⟨rfl, rfl⟩
      | error raised =>
          rw [hattempt] at h
          obtain ⟨_, -, h⟩ := Proc.bind_ok h
          obtain rfl := Except.ok.inj h
          exact ⟨rfl, rfl⟩
  | succ remaining ih =>
      unfold executeFrom at h
      cases hattempt : env.attempt request used with
      | ok content =>
          rw [hattempt] at h
          obtain rfl := Except.ok.inj h
          exact ⟨rfl, rfl⟩
      | error raised =>
          rw [hattempt] at h
          obtain ⟨⟨cls, message, retryable⟩, -, h⟩ := Proc.bind_ok h
          cases retryable with
          | true => exact ih h
          | false =>
              obtain rfl := Except.ok.inj h
              exact ⟨rfl, rfl⟩

theorem dispatchSteps_echo {env : ToolEnv} {request : ToolCallRequest} {result : ToolCallResult}
    (h : dispatchSteps env request = .ok result) :
    result.callId = request.callId ∧ result.toolName = request.toolName := by
  unfold dispatchSteps at h
  obtain ⟨_, -, h⟩ := Proc.bind_ok h
  obtain ⟨validation, -, h⟩ := Proc.bind_ok h
  split at h
  · unfold execute at h
    split at h
    · cases h
    · exact executeFrom_echo h
  · obtain rfl := Except.ok.inj h
    exact ⟨rfl, rfl⟩

/-- A result names its request, however the call ended. -/
theorem dispatch_echo {env : ToolEnv} {request : ToolCallRequest} {result : ToolCallResult}
    (h : dispatch env request = .ok result) :
    result.callId = request.callId ∧ result.toolName = request.toolName := by
  unfold dispatch at h
  split at h
  · obtain rfl := Except.ok.inj h
    exact ⟨rfl, rfl⟩
  · exact dispatchSteps_echo h

/-- The dispatcher raises no `Exception`. -/
theorem dispatch_error {env : ToolEnv} {request : ToolCallRequest} {raised : BaseExn}
    (h : dispatch env request = .error raised) : ∀ exc, raised ≠ .exception exc := by
  rintro exc rfl
  unfold dispatch at h
  split at h
  · cases h
  · next hsteps => exact hsteps exc h

/-! ## Batches -/

section Batch

variable {env : Nat → ToolEnv} {organizationId agentId conversationId : Int}

/-- A batch with results has one for each request, in order. -/
theorem executeBatch_ok {requests : List ToolCallRequest} {batch : ToolExecutionResult}
    (h : executeBatch env requests organizationId agentId conversationId = .ok batch) :
    batch.results.map (fun result => (result.callId, result.toolName)) =
      requests.map fun request => (request.callId, request.toolName) := by
  obtain ⟨results, hresults, h⟩ := Proc.bind_ok h
  obtain rfl := Except.ok.inj h
  have hmap : results.map (fun result => (result.callId, result.toolName)) =
      requests.zipIdx.map fun entry => (entry.1.callId, entry.1.toolName) := by
    refine Proc.mapM_map_eq (fun entry result hdispatch => ?_) hresults
    obtain ⟨hid, hname⟩ := dispatch_echo hdispatch
    rw [hid, hname]
    rfl
  rw [hmap, ← List.zipIdx_map_fst 0 requests, List.map_map]
  rw [List.zipIdx_map_fst]
  rfl

/-- A call of the batch is interrupted by something that is not an `Exception`. -/
def Interrupted (env : Nat → ToolEnv) (requests : List ToolCallRequest)
    (organizationId agentId conversationId : Int) : Prop :=
  ∃ i request raised, requests[i]? = some request ∧
    dispatch (env i) (request.inContext organizationId agentId conversationId) = .error raised

theorem executeBatch_error_iff {requests : List ToolCallRequest} :
    (∃ raised, executeBatch env requests organizationId agentId conversationId = .error raised) ↔
      Interrupted env requests organizationId agentId conversationId := by
  have hmap : (∃ raised, executeBatch env requests organizationId agentId conversationId =
        .error raised) ↔
      ∃ raised, (requests.zipIdx.mapM fun (request, i) =>
        dispatch (env i) (request.inContext organizationId agentId conversationId)) =
          .error raised := by
    unfold executeBatch
    cases requests.zipIdx.mapM fun (request, i) =>
        dispatch (env i) (request.inContext organizationId agentId conversationId) <;>
      simp [bind, Except.bind, pure, Except.pure]
  rw [hmap, Proc.mapM_error_iff]
  unfold Interrupted
  constructor
  · rintro ⟨⟨request, i⟩, hmem, raised, hraised⟩
    exact ⟨i, request, raised, List.mk_mem_zipIdx_iff_getElem?.mp hmem, hraised⟩
  · rintro ⟨i, request, raised, hget, hraised⟩
    exact ⟨(request, i), List.mk_mem_zipIdx_iff_getElem?.mpr hget, raised, hraised⟩

end Batch

end AgentCorp.Tools
