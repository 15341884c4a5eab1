/-
  The runtimes: V1, the capability dispatcher over the native registry, V2, and the router.

  The services behind them are a parameter (`Services`): any procedures over a database `δ`.
  A `World` is that database, the events a stream has yielded, and, run by run, what the V2
  runtime did. A generator that forwards every event of another one is, consumed to its end,
  that other one.

  * `buildExecutionContext_ok`: a payload with a message is prepared, and its blueprint
    requires the capabilities of the message.
-/
import AgentCorp.Runtime.Engine
import AgentCorp.Runtime.Governance

namespace AgentCorp.Runtime

open AgentCorp.Python

variable {δ ρ : Type}

/-! ## The world -/

/-- What the V2 runtime does in one run. -/
inductive RuntimeEvent where
  | governed (payload : Payload) (user : User) (organizationId : Int) (report : GovernanceReport)
  | published (run : ExecutionRun)
  | dispatched (payload : Payload) (user : User) (organizationId : Int) (task : ExecutionTask)
  deriving DecidableEq, Repr

/-- The runs are kept with the current one first. -/
structure World (δ : Type) where
  db : δ
  yielded : List String
  runs : List (List RuntimeEvent)

/-- A service call: it sees and changes the database only. -/
def onDb {α : Type} (p : Py δ α) : Py (World δ) α := fun w =>
  match p.run w.db with
  | .ok a db => .ok a { w with db := db }
  | .error raised db => .error raised { w with db := db }

/-- A new run of the V2 runtime begins. -/
def startRun : Py (World δ) Unit :=
  modify fun w => { w with runs := [] :: w.runs }

/-- Append an event to a run. -/
def recordIn (event : RuntimeEvent) : List (List RuntimeEvent) → List (List RuntimeEvent)
  | [] => [[event]]
  | run :: runs => (run ++ [event]) :: runs

def record (event : RuntimeEvent) : Py (World δ) Unit :=
  modify fun w => { w with runs := recordIn event w.runs }

/-- A generator consumed to its end: what it yields and how it ends. -/
structure StreamRun where
  events : List String
  ending : Except BaseExn Unit

/-- `async for event in generator: yield event`. -/
def forward (generator : δ → StreamRun × δ) : Py (World δ) Unit := fun w =>
  let (run, db) := generator w.db
  let w' : World δ := { w with db := db, yielded := w.yielded ++ run.events }
  match run.ending with
  | .ok () => .ok () w'
  | .error raised => .error raised w'

/-! ## Services -/

/-- What a chat run hands back: a chat response, or what a native executor returned. -/
inductive Reply (ρ : Type) where
  | response (r : ρ)
  | models (names : List String)
  | output (value : PyValue)

/-- The services that the runtimes call. `executeCapability` stands for the native executors
    of the capabilities other than the provider and streaming, by capability id, and
    `recordAnalysis` for `V2Runtime._record_analysis`. -/
structure Services (δ ρ : Type) where
  createChat : ChatCreateRequest → User → Int → Py δ ρ
  continueChat : Int → ChatContinueRequest → User → Int → Py δ ρ
  regenerateResponse : Int → ChatRegenerateRequest → User → Int → Py δ ρ
  retryFailedMessage : Int → ChatRetryRequest → User → Int → Py δ ρ
  streamNewChat : Payload → User → Int → δ → StreamRun × δ
  streamContinueChat : Int → Payload → User → Int → δ → StreamRun × δ
  listModels : Option String → Py δ (List String)
  executeCapability : String → ExecutionTask → Payload → User → Int → Option Int → Py δ PyValue
  recordAnalysis : ExecutionContext → Reply ρ → User → Int → Py δ Unit

/-! ## V1Runtime -/

/-- The conversation that every chat but a new one needs. -/
def requireConversation {α : Type} (conversationId : Option Int) (kind : String)
    (call : Int → Py δ α) : Py δ α :=
  match conversationId with
  | some id => call id
  | none => Py.raise (.valueError ("conversation_id is required for " ++ kind ++ " chat."))

/-- `V1Runtime.execute_chat`. -/
def v1ExecuteChat (services : Services δ ρ) (payload : Payload) (user : User)
    (organizationId : Int) (conversationId : Option Int) : Py δ ρ :=
  match payload with
  | .create request => services.createChat request user organizationId
  | .continued request => requireConversation conversationId "continue" fun id =>
      services.continueChat id request user organizationId
  | .regenerate request => requireConversation conversationId "regenerate" fun id =>
      services.regenerateResponse id request user organizationId
  | .retry request => requireConversation conversationId "retry" fun id =>
      services.retryFailedMessage id request user organizationId
  | payload => Py.raise (.typeError ("Unsupported payload type: " ++ payload.typeName))

/-- `V1Runtime.execute_stream`. -/
def v1ExecuteStream (services : Services δ ρ) (payload : Payload) (user : User)
    (organizationId : Int) (conversationId : Option Int) : δ → StreamRun × δ :=
  match conversationId with
  | none => services.streamNewChat payload user organizationId
  | some id => services.streamContinueChat id payload user organizationId

/-! ## The native capability registry -/

inductive CapabilityExecutionMode where
  | native | delegated
  deriving DecidableEq, Repr

structure CapabilityMetadata where
  capabilityId : String
  capabilityName : String
  serviceName : String
  supportedTaskTypes : List String
  executionMode : CapabilityExecutionMode
  deriving DecidableEq, Repr

/-- `build_native_capability_registry`. -/
def nativeCapabilityRegistry : List CapabilityMetadata :=
  [⟨"memory", "Memory Runtime Adapter", "MemoryService", ["memory"], .native⟩,
    ⟨"knowledge", "Knowledge Runtime Adapter", "KnowledgeService", ["knowledge"], .native⟩,
    ⟨"rag", "RAG Runtime Adapter", "RAGService", ["rag"], .native⟩,
    ⟨"workflow", "Workflow Runtime Adapter", "WorkflowService", ["workflow"], .native⟩,
    ⟨"tools", "Tool Runtime Adapter", "ToolExecutionService", ["tool", "tools"], .native⟩,
    ⟨"provider", "Provider Runtime Adapter", "ProviderService", ["provider"], .native⟩,
    ⟨"streaming", "Streaming Runtime Adapter", "StreamingService", ["streaming"], .native⟩]

/-- `CapabilityRegistry.resolve`. -/
def resolve (capabilityId : String) : Option CapabilityMetadata :=
  nativeCapabilityRegistry.find? (·.capabilityId = capabilityId)

/-- The streaming executor: it consumes a generator and counts its chunks. -/
def countChunks (generator : δ → StreamRun × δ) : Py (World δ) (Reply ρ) := fun w =>
  let (run, db) := generator w.db
  match run.ending with
  | .ok () => .ok (.output (.other ("streamed_chunks: " ++ toString run.events.length) true))
      { w with db := db }
  | .error raised => .error raised { w with db := db }

/-- The native executors. None of the payloads is a `ChatRequest` of the provider layer, so
    `provider_exec` lists models. -/
def nativeExecute (services : Services δ ρ) (capabilityId : String) (task : ExecutionTask)
    (payload : Payload) (user : User) (organizationId : Int) (conversationId : Option Int) :
    Py (World δ) (Reply ρ) :=
  if capabilityId = "provider" then do
    let names ← onDb (services.listModels payload.provider)
    return .models names
  else if capabilityId = "streaming" then
    countChunks (services.streamNewChat payload user organizationId)
  else do
    let value ← onDb (services.executeCapability capabilityId task payload user organizationId
      conversationId)
    return .output value

/-! ## CapabilityDispatcher -/

/-- What one call of a runtime does not determine: the case table of `str.lower`, the policy
    configuration, the clock, and the fresh identifiers of the context. -/
structure RuntimeEnv where
  L : Lower
  config : PolicyConfig
  clock : Clock
  requestId : String
  traceId : String
  executionId : String

/-- A task that resolves to a native runtime. -/
def resolvesNatively (L : Lower) (task : ExecutionTask) : Option CapabilityMetadata :=
  (resolve (L.lower task.requiredCapability)).filter (·.executionMode = .native)

/-- The native executor of the task's capability, or the V1 adapter where there is none. -/
def answerTask (env : RuntimeEnv) (services : Services δ ρ) (payload : Payload) (user : User)
    (organizationId : Int) (conversationId : Option Int) (task : ExecutionTask) :
    Py (World δ) (Reply ρ) :=
  match resolvesNatively env.L task with
  | some metadata =>
      nativeExecute services metadata.capabilityId task payload user organizationId conversationId
  | none => do
      let r ← onDb (v1ExecuteChat services payload user organizationId conversationId)
      return .response r

/-- `CapabilityDispatcher.dispatch_chat`. -/
def dispatchChat (env : RuntimeEnv) (services : Services δ ρ) (payload : Payload) (user : User)
    (organizationId : Int) (conversationId : Option Int) (task : ExecutionTask)
    (_context : ExecutionContext) : Py (World δ) (Reply ρ × ExecutionResult) := do
  record (.dispatched payload user organizationId task)
  let reply ← answerTask env services payload user organizationId conversationId task
  return (reply, ⟨task.taskId, .completed, [], env.clock 8, env.clock 9⟩)

/-- `CapabilityDispatcher.dispatch_stream`. A native runtime streams through the adapter if it
    is the streaming one, and raises otherwise. -/
def dispatchStream (env : RuntimeEnv) (services : Services δ ρ) (payload : Payload) (user : User)
    (organizationId : Int) (conversationId : Option Int) (task : ExecutionTask)
    (_context : ExecutionContext) : Py (World δ) Unit := do
  record (.dispatched payload user organizationId task)
  match resolvesNatively env.L task with
  | some metadata =>
      if metadata.capabilityId ≠ "streaming" then Py.raise .notImplemented
      else forward (v1ExecuteStream services payload user organizationId conversationId)
  | none => forward (v1ExecuteStream services payload user organizationId conversationId)

/-! ## V2Runtime -/

/-- `V2Runtime.build_execution_context`. -/
def buildExecutionContext (env : RuntimeEnv) (payload : Payload) (runtimeVersion : String) :
    Except Exn ExecutionContext :=
  let context := createExecutionContext runtimeVersion env.requestId env.traceId env.executionId
    (env.clock 0)
  match payload.message with
  | none => .error (.attributeError
      ("'" ++ payload.typeName ++ "' object has no attribute 'message'"))
  | some message =>
      let cognitiveState := analyze env.L (defaultAnalyzers env.L) message
      let blueprint := plan (defaultStages env.L cognitiveState)
      let entry := buildLifecycleEntry "Request Received" (env.clock 1) (env.clock 2) "COMPLETED"
        "Request accepted."
      .ok { context with
        cognitiveState := some cognitiveState
        executionBlueprint := some blueprint
        runtimeCapabilities := cognitiveState.requiredRuntimeCapabilities
        executionState := some "READY"
        executionTrace := [requestEntry context entry] }

/-- `V2Runtime.enforce_governance`. -/
def enforceGovernance (env : RuntimeEnv) (payload : Payload) (user : User) (organizationId : Int)
    (runtimeVersion : String) : Py (World δ) GovernanceReport := do
  let report := govern env.config payload user { id := organizationId } runtimeVersion
  record (.governed payload user organizationId report)
  if report.decision.allowed then return report
  else Py.raise (.policyViolation report.decision.reason)

/-- The lifecycle entries of a governance report. -/
def governanceTrace (env : RuntimeEnv) (context : ExecutionContext) (report : GovernanceReport) :
    List RuntimeLifecycleEntry :=
  report.trace.map fun stage =>
    { requestEntry context
        (buildLifecycleEntry stage.stageName (env.clock 3) (env.clock 4) stage.status
          stage.summary) with
      confidence := some (if report.decision.allowed then 1 else 0) }

/-- The version by which the V2 runtime decides whether to govern. -/
def Payload.declaredVersion (payload : Payload) : String :=
  payload.runtimeVersion.getD "AgentCorp V1"

/-- A payload that declares V2 is governed. -/
def governDeclared (env : RuntimeEnv) (payload : Payload) (user : User) (organizationId : Int) :
    Py (World δ) (Option GovernanceReport) :=
  if payload.declaredVersion = "AgentCorp V2" then do
    let report ← enforceGovernance env payload user organizationId payload.declaredVersion
    return some report
  else return none

/-- The trace of a governed run starts with the governance stages. -/
def withGovernanceTrace (env : RuntimeEnv) (context : ExecutionContext) :
    Option GovernanceReport → ExecutionContext
  | some report =>
      { context with
        executionTrace := governanceTrace env context report ++ context.executionTrace }
  | none => context

/-- What `V2Runtime.execute_chat` and `execute_stream` do before the engine. -/
def prepareExecution (env : RuntimeEnv) (payload : Payload) (user : User)
    (organizationId : Int) : Py (World δ) ExecutionContext := do
  startRun
  let governanceReport ← governDeclared env payload user organizationId
  let context ← Py.ofResult (buildExecutionContext env payload payload.declaredVersion)
  return withGovernanceTrace env context governanceReport

/-- `V2Runtime.execute_chat`. -/
def v2ExecuteChat (env : RuntimeEnv) (services : Services δ ρ) (payload : Payload) (user : User)
    (organizationId : Int) (conversationId : Option Int) : Py (World δ) (Reply ρ) := do
  let context ← prepareExecution env payload user organizationId
  let response ← executeChat env.L (env.clock.skip 10) (fun run => record (.published run))
    (dispatchChat env services payload user organizationId conversationId) context
  onDb (services.recordAnalysis context response user organizationId)
  return response

/-- `V2Runtime.execute_stream`. -/
def v2ExecuteStream (env : RuntimeEnv) (services : Services δ ρ) (payload : Payload)
    (user : User) (organizationId : Int) (conversationId : Option Int) : Py (World δ) Unit := do
  let context ← prepareExecution env payload user organizationId
  executeStream env.L (env.clock.skip 10) (fun run => record (.published run))
    (dispatchStream env services payload user organizationId conversationId) context

/-! ## RuntimeRouter -/

/-- `RuntimeRouter.resolve` picks the V2 runtime for its own name only. -/
def resolvesToV2 (runtimeVersion : Option String) : Bool :=
  runtimeVersion = some "AgentCorp V2"

/-- `RuntimeRouter.execute_chat`. The analysis that it runs for diagnostics raises nothing and
    changes no state. -/
def routerExecuteChat (env : RuntimeEnv) (services : Services δ ρ) (runtimeVersion : Option String)
    (payload : Payload) (user : User) (organizationId : Int) (conversationId : Option Int) :
    Py (World δ) (Reply ρ) :=
  if resolvesToV2 runtimeVersion then
    v2ExecuteChat env services payload user organizationId conversationId
  else do
    let r ← onDb (v1ExecuteChat services payload user organizationId conversationId)
    return .response r

/-- `RuntimeRouter.execute_stream`. -/
def routerExecuteStream (env : RuntimeEnv) (services : Services δ ρ)
    (runtimeVersion : Option String) (payload : Payload) (user : User) (organizationId : Int)
    (conversationId : Option Int) : Py (World δ) Unit :=
  if resolvesToV2 runtimeVersion then
    v2ExecuteStream env services payload user organizationId conversationId
  else forward (v1ExecuteStream services payload user organizationId conversationId)

/-! ## Effects on the world -/

section World

variable (w : World δ)

theorem onDb_run {α : Type} (p : Py δ α) :
    (onDb p).run w =
      match p.run w.db with
      | .ok a db => .ok a { w with db := db }
      | .error raised db => .error raised { w with db := db } := rfl

theorem onDb_db {α : Type} (p : Py δ α) :
    (Proc.after (onDb p) w).db = Proc.after p w.db := by
  unfold Proc.after
  rw [onDb_run]
  cases p.run w.db <;> rfl

theorem succeeds_onDb {α : Type} (p : Py δ α) :
    Proc.Succeeds (onDb p) w ↔ Proc.Succeeds p w.db := by
  unfold Proc.Succeeds
  rw [onDb_run]
  cases p.run w.db with
  | ok a db => exact iff_of_true ⟨a, _, rfl⟩ ⟨a, db, rfl⟩
  | error raised db => simp

@[simp] theorem startRun_run :
    (startRun : Py (World δ) Unit).run w = .ok () { w with runs := [] :: w.runs } := rfl

@[simp] theorem record_run (event : RuntimeEvent) :
    (record event : Py (World δ) Unit).run w = .ok () { w with runs := recordIn event w.runs } :=
  rfl

@[simp] theorem recordIn_cons (event : RuntimeEvent) (run : List RuntimeEvent)
    (runs : List (List RuntimeEvent)) :
    recordIn event (run :: runs) = (run ++ [event]) :: runs := rfl

theorem forward_outcome (generator : δ → StreamRun × δ) :
    Proc.outcome (forward generator) w = (generator w.db).1.ending := by
  unfold Proc.outcome EStateM.run forward
  cases h : (generator w.db).1.ending <;> simp [h]

theorem forward_after (generator : δ → StreamRun × δ) :
    Proc.after (forward generator) w =
      { w with
        db := (generator w.db).2
        yielded := w.yielded ++ (generator w.db).1.events } := by
  unfold Proc.after EStateM.run forward
  cases h : (generator w.db).1.ending <;> simp [h]

end World

/-! ## Prepared contexts -/

theorem capabilitiesOf_ne_nil (text : String) : capabilitiesOf text ≠ [] := by
  simp only [capabilitiesOf]
  split
  · simp
  · next h => exact h

theorem buildExecutionContext_ok (env : RuntimeEnv) {payload : Payload} {message : String}
    (hmessage : payload.message = some message) (runtimeVersion : String) :
    ∃ context metadata blueprint,
      buildExecutionContext env payload runtimeVersion = .ok context ∧
      context.executionMetadata = some metadata ∧ context.executionBlueprint = some blueprint ∧
      blueprint.requiredRuntimeCapabilities = capabilitiesOf (normalizeText env.L message) := by
  unfold buildExecutionContext
  rw [hmessage]
  refine ⟨_, _, _, rfl, rfl, rfl, ?_⟩
  rw [plan_capabilities, analyze_capabilities]

/-- What the V2 runtime records before it builds a context. -/
def governedEvents (env : RuntimeEnv) (payload : Payload) (user : User) (organizationId : Int) :
    List RuntimeEvent :=
  if payload.declaredVersion = "AgentCorp V2" then
    [.governed payload user organizationId
      (govern env.config payload user { id := organizationId } payload.declaredVersion)]
  else []

/-- Governance lets a payload through: it allows it, or is not asked. -/
def Admitted (env : RuntimeEnv) (payload : Payload) (user : User) (organizationId : Int) : Prop :=
  payload.declaredVersion = "AgentCorp V2" →
    (govern env.config payload user { id := organizationId }
      payload.declaredVersion).decision.allowed

theorem governDeclared_run (env : RuntimeEnv) {payload : Payload} {user : User}
    {organizationId : Int} (h : Admitted env payload user organizationId) (w : World δ)
    (runs : List (List RuntimeEvent)) :
    ∃ report, (governDeclared env payload user organizationId).run { w with runs := [] :: runs } =
      .ok report { w with runs := governedEvents env payload user organizationId :: runs } := by
  unfold governDeclared governedEvents
  by_cases hv : payload.declaredVersion = "AgentCorp V2"
  · have hallowed := h hv
    simp only [if_pos hv]
    refine ⟨some (govern env.config payload user { id := organizationId }
      payload.declaredVersion), ?_⟩
    unfold enforceGovernance
    simp only [hallowed, if_true]
    rfl
  · simp only [if_neg hv]
    exact ⟨none, rfl⟩

/-- An admitted payload with a message is prepared in a run of its own. -/
theorem prepareExecution_run (env : RuntimeEnv) {payload : Payload} {user : User}
    {organizationId : Int} (h : Admitted env payload user organizationId) {message : String}
    (hmessage : payload.message = some message) (w : World δ) :
    ∃ context metadata blueprint,
      (prepareExecution env payload user organizationId).run w = .ok context
        { w with runs := governedEvents env payload user organizationId :: w.runs } ∧
      context.executionMetadata = some metadata ∧ context.executionBlueprint = some blueprint ∧
      blueprint.requiredRuntimeCapabilities = capabilitiesOf (normalizeText env.L message) := by
  obtain ⟨context, metadata, blueprint, hcontext, hm, hb, hcaps⟩ :=
    buildExecutionContext_ok env hmessage payload.declaredVersion
  obtain ⟨report, hreport⟩ := governDeclared_run env h w w.runs
  refine ⟨withGovernanceTrace env context report, metadata, blueprint, ?_, ?_, ?_, hcaps⟩
  · unfold prepareExecution
    rw [EStateM.run_bind, startRun_run]
    dsimp only
    rw [EStateM.run_bind, hreport]
    dsimp only
    rw [hcontext, Py.ofResult_ok_bind]
    rfl
  · cases report <;> exact hm
  · cases report <;> exact hb

end AgentCorp.Runtime
