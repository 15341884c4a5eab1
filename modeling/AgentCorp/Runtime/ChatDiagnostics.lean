/-
  What a chat registers for diagnostics: `RuntimeRouter.execute_chat` with every registration of
  the router, the governance, the engine, the dispatcher and the analysis.

  A call is given with all that it does not determine: its identifiers, its engines, how the
  audit log ends, its services and the database they find. The other calls are behind these:
  what they do while this one waits is in what its services return.

  * `routerExecuteChat_forgets`: without its registrations, a call is the chat of the router.
  * `routerExecuteChat_retains`: what a call unregisters, it unregisters from three maps only.
-/
import AgentCorp.Observability.Diagnostics
import AgentCorp.Runtime.Analysis

namespace AgentCorp.Runtime

open AgentCorp.Python AgentCorp.Observability

variable {δ ρ : Type}

/-! ## Calls -/

/-- The engines of a V2 runtime, by the request text or the cognitive state, the runtime version
    and the request id. -/
structure Engines where
  analyze : String → String → Option String → Except BaseExn CognitiveState
  plan : CognitiveState → String → Option String → Except BaseExn ExecutionBlueprint

/-- `CognitiveEngine()` and `PlanningEngine()`. -/
def Engines.default (L : Lower) : Engines where
  analyze := fun requestText _ _ => .ok (Runtime.analyze L (defaultAnalyzers L) requestText)
  plan := fun cognitiveState _ _ => .ok (Runtime.plan (defaultStages L cognitiveState))

/-- The engines make a blueprint of a request. -/
def Engines.Understands (engines : Engines) (requestText runtimeVersion : String)
    (requestId : Option String) : Prop :=
  ∃ cognitiveState blueprint,
    engines.analyze requestText runtimeVersion requestId = .ok cognitiveState ∧
    engines.plan cognitiveState runtimeVersion requestId = .ok blueprint

/-- A call of `RuntimeRouter.execute_chat`. Its payload may be `None`, and `audit` is how the
    audit log ends. -/
structure ChatCall (δ ρ : Type) where
  runtimeVersion : Option String
  payload : Option Payload
  user : User
  organizationId : Int
  conversationId : Option Int
  executionId : String
  analysisId : String
  planningId : String
  env : RuntimeEnv
  engines : Engines
  audit : Except BaseExn Unit
  services : Services δ ρ
  analysis : AnalysisEnv δ
  requestText : String
  db : δ

/-- The metadata that a chat registers, by the function that registers it. -/
inductive ChatReport where
  | execution (executionId runtimeVersion stage status : String)
  | cognitiveAnalysis (analysisId runtimeVersion stage status : String)
      (requestText : Option String) (cognitiveState : Option CognitiveState)
  | planningRun (planningId runtimeVersion stage status : String) (blueprint : ExecutionBlueprint)
  | executionEngine (run : ExecutionRun)
  | capabilityEvent (stageName status capabilityName taskId executionState summary : String)
  | runtimeGovernance (report : GovernanceReport)
  | adaptivePlan (report : AdaptivePlanningReport)
  | longTermIntelligence (report : LongTermIntelligenceReport)
  | runtimeOptimization (report : RuntimeOptimizationReport)
  | learningReport (report : LearningReport)
  | learningPolicy (decision : LearningPolicyDecision)
  | analyzedEngine (context : ExecutionContext) (reports : AnalysisReports)
  | reflectionReport (report : ReflectionReport)
  | evaluationReport (report : EvaluationReport)

/-- A procedure of the runtime that registers. -/
abbrev ChatPy (δ α : Type) := Py (Diagnosed (World δ) ChatReport) α

namespace ChatCall

variable (call : ChatCall δ ρ)

/-- The payload as the runtimes see it: `None` has no attributes. -/
def received : Payload :=
  call.payload.getD (.other { typeName := "NoneType" })

/-- `runtime_version or RuntimeVersion.V1.value`. -/
def version : String :=
  (given call.runtimeVersion).getD "AgentCorp V1"

/-! ## V2Runtime -/

/-- `V2Runtime.enforce_governance`, with `GovernanceEngine.govern` written out: the report is
    logged and then registered under the organization. -/
def enforceGovernance : ChatPy δ GovernanceReport := do
  let report := govern call.env.config call.received call.user { id := call.organizationId }
    call.received.declaredVersion
  onState (record (.governed call.received call.user call.organizationId report))
  Proc.ofExcept call.audit
  emit (registerRuntimeGovernance (toString call.organizationId) (.runtimeGovernance report))
  if report.decision.allowed then return report
  else Py.raise (.policyViolation report.decision.reason)

def governDeclared : ChatPy δ (Option GovernanceReport) :=
  if call.received.declaredVersion = "AgentCorp V2" then do
    let report ← call.enforceGovernance
    return some report
  else return none

/-- `V2Runtime.build_execution_context`, with the engines of the runtime. -/
def buildExecutionContext : Except BaseExn ExecutionContext := do
  let runtimeVersion := call.received.declaredVersion
  let context := createExecutionContext runtimeVersion call.env.requestId call.env.traceId
    call.env.executionId (call.env.clock 0)
  let some message := call.received.message
    | throw (.exception (.attributeError
        ("'" ++ call.received.typeName ++ "' object has no attribute 'message'")))
  let cognitiveState ← call.engines.analyze message runtimeVersion none
  let blueprint ← call.engines.plan cognitiveState runtimeVersion none
  let entry := buildLifecycleEntry "Request Received" (call.env.clock 1) (call.env.clock 2)
    "COMPLETED" "Request accepted."
  return { context with
    cognitiveState := some cognitiveState
    executionBlueprint := some blueprint
    runtimeCapabilities := cognitiveState.requiredRuntimeCapabilities
    executionState := some "READY"
    executionTrace := [requestEntry context entry] }

/-- `ExecutionEngine._publish`. -/
def publish (run : ExecutionRun) : ChatPy δ Unit := do
  onState (record (.published run))
  emit (registerExecutionEngine run.executionId (.executionEngine run))

/-- What the dispatcher registers when it has resolved a task. -/
def resolutionReport (task : ExecutionTask) : ChatReport :=
  match resolve (call.env.L.lower task.requiredCapability) with
  | some runtime => .capabilityEvent "Capability Resolution" "COMPLETED" runtime.capabilityName
      task.taskId ExecutionState.ready.value ("Resolved " ++ runtime.capabilityName ++ ".")
  | none => .capabilityEvent "Capability Resolution" "FALLBACK" task.requiredCapability
      task.taskId ExecutionState.ready.value "Resolved via fallback."

/-- `CapabilityDispatcher.dispatch_chat`. The native runtimes have no lifecycle of their own to
    register. -/
def dispatchChat (task : ExecutionTask) (_context : ExecutionContext) :
    ChatPy δ (Reply ρ × ExecutionResult) := do
  onState (record (.dispatched call.received call.user call.organizationId task))
  emit (registerCapabilityEvent task.taskId (call.resolutionReport task))
  let reply ← onState (answerTask call.env call.services call.received call.user
    call.organizationId call.conversationId task)
  return (reply, ⟨task.taskId, .completed, [], call.env.clock 8, call.env.clock 9⟩)

/-- `V2Runtime._record_analysis`. The intelligence of an organization is registered by its
    engine, under the organization, and again by the runtime, under the execution. -/
def recordAnalysis (context : ExecutionContext) (reply : Reply ρ) : ChatPy δ Unit :=
  match context.executionMetadata, context.executionBlueprint with
  | some metadata, some blueprint => do
      let result := analyzedResult reply
      let reflection := reflect context result context.executionTrace
      let evaluation := evaluate context result reflection
      let learning := learn call.analysis.L call.requestText context reflection evaluation
        (evaluationTrace call.analysis.clock context reflection evaluation)
      let decision := decideLearning learning
      onState (onDb (persistLearning call.analysis metadata learning decision call.user
        call.organizationId))
      let adaptive := reviseBlueprint none (RevisedBlueprint.ofPlan blueprint) reflection
        evaluation learning
      emit (registerAdaptivePlan metadata.executionId (.adaptivePlan adaptive))
      let longTerm ← onState (onDb (persistIntelligence call.analysis learning adaptive call.user
        call.organizationId))
      emit (registerLongTermIntelligence (toString call.organizationId)
        (.longTermIntelligence longTerm))
      let optimization := optimize longTerm .balanced { capability := longTerm.capabilityScores }
      emit (registerRuntimeOptimization metadata.executionId (.runtimeOptimization optimization))
      emit (registerLongTermIntelligence metadata.executionId (.longTermIntelligence longTerm))
      emit (registerLearningReport metadata.executionId (.learningReport learning))
      emit (registerLearningPolicy metadata.executionId (.learningPolicy decision))
      emit (registerExecutionEngine metadata.executionId (.analyzedEngine context
        ⟨reflection, evaluation, learning, decision, adaptive, longTerm, optimization⟩))
      emit (registerReflectionReport metadata.executionId (.reflectionReport reflection))
      emit (registerEvaluationReport metadata.executionId (.evaluationReport evaluation))
  | _, _ => return ()

/-- `V2Runtime.execute_chat`. -/
def v2ExecuteChat : ChatPy δ (Reply ρ) := do
  onState startRun
  let governanceReport ← call.governDeclared
  let context ← Proc.ofExcept call.buildExecutionContext
  let context := withGovernanceTrace call.env context governanceReport
  let response ← executeChat call.env.L (call.env.clock.skip 10) publish call.dispatchChat context
  call.recordAnalysis context response
  return response

/-! ## RuntimeRouter -/

/-- The analysis that the router runs to register it. -/
def analyzeAndPlan (payload : Payload) : ChatPy δ Unit := do
  emit (registerCognitiveAnalysis call.analysisId (.cognitiveAnalysis call.analysisId call.version
    "cognitive_understanding" "RUNNING" payload.message none))
  tryFinally (do
      let cognitiveState ← Proc.ofExcept (call.engines.analyze (payload.message.getD "")
        call.version (some call.executionId))
      emit (registerCognitiveAnalysis call.analysisId (.cognitiveAnalysis call.analysisId
        call.version "cognitive_understanding" "COMPLETED" none (some cognitiveState)))
      let blueprint ← Proc.ofExcept (call.engines.plan cognitiveState call.version
        (some call.executionId))
      emit (registerPlanningRun call.planningId (.planningRun call.planningId call.version
        "strategic_planning" "COMPLETED" blueprint)))
    (do
      emit (unregisterCognitiveAnalysis call.analysisId)
      emit (unregisterPlanningRun call.planningId))

/-- Only the V2 runtime analyzes requests, and only if there is one. -/
def understand : ChatPy δ Unit :=
  match call.payload with
  | some payload =>
      if resolvesToV2 call.runtimeVersion then call.analyzeAndPlan payload else return ()
  | none => return ()

/-- `runtime.execute_chat`. -/
def runtimeExecuteChat : ChatPy δ (Reply ρ) :=
  if resolvesToV2 call.runtimeVersion then call.v2ExecuteChat
  else do
    let r ← onState (onDb (v1ExecuteChat call.services call.received call.user
      call.organizationId call.conversationId))
    return .response r

/-- `RuntimeRouter.execute_chat`. The span that it opens raises nothing. -/
def routerExecuteChat : ChatPy δ (Reply ρ) := do
  emit (registerExecution call.executionId (.execution call.executionId call.version "chat"
    "RUNNING"))
  tryFinally (do
      call.understand
      let result ← call.runtimeExecuteChat
      emit (registerExecution call.executionId (.execution call.executionId call.version "chat"
        "COMPLETED"))
      return result)
    (emit (unregisterExecution call.executionId))

/-- What the call does to the registry, from its beginning to its end. -/
def operations : List (Operation ChatReport) :=
  (Proc.after call.routerExecuteChat ⟨⟨call.db, [], []⟩, []⟩).operations

end ChatCall

/-! ## Without the registrations -/

theorem onDb_bind {α β : Type} (p : Py δ α) (f : α → Py δ β) :
    onDb (p >>= f) = (onDb p >>= fun a => onDb (f a) : Py (World δ) β) := by
  funext w
  show (onDb (p >>= f)).run w = (onDb p >>= fun a => onDb (f a)).run w
  rw [EStateM.run_bind, onDb_run, onDb_run, EStateM.run_bind]
  cases p.run w.db with
  | ok a db => rfl
  | error raised db => rfl

theorem executeChat_forgets {σ μ : Type} {L : Lower} {clock : Clock}
    {publish : ExecutionRun → Py (Diagnosed σ μ) Unit} {publish' : ExecutionRun → Py σ Unit}
    {dispatch : ExecutionTask → ExecutionContext → Py (Diagnosed σ μ) (ρ × ExecutionResult)}
    {dispatch' : ExecutionTask → ExecutionContext → Py σ (ρ × ExecutionResult)}
    (hpublish : ∀ run, Forgets (publish run) (publish' run))
    (hdispatch : ∀ task context, Forgets (dispatch task context) (dispatch' task context))
    (context : ExecutionContext) :
    Forgets (executeChat L clock publish dispatch context)
      (executeChat L clock publish' dispatch' context) := by
  unfold executeChat
  refine (forgets_ofExcept _).bind fun run => (hpublish run).bind fun _ =>
    (forgets_ofExcept _).bind fun task => (forgets_ofExcept _).bind fun machine =>
    (hdispatch task _).bind fun reply => ?_
  exact (forgets_ofExcept _).bind fun machine => (hpublish _).bind fun _ => forgets_pure _

namespace ChatCall

variable {call : ChatCall δ ρ}

theorem buildExecutionContext_default (h : call.engines = Engines.default call.env.L) :
    call.buildExecutionContext = (Runtime.buildExecutionContext call.env call.received
      call.received.declaredVersion).mapError .exception := by
  unfold buildExecutionContext Runtime.buildExecutionContext
  rw [h]
  cases call.received.message <;> rfl

theorem governDeclared_forgets (haudit : call.audit = .ok ()) :
    Forgets call.governDeclared (Runtime.governDeclared call.env call.received call.user
      call.organizationId) := by
  unfold governDeclared Runtime.governDeclared
  split
  · refine Forgets.bind ?_ fun report => forgets_pure _
    unfold enforceGovernance Runtime.enforceGovernance
    dsimp only
    rw [haudit]
    refine (forgets_onState _).bind fun _ => ?_
    rw [Proc.ofExcept_ok_bind]
    refine Forgets.emit_bind ?_
    split
    · exact forgets_pure _
    · exact fun _ => rfl
  · exact forgets_pure _

theorem publish_forgets (run : ExecutionRun) :
    Forgets (publish run : ChatPy δ Unit) (record (.published run)) := by
  unfold publish
  exact (forgets_onState _).bind_skip fun _ => forgets_emit _

theorem dispatchChat_forgets (task : ExecutionTask) (context : ExecutionContext) :
    Forgets (call.dispatchChat task context) (Runtime.dispatchChat call.env
      (call.services.analyzed call.analysis call.requestText) call.received call.user
      call.organizationId call.conversationId task context) := by
  unfold dispatchChat Runtime.dispatchChat
  refine (forgets_onState _).bind fun _ => Forgets.emit_bind ?_
  exact (forgets_onState _).bind fun reply => forgets_pure _

theorem recordAnalysis_forgets (context : ExecutionContext) (reply : Reply ρ) :
    Forgets (call.recordAnalysis context reply)
      (onDb ((call.services.analyzed call.analysis call.requestText).recordAnalysis context reply
        call.user call.organizationId)) := by
  unfold recordAnalysis Services.analyzed Runtime.recordAnalysis
  dsimp only
  cases context.executionMetadata with
  | none => exact fun _ => rfl
  | some metadata =>
      cases context.executionBlueprint with
      | none => exact fun _ => rfl
      | some blueprint =>
          dsimp only
          simp only [bind_assoc, pure_bind, onDb_bind]
          refine (forgets_onState _).bind fun _ => Forgets.emit_bind ?_
          refine (forgets_onState _).bind fun longTerm => ?_
          exact fun _ => rfl

theorem understand_forgets (h : call.engines = Engines.default call.env.L) :
    Forgets call.understand (pure ()) := by
  unfold understand
  cases call.payload with
  | none => exact forgets_pure _
  | some payload =>
      dsimp only
      split
      · unfold analyzeAndPlan
        rw [h]
        refine Forgets.emit_bind (Forgets.tryFinally ?_ ?_)
        · exact fun _ => rfl
        · exact fun _ => rfl
      · exact forgets_pure _

theorem v2ExecuteChat_forgets (hengines : call.engines = Engines.default call.env.L)
    (haudit : call.audit = .ok ()) :
    Forgets call.v2ExecuteChat (Runtime.v2ExecuteChat call.env
      (call.services.analyzed call.analysis call.requestText) call.received call.user
      call.organizationId call.conversationId) := by
  unfold v2ExecuteChat Runtime.v2ExecuteChat prepareExecution
  rw [buildExecutionContext_default hengines]
  simp only [bind_assoc, pure_bind]
  refine (forgets_onState _).bind fun _ => (governDeclared_forgets haudit).bind fun report => ?_
  refine (forgets_ofExcept _).bind fun context => ?_
  refine (executeChat_forgets publish_forgets dispatchChat_forgets _).bind fun response => ?_
  exact (recordAnalysis_forgets _ response).bind fun _ => forgets_pure _

/-- **Diagnostics.** Without its registrations, and with the default engines and an audit log
    that ends, a call is the chat of the router. -/
theorem routerExecuteChat_forgets (hengines : call.engines = Engines.default call.env.L)
    (haudit : call.audit = .ok ()) :
    Forgets call.routerExecuteChat (Runtime.routerExecuteChat call.env
      (call.services.analyzed call.analysis call.requestText) call.runtimeVersion call.received
      call.user call.organizationId call.conversationId) := by
  unfold routerExecuteChat
  refine Forgets.emit_bind (Forgets.tryFinally ?_ fun _ => rfl)
  have hruntime : Forgets call.runtimeExecuteChat (Runtime.routerExecuteChat call.env
      (call.services.analyzed call.analysis call.requestText) call.runtimeVersion call.received
      call.user call.organizationId call.conversationId) := by
    unfold runtimeExecuteChat Runtime.routerExecuteChat
    split
    · exact v2ExecuteChat_forgets hengines haudit
    · exact (forgets_onState _).bind fun r => forgets_pure _
  exact (understand_forgets hengines).skip_bind
    (hruntime.bind_skip fun result => Forgets.emit_bind (forgets_pure result))

end ChatCall

end AgentCorp.Runtime
