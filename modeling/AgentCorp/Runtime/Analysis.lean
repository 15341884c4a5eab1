/-
  The analysis of a finished chat, and whether it leaves the answer alone.

  `V2Runtime._record_analysis` runs between the engine's response and the return statement:
  reflection, evaluation, learning, adaptive planning, long-term intelligence, optimization.
  Nothing guards it, so an exception of one of them takes the place of the response.

  * `persistMemory_analyzed`: what is learned from a finished chat is always stored.
  * `recordAnalysis_ok_iff`: when the analysis raises nothing.
  * `analysis_harmless_iff`: the runs that return what the engine has returned.
-/
import AgentCorp.Runtime.Optimization
import AgentCorp.Runtime.Refinement

namespace AgentCorp.Runtime

open AgentCorp.Python

variable {δ ρ : Type}

/-! ## The memory service -/

/-- A memory service during one run: how its `i`-th `create_memory` ends and what that leaves
    in the database, and what its `list_memories` returns or raises. -/
structure MemoryService (δ : Type) where
  creates : Nat → Except BaseExn Unit
  stores : Nat → NewMemory → δ → δ
  listed : Except BaseExn (List MemoryRecord)

/-- The `i`-th `MemoryService.create_memory`. -/
def MemoryService.createMemory (service : MemoryService δ) (i : Nat) (memory : NewMemory) :
    Py δ Unit := do
  modify (service.stores i memory)
  Proc.ofExcept (service.creates i)

/-- What an analysis depends on besides the execution. `contentText` is `str` of the dictionary
    that `_persist_learning` makes of a learning report. -/
structure AnalysisEnv (δ : Type) where
  L : Lower
  clock : Clock
  fromisoformat : String → Option PyDatetime
  contentText : LearningReport → String
  memoryService : Option (MemoryService δ)

/-! ## V2Runtime._record_analysis -/

/-- `V2Runtime._build_execution_result`. -/
def analyzedResult (reply : Reply ρ) : AnalyzedResult ρ where
  taskId := "provider"
  status := .completed
  outputs := [("response", reply)]
  errors := []
  duration := 0
  requiredCapability := some "provider"

/-- The trace that the learning engine is given. The snapshots of its entries are left out. -/
def evaluationTrace (clock : Clock) (context : ExecutionContext) (reflection : ReflectionReport)
    (evaluation : EvaluationReport) : List RuntimeLifecycleEntry :=
  let entry (stageName : String) (started completed : Nat) (summary : String)
      (confidence : Rat) (warnings : List String) : RuntimeLifecycleEntry :=
    { requestEntry context
        (buildLifecycleEntry stageName (clock started) (clock completed) "COMPLETED" summary) with
      confidence := some confidence
      warnings := warnings }
  context.executionTrace ++
    [entry "Reflection Started" 0 0 "Reflection analysis started." reflection.confidence [],
      entry "Reflection Completed" 0 1 reflection.executionSummary reflection.confidence
        reflection.warnings,
      entry "Evaluation Started" 2 2 "Evaluation analysis started." evaluation.confidence [],
      entry "Evaluation Completed" 2 3 evaluation.evaluationSummary evaluation.confidence []]

/-- The memory that `V2Runtime._persist_learning` stores. -/
def learningMemory (env : AnalysisEnv δ) (metadata : ExecutionMetadata) (learning : LearningReport)
    (decision : LearningPolicyDecision) (user : User) (organizationId : Int) : NewMemory where
  orgId := organizationId
  agentId := 1
  title := "Learning: " ++
    ((learning.executionId.filter (· ≠ "")).getD metadata.executionId)
  content := env.contentText learning
  memoryType := (decision.memoryType.filter (· ≠ "")).getD "episodic"
  importanceScore := decision.importanceScore
  confidenceScore := learning.confidence
  userId := user.id

/-- What was learned is stored, if the policy says so and there is a memory service. -/
def persistLearning (env : AnalysisEnv δ) (metadata : ExecutionMetadata)
    (learning : LearningReport) (decision : LearningPolicyDecision) (user : User)
    (organizationId : Int) : Py δ Unit :=
  match env.memoryService with
  | none => return ()
  | some service =>
      if decision.persistMemory then
        service.createMemory 0 (learningMemory env metadata learning decision user organizationId)
      else return ()

/-- `LongTermIntelligenceEngine.persist_intelligence`, for the agent that the runtime names. -/
def persistIntelligence (env : AnalysisEnv δ) (learning : LearningReport)
    (adaptive : AdaptivePlanningReport) (user : User) (organizationId : Int) :
    Py δ LongTermIntelligenceReport :=
  match env.memoryService with
  | none => return unavailableReport
  | some service => do
      let memories ← Proc.ofExcept service.listed
      let report ← Py.ofResult (assessMemories env.L env.fromisoformat (env.clock.skip 7) learning
        (some adaptive) memories)
      report.longTermKnowledge.zipIdx.forM fun (knowledge, i) =>
        service.createMemory (1 + i) (knowledge.toMemory organizationId 1 user.id)
      return report

/-- The reports that an analysis registers. -/
structure AnalysisReports where
  reflection : ReflectionReport
  evaluation : EvaluationReport
  learning : LearningReport
  decision : LearningPolicyDecision
  adaptive : AdaptivePlanningReport
  longTerm : LongTermIntelligenceReport
  optimization : RuntimeOptimizationReport

/-- `V2Runtime._record_analysis`. A context without metadata or without a blueprint is not
    analyzed. -/
def recordAnalysis (env : AnalysisEnv δ) (requestText : String) (context : ExecutionContext)
    (reply : Reply ρ) (user : User) (organizationId : Int) : Py δ (Option AnalysisReports) :=
  match context.executionMetadata, context.executionBlueprint with
  | some metadata, some blueprint => do
      let result := analyzedResult reply
      let reflection := reflect context result context.executionTrace
      let evaluation := evaluate context result reflection
      let learning := learn env.L requestText context reflection evaluation
        (evaluationTrace env.clock context reflection evaluation)
      let decision := decideLearning learning
      persistLearning env metadata learning decision user organizationId
      let adaptive := reviseBlueprint none (RevisedBlueprint.ofPlan blueprint) reflection
        evaluation learning
      let longTerm ← persistIntelligence env learning adaptive user organizationId
      let optimization := optimize longTerm .balanced { capability := longTerm.capabilityScores }
      return some ⟨reflection, evaluation, learning, decision, adaptive, longTerm, optimization⟩
  | _, _ => return none

/-- Services whose analysis is that of the runtime. -/
def Services.analyzed (services : Services δ ρ) (env : AnalysisEnv δ) (requestText : String) :
    Services δ ρ :=
  { services with
    recordAnalysis := fun context reply user organizationId => do
      let _ ← Runtime.recordAnalysis env requestText context reply user organizationId }

/-! ## What is learned from a finished chat -/

section Scores

variable (requestText : String) (context : ExecutionContext) (reply : Reply ρ)
  (trace : List RuntimeLifecycleEntry)

theorem reflect_confidence :
    (reflect context (analyzedResult reply) trace).confidence =
      if trace = [] then 8 / 10 else 9 / 10 := by
  have huntraced : roundDigits (min (1 / 2 + 2 / 10 + 1 / 10 + 0 + 0) (99 / 100)) 2 = 8 / 10 := by
    decide +kernel
  have htraced : roundDigits (min (1 / 2 + 2 / 10 + 1 / 10 + 1 / 10 + 0) (99 / 100)) 2 =
      9 / 10 := by
    decide +kernel
  show reflectionConfidence (analyzedResult reply) trace = _
  unfold reflectionConfidence
  by_cases h : trace = []
  · simp only [analyzedResult, h, ne_eq, not_true_eq_false, if_true, if_false, lt_irrefl]
    exact huntraced
  · simp only [analyzedResult, h, ne_eq, not_false_eq_true, if_true, if_false, lt_irrefl]
    exact htraced

/-- A finished chat has no weaknesses, but is warned of its duration. -/
theorem reflect_signals :
    (reflect context (analyzedResult reply) trace).weaknesses = [] ∧
      (reflect context (analyzedResult reply) trace).warnings ≠ [] ∧
      (reflect context (analyzedResult reply) trace).observations ≠ [] := by
  refine ⟨rfl, ?_, by simp [reflect, analyzedResult]⟩
  show (([] : List String) ++ textIf (decide ((0 : Rat) ≤ 0)) _).eraseDups ≠ []
  decide

/-- The evaluation of a finished chat. -/
theorem evaluate_scores (hblueprint : context.executionBlueprint.isSome) :
    (evaluate context (analyzedResult reply)
        (reflect context (analyzedResult reply) trace)).qualityScore = 63 / 100 ∧
      (evaluate context (analyzedResult reply)
        (reflect context (analyzedResult reply) trace)).confidence =
        if trace = [] then 72 / 100 else 76 / 100 := by
  obtain ⟨hweaknesses, hwarnings, hobservations⟩ := reflect_signals context reply trace
  have hcompleteness : completenessScore context (analyzedResult reply)
      (reflect context (analyzedResult reply) trace) = 1 := by
    have hscore : roundDigits (min (4 / 10 + 2 / 10 + 2 / 10 + 2 / 10) 1) 2 = 1 := by
      decide +kernel
    unfold completenessScore
    rw [if_pos hblueprint, if_pos (by simp [analyzedResult]), if_pos hobservations]
    exact hscore
  have hconsistency : consistencyScore (analyzedResult reply)
      (reflect context (analyzedResult reply) trace) = 7 / 10 := by
    have hscore : roundDigits (max (min (1 / 2 + 3 / 10 - 1 / 10) 1) 0) 2 = 7 / 10 := by
      decide +kernel
    unfold consistencyScore
    rw [if_pos ⟨rfl, hweaknesses⟩, if_pos hwarnings]
    exact hscore
  have hefficiency : efficiencyScore (analyzedResult reply) = 2 / 10 := if_pos (le_refl _)
  have hquality : (evaluate context (analyzedResult reply)
      (reflect context (analyzedResult reply) trace)).qualityScore = 63 / 100 := by
    have hscore : roundDigits ((1 + 7 / 10 + 2 / 10) / 3) 2 = 63 / 100 := by decide +kernel
    show roundDigits ((_ + _ + _) / 3) 2 = _
    rw [hcompleteness, hconsistency, hefficiency]
    exact hscore
  refine ⟨hquality, ?_⟩
  show roundDigits (min (99 / 100) ((_ + (evaluate context (analyzedResult reply)
    (reflect context (analyzedResult reply) trace)).qualityScore) / 2)) 2 = _
  rw [hquality, reflect_confidence]
  split <;> decide +kernel

/-- The report that the analysis learns. -/
def learned (env : AnalysisEnv δ) : LearningReport :=
  let reflection := reflect context (analyzedResult reply) context.executionTrace
  let evaluation := evaluate context (analyzedResult reply) reflection
  learn env.L requestText context reflection evaluation
    (evaluationTrace env.clock context reflection evaluation)

theorem learned_confidence (hblueprint : context.executionBlueprint.isSome)
    (env : AnalysisEnv δ) : 72 / 100 ≤ (learned requestText context reply env).confidence := by
  obtain ⟨hquality, hconfidence⟩ :=
    evaluate_scores context reply context.executionTrace hblueprint
  have hobservations :
      extractObservations (reflect context (analyzedResult reply) context.executionTrace) ≠ [] := by
    unfold extractObservations
    simp [(reflect_signals context reply context.executionTrace).2.2]
  show _ ≤ learningConfidence _ _ _ _
  unfold learningConfidence
  dsimp only
  rw [hquality, hconfidence, reflect_confidence, if_pos hobservations]
  by_cases htrace : context.executionTrace = []
  · rw [if_pos htrace, if_pos htrace]
    split <;> decide +kernel
  · rw [if_neg htrace, if_neg htrace]
    split <;> decide +kernel

theorem recommendPersistence_confident {confidence : Rat}
    {preferences executionPatterns capabilityPatterns workflowPatterns : List LearningArtifact}
    (hconfidence : 72 / 100 ≤ confidence) (hcapabilities : capabilityPatterns ≠ []) :
    recommendPersistence confidence preferences executionPatterns capabilityPatterns
        workflowPatterns = .persist ∨
      recommendPersistence confidence preferences executionPatterns capabilityPatterns
        workflowPatterns = .merge := by
  unfold recommendPersistence
  split
  · exact .inl rfl
  · exact .inr (if_pos ⟨hconfidence, hcapabilities⟩)

/-- What is learned from a finished chat is always stored. -/
theorem persistMemory_analyzed (hblueprint : context.executionBlueprint.isSome)
    (env : AnalysisEnv δ) :
    (decideLearning (learned requestText context reply env)).persistMemory = true := by
  have hconfidence := learned_confidence requestText context reply hblueprint env
  have hcapabilities :
      (learned requestText context reply env).reusableCapabilityPatterns ≠ [] := by
    simp [learned, learn, extractCapabilityPatterns, evaluate, analyzedResult]
  have hlow : ¬ (learned requestText context reply env).confidence < 45 / 100 :=
    not_lt.mpr (le_trans (by norm_num) hconfidence)
  unfold decideLearning
  rw [if_neg hlow]
  rcases recommendPersistence_confident hconfidence hcapabilities with h | h
  · rw [show (learned requestText context reply env).persistenceRecommendation = .persist from h]
  · rw [show (learned requestText context reply env).persistenceRecommendation = .merge from h]

end Scores

/-! ## When the analysis raises nothing -/

/-- There is no memory service, or it stores the three memories of an analysis and lists
    memories that can be dated. -/
def Undisturbed (env : AnalysisEnv δ) : Prop :=
  ∀ service, env.memoryService = some service →
    (∀ i < 3, service.creates i = .ok ()) ∧
      ∃ memories, service.listed = .ok memories ∧ Datable env.fromisoformat env.L memories

theorem createMemory_run {service : MemoryService δ} {i : Nat} {memory : NewMemory} {db db' : δ}
    {u : Unit} : (service.createMemory i memory).run db = .ok u db' ↔
      service.creates i = .ok () ∧ db' = service.stores i memory db := by
  unfold MemoryService.createMemory
  rw [EStateM.run_bind]
  exact Proc.run_ofExcept

section Returns

variable (env : AnalysisEnv δ) (requestText : String) {context : ExecutionContext}
  (reply : Reply ρ) (user : User) (organizationId : Int)

theorem assessMemories_knowledge {L : Lower} {fromisoformat : String → Option PyDatetime}
    {clock : Clock} {learning : LearningReport} {adaptive : Option AdaptivePlanningReport}
    {memories : List MemoryRecord} {report : LongTermIntelligenceReport}
    (h : assessMemories L fromisoformat clock learning adaptive memories = .ok report) :
    report.longTermKnowledge =
      knowledgeRecords learning (intelligenceConfidence learning adaptive) := by
  unfold assessMemories at h
  dsimp only at h
  cases hforget : forgetAll fromisoformat clock (evolve L (consolidate L memories).1).1 with
  | error exc =>
      rw [hforget] at h
      cases h
  | ok forgotten =>
      rw [hforget] at h
      obtain rfl := Except.ok.inj h
      rfl

/-- The two knowledge records are stored one after the other. -/
theorem storeKnowledge_ok_iff (service : MemoryService δ) (learning : LearningReport)
    (confidence : Rat) (db : δ) :
    Proc.Succeeds ((knowledgeRecords learning confidence).zipIdx.forM fun (knowledge, i) =>
        service.createMemory (1 + i) (knowledge.toMemory organizationId 1 user.id)) db ↔
      service.creates 1 = .ok () ∧ service.creates 2 = .ok () := by
  unfold knowledgeRecords
  simp only [List.zipIdx_cons, List.zipIdx_nil, List.forM_eq_forM, List.forM_cons, List.forM_nil,
    Proc.succeeds_bind, createMemory_run]
  constructor
  · rintro ⟨-, -, ⟨hfirst, -⟩, -, -, ⟨hsecond, -⟩, -⟩
    exact ⟨hfirst, hsecond⟩
  · rintro ⟨hfirst, hsecond⟩
    exact ⟨(), _, ⟨hfirst, rfl⟩, (), _, ⟨hsecond, rfl⟩, Proc.succeeds_pure _ _⟩

theorem persistIntelligence_ok_iff (learning : LearningReport) (adaptive : AdaptivePlanningReport)
    {service : MemoryService δ} (hservice : env.memoryService = some service) (db : δ) :
    Proc.Succeeds (persistIntelligence env learning adaptive user organizationId) db ↔
      service.creates 1 = .ok () ∧ service.creates 2 = .ok () ∧
        ∃ memories, service.listed = .ok memories ∧
          Datable env.fromisoformat env.L memories := by
  unfold persistIntelligence
  rw [hservice]
  simp only [Proc.succeeds_bind, Proc.run_ofExcept, Py.run_ofResult]
  constructor
  · rintro ⟨memories, _, ⟨hlisted, rfl⟩, report, _, ⟨hreport, rfl⟩, _, _, hstore, -⟩
    rw [assessMemories_knowledge hreport] at hstore
    obtain ⟨hfirst, hsecond⟩ :=
      (storeKnowledge_ok_iff user organizationId service _ _ _).mp ⟨_, _, hstore⟩
    exact ⟨hfirst, hsecond, memories, hlisted,
      (assessMemories_ok_iff _ _ _ _ _ _).mp ⟨report, hreport⟩⟩
  · rintro ⟨hfirst, hsecond, memories, hlisted, hdatable⟩
    obtain ⟨report, hreport⟩ := (assessMemories_ok_iff env.fromisoformat env.L
      (env.clock.skip 7) learning (some adaptive) memories).mpr hdatable
    obtain ⟨_, db', hstore⟩ := (storeKnowledge_ok_iff user organizationId service learning
      (intelligenceConfidence learning (some adaptive)) db).mpr ⟨hfirst, hsecond⟩
    rw [← assessMemories_knowledge hreport] at hstore
    exact ⟨memories, db, ⟨hlisted, rfl⟩, report, db, ⟨hreport, rfl⟩, (), db', hstore,
      Proc.succeeds_pure _ _⟩

/-- The analysis of a context that was prepared raises nothing exactly if nothing disturbs
    it. -/
theorem recordAnalysis_ok_iff {metadata : ExecutionMetadata} {blueprint : ExecutionBlueprint}
    (hmetadata : context.executionMetadata = some metadata)
    (hblueprint : context.executionBlueprint = some blueprint) (db : δ) :
    Proc.Succeeds (recordAnalysis env requestText context reply user organizationId) db ↔
      Undisturbed env := by
  have hpersist := persistMemory_analyzed requestText context reply (by rw [hblueprint]; rfl) env
  unfold recordAnalysis
  rw [hmetadata, hblueprint]
  simp only [Proc.succeeds_bind]
  unfold persistLearning Undisturbed
  cases hservice : env.memoryService with
  | none =>
      refine iff_of_true ⟨(), db, rfl, unavailableReport, db, ?_, Proc.succeeds_pure _ _⟩
        fun service h => (Option.some_ne_none service h.symm).elim
      unfold persistIntelligence
      rw [hservice]
      rfl
  | some service =>
      dsimp only
      unfold learned at hpersist
      dsimp only at hpersist
      rw [if_pos hpersist]
      constructor
      · rintro ⟨u, db', hlearning, longTerm, db'', hlongTerm, -⟩ service' h
        obtain rfl := Option.some.inj h
        obtain ⟨hfirst, hsecond, hmemories⟩ := (persistIntelligence_ok_iff env user
          organizationId _ _ hservice db').mp ⟨longTerm, db'', hlongTerm⟩
        refine ⟨fun i hi => ?_, hmemories⟩
        match i, hi with
        | 0, _ => exact (createMemory_run.mp hlearning).1
        | 1, _ => exact hfirst
        | 2, _ => exact hsecond
      · intro h
        obtain ⟨hcreates, hmemories⟩ := h service rfl
        obtain ⟨longTerm, db', hlongTerm⟩ := (persistIntelligence_ok_iff env user organizationId
          _ _ hservice _).mpr ⟨hcreates 1 (by decide), hcreates 2 (by decide), hmemories⟩
        exact ⟨(), _, createMemory_run.mpr ⟨hcreates 0 (by decide), rfl⟩, longTerm, db',
          hlongTerm, Proc.succeeds_pure _ _⟩

end Returns

/-! ## What the runtime returns -/

/-- The part of `V2Runtime.execute_chat` that ends with the engine's response. -/
def runEngine (env : RuntimeEnv) (services : Services δ ρ) (payload : Payload) (user : User)
    (organizationId : Int) (conversationId : Option Int) :
    Py (World δ) (ExecutionContext × Reply ρ) := do
  let context ← prepareExecution env payload user organizationId
  let response ← executeChat env.L (env.clock.skip 10) (fun run => record (.published run))
    (dispatchChat env services payload user organizationId conversationId) context
  return (context, response)

/-- A V2 chat is the engine's run and then the analysis. -/
theorem v2ExecuteChat_eq (env : RuntimeEnv) (services : Services δ ρ) (payload : Payload)
    (user : User) (organizationId : Int) (conversationId : Option Int) :
    v2ExecuteChat env services payload user organizationId conversationId =
      runEngine env services payload user organizationId conversationId >>=
        fun (context, response) =>
          onDb (services.recordAnalysis context response user organizationId) >>= fun _ =>
            pure response := by
  unfold v2ExecuteChat runEngine
  simp only [bind_assoc, pure_bind]

/-- The context of an engine's run has metadata and a blueprint. -/
theorem runEngine_context (env : RuntimeEnv) (services : Services δ ρ) (payload : Payload)
    (user : User) (organizationId : Int) (conversationId : Option Int) :
    Proc.Returns (fun pair : ExecutionContext × Reply ρ => ∃ metadata blueprint,
        pair.1.executionMetadata = some metadata ∧ pair.1.executionBlueprint = some blueprint)
      (runEngine env services payload user organizationId conversationId) :=
  Proc.Returns.bind (prepareExecution_returns env payload user organizationId)
    fun _ ⟨metadata, blueprint, hmetadata, hblueprint, _⟩ =>
      Proc.Returns.after fun _ => Proc.Returns.pure ⟨metadata, blueprint, hmetadata, hblueprint⟩

/-- An analysis without a memory service. -/
def unstored : AnalysisEnv Unit where
  L := Lower.asciiOnly
  clock := sampleClock
  fromisoformat := fun _ => none
  contentText := fun _ => ""
  memoryService := none

/-- A memory whose date has no time zone, as SQLite returns it. -/
def naiveMemory : MemoryRecord where
  title := some "Learning: execution"
  memoryType := some "semantic"
  confidenceScore := some (81 / 100)
  importanceScore := some (81 / 100)
  createdAt := .datetime ⟨0, false⟩

/-- An analysis whose memory service returns from every call. -/
def storedNaively : AnalysisEnv Unit where
  L := Lower.asciiOnly
  clock := sampleClock
  fromisoformat := fun _ => none
  contentText := fun _ => ""
  memoryService := some ⟨fun _ => .ok (), fun _ _ db => db, .ok [naiveMemory]⟩

/-- The engine lists models for this chat, and the runtime raises: the age of a memory that it
    has stored itself cannot be had. -/
theorem naiveMemory_not_harmless :
    (∃ context w, (runEngine quietRuntime quietServices helloChat ⟨9, true, false⟩ 1 none).run
        emptyWorld = .ok (context, .models []) w) ∧
    ∃ w, (v2ExecuteChat quietRuntime (quietServices.analyzed storedNaively "Hello") helloChat
        ⟨9, true, false⟩ 1 none).run emptyWorld =
      .error (.exception (.typeError
        "can't subtract offset-naive and offset-aware datetimes")) w :=
  ⟨⟨_, _, by rfl⟩, Proc.raised_eq_some.mp (by decide +kernel)⟩

/-- **Analysis.** Where the engine returns a response, the runtime returns it exactly if there
    is no memory service, or the service stores the three memories of the analysis and lists
    memories that can be dated. -/
theorem analysis_harmless_iff (env : RuntimeEnv) (services : Services δ ρ)
    (analysis : AnalysisEnv δ) (payload : Payload) (user : User) (organizationId : Int)
    (conversationId : Option Int) (requestText : String) {w w₁ : World δ}
    {context : ExecutionContext} {response : Reply ρ}
    (h : (runEngine env services payload user organizationId conversationId).run w =
      .ok (context, response) w₁) :
    (∃ w₂, (v2ExecuteChat env (services.analyzed analysis requestText) payload user organizationId
        conversationId).run w = .ok response w₂) ↔ Undisturbed analysis := by
  obtain ⟨metadata, blueprint, hmetadata, hblueprint⟩ :=
    runEngine_context env services payload user organizationId conversationId w _ w₁ h
  have hanalysis : (v2ExecuteChat env (services.analyzed analysis requestText) payload user
      organizationId conversationId).run w =
      (onDb ((services.analyzed analysis requestText).recordAnalysis context response user
        organizationId) >>= fun _ => pure response).run w₁ := by
    rw [v2ExecuteChat_eq, EStateM.run_bind,
      show (runEngine env (services.analyzed analysis requestText) payload user organizationId
        conversationId).run w = .ok (context, response) w₁ from h]
  rw [← recordAnalysis_ok_iff analysis requestText response user organizationId hmetadata
    hblueprint w₁.db, hanalysis]
  constructor
  · rintro ⟨w₂, hrun⟩
    obtain ⟨_, w', hrecord, -⟩ := Proc.succeeds_bind.mp ⟨response, w₂, hrun⟩
    obtain ⟨reports, db, hreports, -⟩ :=
      Proc.succeeds_bind.mp ((succeeds_onDb w₁ _).mp ⟨_, w', hrecord⟩)
    exact ⟨reports, db, hreports⟩
  · rintro ⟨reports, db, hreports⟩
    have hrecord : Proc.Succeeds ((services.analyzed analysis requestText).recordAnalysis context
        response user organizationId) w₁.db :=
      Proc.succeeds_bind.mpr ⟨reports, db, hreports, Proc.succeeds_pure _ _⟩
    obtain ⟨_, w₂, hrun⟩ := (succeeds_onDb w₁ _).mpr hrecord
    refine ⟨w₂, ?_⟩
    rw [EStateM.run_bind, hrun]
    rfl

/-- Memories whose dates have a time zone, as PostgreSQL returns them, two of one title. -/
def awareMemories : List MemoryRecord :=
  [{ naiveMemory with createdAt := .datetime ⟨0, true⟩ },
    { naiveMemory with confidenceScore := some (1 / 2), createdAt := .datetime ⟨5, true⟩ },
    { naiveMemory with title := some "Learning: planning", createdAt := .datetime ⟨7, true⟩ }]

/-- An analysis whose memory service returns these memories. -/
def storedAware : AnalysisEnv Unit :=
  { storedNaively with
    memoryService := some ⟨fun _ => .ok (), fun _ _ db => db, .ok awareMemories⟩ }

/-- The ages of these memories can be had, so the models are returned. -/
theorem storedAware_harmless :
    ∃ w, (v2ExecuteChat quietRuntime (quietServices.analyzed storedAware "Hello") helloChat
      ⟨9, true, false⟩ 1 none).run emptyWorld = .ok (.models []) w := by
  refine (analysis_harmless_iff quietRuntime quietServices storedAware helloChat ⟨9, true, false⟩ 1
    none "Hello" (by rfl)).mpr ?_
  intro service hservice
  obtain rfl := Option.some.inj hservice
  refine ⟨fun _ _ => rfl, awareMemories, rfl, ?_⟩
  rintro title first rest hgroup - ⟨createdAt, hdate, hnaive⟩
  have hlisted : first ∈ awareMemories :=
    List.mem_of_mem_filter (List.mem_of_mem_filter (hgroup ▸ List.mem_cons_self))
  have haware : ∀ memory ∈ awareMemories,
      (dateOf storedAware.fromisoformat memory.createdAt).all (·.aware) = true := by decide
  have hfirst := haware first hlisted
  rw [hdate, Option.all_some, hnaive] at hfirst
  cases hfirst

end AgentCorp.Runtime
