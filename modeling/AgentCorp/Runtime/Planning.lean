/-
  Strategic planning: the execution blueprint that the planning engine builds from a
  cognitive state, stage by stage.

  * `plan_capabilities`: the blueprint requires the capabilities of the cognitive state.
-/
import AgentCorp.Runtime.Cognitive

namespace AgentCorp.Runtime

open AgentCorp.Python

structure ExecutionObjective where
  primaryObjective : Option String
  secondaryObjectives : List String
  expectedDeliverables : List String
  completionCriteria : List String
  unknownObjectives : List String
  deriving DecidableEq, Repr

structure PlannedTask where
  identifier : String
  title : String
  description : String
  requiredCapabilities : List String
  expectedOutput : String
  estimatedComplexity : String
  estimatedConfidence : Rat
  deriving DecidableEq, Repr

structure DependencyEdge where
  source : String
  target : String
  dependencyType : String
  deriving DecidableEq, Repr

structure PlannedMilestone where
  identifier : String
  objective : Option String
  tasks : List String
  completionConditions : List String
  expectedOutputs : List String
  deriving DecidableEq, Repr

structure RiskAssessmentItem where
  riskType : String
  likelihood : String
  impact : String
  confidence : Rat
  summary : String
  deriving DecidableEq, Repr

structure ExecutionBlueprint where
  executionObjective : Option ExecutionObjective := none
  milestones : List PlannedMilestone := []
  executionStages : List String := []
  taskGraph : List PlannedTask := []
  dependencyGraph : List DependencyEdge := []
  priorityOrdering : List String := []
  estimatedRisks : List RiskAssessmentItem := []
  expectedDeliverables : List String := []
  requiredRuntimeCapabilities : List String := []
  executionAssumptions : List String := []
  planningConfidence : Rat := 0
  planningTrace : List StageEntry := []
  deriving DecidableEq, Repr

/-- `value or default` of an optional text. -/
def orText (value : Option String) (default : String) : String :=
  match value with
  | some text => if text = "" then default else text
  | none => default

/-! ## The planners -/

def objectivePlanner (cognitiveState : CognitiveState) : Stage ExecutionBlueprint where
  stageName := "Objective Planning"
  apply blueprint :=
    let normalizedGoal := orText cognitiveState.normalizedGoal "Unknown objective"
    let secondary := ((cognitiveState.intentCollection.map CognitiveIntent.category).filter
      (· ≠ "explanation")).take 3
    let deliverables := ["Structured plan for " ++ normalizedGoal, "Execution blueprint"]
    let objective : ExecutionObjective :=
      { primaryObjective := some normalizedGoal
        secondaryObjectives := secondary
        expectedDeliverables := deliverables
        completionCriteria := ("Goal captured: " ++ normalizedGoal) ::
          deliverables.map fun deliverable => "Deliverable ready: " ++ deliverable
        -- The source iterates over the text "unknown", not over a tuple of it.
        unknownObjectives :=
          (if normalizedGoal = "Unknown objective" then "unknown" else "").toList.map
            fun c => String.ofList [c] }
    .ok { blueprint with
      executionObjective := some objective
      expectedDeliverables := deliverables }

/-- The objective that later stages name. -/
def objectiveText (blueprint : ExecutionBlueprint) (cognitiveState : CognitiveState) :
    Option String :=
  match blueprint.executionObjective with
  | some objective => objective.primaryObjective
  | none => some (orText cognitiveState.normalizedGoal "Unknown objective")

def taskDecomposer (cognitiveState : CognitiveState) : Stage ExecutionBlueprint where
  stageName := "Task Decomposition"
  apply blueprint :=
    let objective := (objectiveText blueprint cognitiveState).getD "None"
    .ok { blueprint with
      taskGraph :=
        [⟨"task_1", "Prepare request context",
            "Review the request and normalize the objective: " ++ objective, ["analysis"],
            "Structured request summary", "low", 86 / 100⟩,
          ⟨"task_2", "Identify implementation scope",
            "Determine the bounded runtime work implied by the request.", ["analysis"],
            "Scope summary", "medium", 8 / 10⟩,
          ⟨"task_3", "Assemble blueprint",
            "Compose a structured execution blueprint for later execution phases.", ["planning"],
            "Execution blueprint", "medium", 78 / 100⟩]
      executionStages := ["objective_planning", "task_decomposition", "dependency_graph",
        "milestone_planning", "priority_planning", "risk_assessment", "blueprint_assembly"] }

def dependencyBuilder : Stage ExecutionBlueprint where
  stageName := "Dependency Graph"
  apply blueprint :=
    .ok { blueprint with
      dependencyGraph :=
        match blueprint.taskGraph with
        | first :: second :: third :: _ =>
            [⟨first.identifier, second.identifier, "sequential"⟩,
              ⟨second.identifier, third.identifier, "sequential"⟩]
        | [first, second] => [⟨first.identifier, second.identifier, "sequential"⟩]
        | _ => [] }

def milestoneBuilder (cognitiveState : CognitiveState) : Stage ExecutionBlueprint where
  stageName := "Milestone Planning"
  apply blueprint :=
    .ok { blueprint with
      milestones :=
        [{ identifier := "milestone_1"
           objective := objectiveText blueprint cognitiveState
           tasks := blueprint.taskGraph.map PlannedTask.identifier
           completionConditions := ["Blueprint approved", "All task groups identified"]
           expectedOutputs := blueprint.expectedDeliverables }] }

def priorityPlanner : Stage ExecutionBlueprint where
  stageName := "Priority Planning"
  apply blueprint :=
    .ok { blueprint with priorityOrdering := blueprint.taskGraph.map PlannedTask.identifier }

def riskAssessment (L : Lower) (cognitiveState : CognitiveState) : Stage ExecutionBlueprint where
  stageName := "Risk Assessment"
  apply blueprint :=
    let text := L.lower cognitiveState.rawRequest
    match blueprint.executionObjective with
    | none =>
        .error (.attributeError "'NoneType' object has no attribute 'primary_objective'")
    | some objective =>
        let missing : List RiskAssessmentItem :=
          if contains (L.lower (objective.primaryObjective.getD "")) "unknown" then
            [⟨"missing_information", "high", "medium", 8 / 10,
              "Primary objective is not fully known."⟩]
          else []
        let external : List RiskAssessmentItem :=
          if containsAny text ["database", "provider", "streaming", "frontend"] then
            [⟨"external_dependency", "medium", "high", 7 / 10,
              "Request references external integration boundaries."⟩]
          else []
        let complex : List RiskAssessmentItem :=
          if cognitiveState.complexityAssessment.any (·.reasoningComplexity = "high") then
            [⟨"high_complexity", "medium", "medium", 75 / 100,
              "Cognitive assessment indicates high reasoning complexity."⟩]
          else []
        let risks := missing ++ external ++ complex
        .ok { blueprint with
          estimatedRisks :=
            if risks = [] then
              [⟨"unknown", "unknown", "unknown", 4 / 10, "No concrete risk could be inferred."⟩]
            else risks }

def blueprintAssembler (cognitiveState : CognitiveState) : Stage ExecutionBlueprint where
  stageName := "Blueprint Assembly"
  apply blueprint :=
    let floor :=
      match cognitiveState.complexityAssessment with
      | some assessment => assessment.confidence
      | none => 1 / 2
    let confidence := cognitiveState.intentCollection.foldr
      (fun intent least => min intent.confidence least) floor
    .ok { blueprint with
      requiredRuntimeCapabilities := cognitiveState.requiredRuntimeCapabilities
      executionAssumptions := ["Planning artifacts remain request-scoped.",
        "Execution remains delegated to Runtime V1."]
      planningConfidence := roundDigits confidence 2 }

/-! ## PlanningEngine -/

/-- The stages of `PlanningEngine.__init__`. -/
def defaultStages (L : Lower) (cognitiveState : CognitiveState) :
    List (Stage ExecutionBlueprint) :=
  [objectivePlanner cognitiveState, taskDecomposer cognitiveState, dependencyBuilder,
    milestoneBuilder cognitiveState, priorityPlanner, riskAssessment L cognitiveState,
    blueprintAssembler cognitiveState]

/-- `PlanningEngine._summarize_stage`. -/
def summarizeStage (stageName : String) (blueprint : ExecutionBlueprint) : String :=
  if stageName = "Objective Planning" ∧ blueprint.executionObjective.isSome then
    orText (blueprint.executionObjective.bind ExecutionObjective.primaryObjective)
      "Unknown objective"
  else if stageName = "Task Decomposition" then toString blueprint.taskGraph.length ++ " tasks"
  else if stageName = "Dependency Graph" then
    toString blueprint.dependencyGraph.length ++ " dependencies"
  else if stageName = "Milestone Planning" then
    toString blueprint.milestones.length ++ " milestones"
  else if stageName = "Priority Planning" then ", ".intercalate blueprint.priorityOrdering
  else if stageName = "Risk Assessment" then
    ", ".intercalate (blueprint.estimatedRisks.map RiskAssessmentItem.riskType)
  else if stageName = "Blueprint Assembly" then
    "confidence=" ++ hundredthsText blueprint.planningConfidence
  else "Completed."

/-- `current.planning_confidence or 0.5`. -/
def planConfidence (_stageName : String) (blueprint : ExecutionBlueprint) : Except Exn Rat :=
  .ok (if blueprint.planningConfidence = 0 then 1 / 2 else blueprint.planningConfidence)

/-- `PlanningEngine.plan`. -/
def plan (stages : List (Stage ExecutionBlueprint)) : ExecutionBlueprint :=
  let run := runStages summarizeStage planConfidence stages {}
  { run.1 with planningTrace := run.2 }

/-- The last stage copies the capabilities of the cognitive state, whatever came before. -/
theorem plan_capabilities (L : Lower) (cognitiveState : CognitiveState) :
    (plan (defaultStages L cognitiveState)).requiredRuntimeCapabilities =
      cognitiveState.requiredRuntimeCapabilities := by
  have hrun := runStages_fst summarizeStage planConfidence (defaultStages L cognitiveState) {}
    fun _ _ _ => ⟨_, rfl⟩
  have hlast : ∀ blueprint : ExecutionBlueprint,
      ((blueprintAssembler cognitiveState).applied blueprint).requiredRuntimeCapabilities =
        cognitiveState.requiredRuntimeCapabilities := fun _ => rfl
  unfold plan
  dsimp only
  rw [hrun]
  simp only [defaultStages, List.foldl_cons, List.foldl_nil, hlast]

end AgentCorp.Runtime
