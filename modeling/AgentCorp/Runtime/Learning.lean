/-
  Reflection, evaluation and learning: what the V2 runtime makes of a finished execution.

  Each engine is a function of the execution and of the reports of the engines before it. Their
  scores are exact rationals where the source has floats. What they come to for the execution
  that the runtime analyses is in `Analysis`.
-/
import AgentCorp.Runtime.Runtimes

namespace AgentCorp.Runtime

open AgentCorp.Python

variable {ρ : Type}

/-- The fields of an `ExecutionResult` that the analysis reads. `requiredCapability` is an entry
    of its metadata. -/
structure AnalyzedResult (ρ : Type) where
  taskId : String
  status : ExecutionState
  outputs : Dict (Reply ρ)
  errors : List String
  duration : Rat
  requiredCapability : Option String

/-- A text, where there is one that is not empty. -/
def textIf (condition : Bool) (text : String) : List String :=
  if condition then [text] else []

/-- `f"{x:.2f}"` of a non-negative float that has at most two decimals. -/
def twoDecimals (x : Rat) : String :=
  let hundredths := ⌊x * 100⌋.toNat
  toString (hundredths / 100) ++ "." ++ toString (hundredths / 10 % 10) ++
    toString (hundredths % 10)

/-! ## ReflectionEngine -/

structure ReflectionObservation where
  category : String
  summary : String
  detail : Option String := none
  deriving DecidableEq, Repr

structure ReflectionReport where
  executionSummary : String
  observations : List ReflectionObservation
  strengths : List String
  weaknesses : List String
  missingInformation : List String
  improvementOpportunities : List String
  warnings : List String
  confidence : Rat
  deriving DecidableEq, Repr

/-- `_score_confidence` of the reflection. -/
def reflectionConfidence (result : AnalyzedResult ρ) (trace : List RuntimeLifecycleEntry) : Rat :=
  let score : Rat := 1 / 2 +
    (if result.status = .completed then 2 / 10 else 0) +
    (if result.errors = [] then 1 / 10 else 0) +
    (if trace ≠ [] then 1 / 10 else 0) +
    (if 0 < result.duration then 1 / 10 else 0)
  roundDigits (min score (99 / 100)) 2

/-- `_build_summary` of the reflection. -/
def reflectionSummary (result : AnalyzedResult ρ) (trace : List RuntimeLifecycleEntry) : String :=
  result.taskId ++ " finished with " ++ result.status.value ++ ". " ++
    match trace.getLast? with
    | some entry => entry.summary
    | none => "No execution trace was available."

/-- `ReflectionEngine.reflect`. -/
def reflect (context : ExecutionContext) (result : AnalyzedResult ρ)
    (trace : List RuntimeLifecycleEntry) : ReflectionReport :=
  let untimed := decide (result.duration ≤ 0)
  let separable := (context.executionBlueprint.map fun blueprint =>
    decide (1 < blueprint.requiredRuntimeCapabilities.length)).getD false
  let capability := (result.requiredCapability.filter (· ≠ "")).map fun name =>
    ({ category := "capability_usage"
       summary := "Used capability " ++ name ++ "." } : ReflectionObservation)
  let observed := trace.getLast?.map fun entry =>
    ({ category := "trace"
       summary := "Observed " ++ toString trace.length ++ " lifecycle entries."
       detail := some entry.stageName } : ReflectionObservation)
  { executionSummary := reflectionSummary result trace
    observations := capability.toList ++ observed.toList
    strengths := textIf (result.status = .completed) "Execution completed successfully."
    weaknesses :=
      textIf (result.status ≠ .completed)
        ("Execution finished with status " ++ result.status.value ++ ".") ++ result.errors
    missingInformation :=
      textIf capability.isNone "Required capability metadata was absent." ++
      textIf observed.isNone "No execution trace entries were provided." ++
      textIf context.executionBlueprint.isNone
        "Execution blueprint was not attached to the context."
    improvementOpportunities :=
      (textIf untimed "Capture more precise execution timing." ++
        textIf separable
          "Separate capability work from final-response capability selection.").eraseDups
    warnings :=
      (result.errors ++ textIf untimed "Execution duration was non-positive.").eraseDups
    confidence := reflectionConfidence result trace }

/-! ## EvaluationEngine -/

structure EvaluationReport where
  success : Bool
  confidence : Rat
  completenessScore : Rat
  consistencyScore : Rat
  efficiencyScore : Rat
  qualityScore : Rat
  capabilityUtilization : List String
  evaluationSummary : String
  deriving DecidableEq, Repr

/-- `_completeness_score`. -/
def completenessScore (context : ExecutionContext) (result : AnalyzedResult ρ)
    (reflection : ReflectionReport) : Rat :=
  let score : Rat := 4 / 10 +
    (if context.executionBlueprint.isSome then 2 / 10 else 0) +
    (if result.outputs.length ≠ 0 then 2 / 10 else 0) +
    (if reflection.observations ≠ [] then 2 / 10 else 0)
  roundDigits (min score 1) 2

/-- `_consistency_score`. -/
def consistencyScore (result : AnalyzedResult ρ) (reflection : ReflectionReport) : Rat :=
  let score : Rat := 1 / 2 +
    (if result.status = .completed ∧ reflection.weaknesses = [] then 3 / 10 else 0) -
    (if reflection.warnings ≠ [] then 1 / 10 else 0)
  roundDigits (max (min score 1) 0) 2

/-- `_efficiency_score`. -/
def efficiencyScore (result : AnalyzedResult ρ) : Rat :=
  if result.duration ≤ 0 then 2 / 10
  else if result.duration < 1 then 9 / 10
  else if result.duration < 5 then 75 / 100
  else 6 / 10

/-- `EvaluationEngine.evaluate`. -/
def evaluate (context : ExecutionContext) (result : AnalyzedResult ρ)
    (reflection : ReflectionReport) : EvaluationReport :=
  let completeness := completenessScore context result reflection
  let consistency := consistencyScore result reflection
  let efficiency := efficiencyScore result
  let quality := roundDigits ((completeness + consistency + efficiency) / 3) 2
  let success := decide (result.status = .completed ∧ 6 / 10 ≤ quality)
  { success := success
    confidence := roundDigits (min (99 / 100) ((reflection.confidence + quality) / 2)) 2
    completenessScore := completeness
    consistencyScore := consistency
    efficiencyScore := efficiency
    qualityScore := quality
    capabilityUtilization := (result.requiredCapability.filter (· ≠ "")).toList
    evaluationSummary := "Evaluation " ++ (if success then "successful" else "needs review") ++
      " with quality " ++ twoDecimals quality ++ ". " ++ reflection.executionSummary }

/-! ## LearningEngine -/

inductive LearningDecision where
  | persist | ignore | merge | update | defer
  deriving DecidableEq, Repr

structure LearningArtifact where
  category : String
  title : String
  summary : String
  confidence : Rat
  deriving DecidableEq, Repr

structure LearningReport where
  reusableObservations : List LearningArtifact
  reusablePreferences : List LearningArtifact
  reusableExecutionPatterns : List LearningArtifact
  reusableCapabilityPatterns : List LearningArtifact
  reusableWorkflowPatterns : List LearningArtifact
  confidence : Rat
  learningPriority : Nat
  persistenceRecommendation : LearningDecision
  executionId : Option String
  summary : String
  deriving DecidableEq, Repr

/-- `_extract_observations`. -/
def extractObservations (reflection : ReflectionReport) : List LearningArtifact :=
  (reflection.observations.map fun observation =>
    ⟨"observation", observation.category, observation.summary, reflection.confidence⟩) ++
  reflection.strengths.map fun strength =>
    ⟨"observation", "strength", strength, reflection.confidence⟩

/-- A preference that some words of the request show. -/
def preferenceOf (text : String) (words : List String) (title summary : String)
    (confidence : Rat) : List LearningArtifact :=
  if containsAny text words then [⟨"preference", title, summary, confidence⟩] else []

/-- `_extract_preferences`, of the text of the original request. -/
def extractPreferences (L : Lower) (requestText : String) (evaluation : EvaluationReport) :
    List LearningArtifact :=
  let text := L.lower requestText
  preferenceOf text ["concise", "brief", "short"] "communication" "Prefers concise responses."
      evaluation.confidence ++
    preferenceOf text ["bullet", "list", "structured"] "formatting"
      "Prefers structured formatting." evaluation.confidence ++
    preferenceOf text ["english", "spanish", "french"] "language"
      "Language preference detected from request." evaluation.confidence ++
    preferenceOf text ["workflow", "tool"] "workflow" "Workflow-oriented request."
      evaluation.confidence

/-- `_extract_execution_patterns`. -/
def extractExecutionPatterns (reflection : ReflectionReport) (evaluation : EvaluationReport)
    (trace : List RuntimeLifecycleEntry) : List LearningArtifact :=
  (if trace = [] then []
    else [⟨"execution_pattern", "lifecycle_sequence",
      " -> ".intercalate ((trace.drop (trace.length - 4)).map RuntimeLifecycleEntry.stageName),
      min reflection.confidence evaluation.confidence⟩]) ++
  if evaluation.success then
    [⟨"execution_pattern", "successful_execution",
      "Completed execution with a successful evaluation.", evaluation.confidence⟩]
  else []

/-- `_extract_capability_patterns`. -/
def extractCapabilityPatterns (context : ExecutionContext) (evaluation : EvaluationReport) :
    List LearningArtifact :=
  let several := (context.executionBlueprint.map fun blueprint =>
    decide (1 < blueprint.requiredRuntimeCapabilities.length)).getD false
  (evaluation.capabilityUtilization.map fun capability =>
    ⟨"capability_pattern", capability, "Capability " ++ capability ++ " was used successfully.",
      evaluation.confidence⟩) ++
  if several then
    [⟨"capability_pattern", "multi_capability_request",
      "Request required more than one runtime capability.", evaluation.confidence⟩]
  else []

/-- `_extract_workflow_patterns`. -/
def extractWorkflowPatterns (context : ExecutionContext) (trace : List RuntimeLifecycleEntry) :
    List LearningArtifact :=
  match context.executionBlueprint with
  | none => []
  | some blueprint =>
      [⟨"workflow_pattern", "planning_sequence",
          if blueprint.executionStages = [] then "No staged workflow was present."
          else " -> ".intercalate blueprint.executionStages, 1 / 2⟩,
        ⟨"workflow_pattern", "trace_depth", toString trace.length ++ " trace entries captured.",
          1 / 2⟩]

/-- `_score_confidence` of what was learned. -/
def learningConfidence (reflection : ReflectionReport) (evaluation : EvaluationReport)
    (observations preferences : List LearningArtifact) : Rat :=
  let score :=
    (reflection.confidence + evaluation.confidence + evaluation.qualityScore) / 3 +
    (if observations ≠ [] then 5 / 100 else 0) + (if preferences ≠ [] then 5 / 100 else 0)
  roundDigits (min score (99 / 100)) 2

/-- `_recommend_persistence`. -/
def recommendPersistence (confidence : Rat) (preferences executionPatterns capabilityPatterns
    workflowPatterns : List LearningArtifact) : LearningDecision :=
  if 85 / 100 ≤ confidence ∧ (preferences ≠ [] ∨ executionPatterns ≠ []) then .persist
  else if 72 / 100 ≤ confidence ∧ capabilityPatterns ≠ [] then .merge
  else if 6 / 10 ≤ confidence ∧ workflowPatterns ≠ [] then .update
  else if 1 / 2 ≤ confidence then .defer
  else .ignore

/-- `_priority_from_scores`. -/
def priorityFromScores (confidence quality : Rat) : Nat :=
  if 85 / 100 ≤ confidence ∨ 85 / 100 ≤ quality then 3 else if 7 / 10 ≤ confidence then 2 else 1

/-- `LearningEngine.learn`. -/
def learn (L : Lower) (requestText : String) (context : ExecutionContext)
    (reflection : ReflectionReport) (evaluation : EvaluationReport)
    (trace : List RuntimeLifecycleEntry) : LearningReport :=
  let observations := extractObservations reflection
  let preferences := extractPreferences L requestText evaluation
  let executionPatterns := extractExecutionPatterns reflection evaluation trace
  let capabilityPatterns := extractCapabilityPatterns context evaluation
  let workflowPatterns := extractWorkflowPatterns context trace
  let confidence := learningConfidence reflection evaluation observations preferences
  { reusableObservations := observations
    reusablePreferences := preferences
    reusableExecutionPatterns := executionPatterns
    reusableCapabilityPatterns := capabilityPatterns
    reusableWorkflowPatterns := workflowPatterns
    confidence := confidence
    learningPriority := priorityFromScores confidence evaluation.qualityScore
    persistenceRecommendation := recommendPersistence confidence preferences executionPatterns
      capabilityPatterns workflowPatterns
    executionId := context.executionMetadata.map ExecutionMetadata.executionId
    summary := "Learned " ++ toString observations.length ++ " observations, " ++
      toString preferences.length ++ " preferences, and " ++
      toString executionPatterns.length ++ " execution patterns." }

/-! ## LearningPolicy -/

structure LearningPolicyDecision where
  decision : LearningDecision
  reason : String
  persistMemory : Bool
  memoryType : Option String := none
  importanceScore : Rat := 0
  deriving DecidableEq, Repr

/-- `LearningPolicy.decide`. -/
def decideLearning (report : LearningReport) : LearningPolicyDecision :=
  if report.confidence < 45 / 100 then
    { decision := .ignore, reason := "Confidence too low for persistence.", persistMemory := false }
  else
    match report.persistenceRecommendation with
    | .defer =>
        { decision := .defer
          reason := "Analysis is useful but should be deferred."
          persistMemory := false }
    | .update =>
        ⟨.update, "Existing experience should be updated.", true, some "semantic",
          report.confidence⟩
    | .merge =>
        ⟨.merge, "Artifacts should be merged with existing experience.", true, some "semantic",
          report.confidence⟩
    | .persist =>
        ⟨.persist, "Analysis is strong enough to persist.", true, some "episodic",
          report.confidence⟩
    | .ignore =>
        { decision := .ignore
          reason := "No reusable experience identified."
          persistMemory := false }

end AgentCorp.Runtime
