/-
  Adaptive planning: when a blueprint is revised after an execution, and how.

  A revision keeps the confident tasks of the blueprint, inserts one of its own, and writes what
  it took out and why into the blueprint's history. Without a reason for a revision the report
  only says so.
-/
import AgentCorp.Runtime.Learning

namespace AgentCorp.Runtime

open AgentCorp.Python

/-! ## Blueprints with a history -/

/-- What `blueprint_history` keeps of a blueprint that was revised. -/
structure BlueprintRevision where
  revisionNumber : Nat
  taskIds : List String
  planningConfidence : Rat
  planningRationale : Option String
  deriving DecidableEq, Repr

/-- An execution blueprint with the fields that a revision writes. `planningVersion` is a field
    of the planning metadata, and `none` where there is no metadata. -/
structure RevisedBlueprint extends ExecutionBlueprint where
  planningVersion : Option String
  revisionNumber : Nat := 0
  blueprintHistory : List BlueprintRevision := []
  supersededTasks : List String := []
  insertedTasks : List String := []
  removedTasks : List String := []
  planningRationale : Option String := none
  deriving DecidableEq, Repr

/-- A blueprint as `PlanningEngine.plan` returns it. -/
def RevisedBlueprint.ofPlan (blueprint : ExecutionBlueprint) : RevisedBlueprint :=
  { blueprint with planningVersion := some "1.0" }

structure PlanDiff where
  addedTasks : List PlannedTask
  removedTasks : List PlannedTask
  reorderedTasks : List String
  rationale : String
  deriving DecidableEq, Repr

structure AdaptivePlanningReport where
  previousBlueprint : RevisedBlueprint
  revisedBlueprint : RevisedBlueprint
  planDiff : PlanDiff
  replanningRequired : Bool
  replanningReason : String
  revisionNumber : Nat
  planningConfidence : Rat
  deriving DecidableEq, Repr

/-! ## ReplanningPolicy -/

/-- The reasons for a revision. `goalStatus` is the status of the goal, where it has one. -/
def replanningReasons (reflection : ReflectionReport) (evaluation : EvaluationReport)
    (learning : LearningReport) (goalStatus : Option String) : List String :=
  textIf (reflection.weaknesses.any (· ≠ "")) "reflection_signals_degradation" ++
  textIf (reflection.missingInformation ≠ []) "missing_information" ++
  textIf (!evaluation.success || evaluation.qualityScore < 7 / 10) "evaluation_below_threshold" ++
  textIf (learning.confidence < 65 / 100) "learning_confidence_degraded" ++
  textIf (goalStatus.any (· ≠ "COMPLETED")) "goal_incomplete"

/-- The confidence of the plan after an execution. -/
def replanningConfidence (reflection : ReflectionReport) (evaluation : EvaluationReport)
    (learning : LearningReport) : Rat :=
  roundDigits (max 0 (min (99 / 100)
    ((evaluation.confidence + reflection.confidence + learning.confidence) / 3))) 2

/-- The reasons, joined. -/
def replanningReason (reasons : List String) : String :=
  if reasons = [] then "no_replanning_needed" else ", ".intercalate reasons.eraseDups

/-! ## AdaptivePlanningEngine -/

/-- A task that a revision keeps. -/
def preserved (task : PlannedTask) : Bool :=
  75 / 100 ≤ task.estimatedConfidence && task.identifier ∉ ["task_2", "task_3"]

def adaptiveTask : PlannedTask where
  identifier := "adaptive_1"
  title := "Adaptive follow-up 1"
  description := "Inserted to resolve execution drift or missing information."
  requiredCapabilities := ["planning"]
  expectedOutput := "Revised execution step"
  estimatedComplexity := "medium"
  estimatedConfidence := 72 / 100

/-- `_revision_blueprint`: without metadata the blueprint stays as it is. -/
def revisionBlueprint (blueprint : RevisedBlueprint) (revisionNumber : Nat) (rationale : String) :
    RevisedBlueprint :=
  match blueprint.planningVersion with
  | none => blueprint
  | some _ =>
      { blueprint with
        planningVersion := some (toString revisionNumber)
        planningTrace := blueprint.planningTrace ++
          [⟨"Adaptive Planning", "SKIPPED", rationale, 0, []⟩] }

/-- The blueprint after a revision. -/
def replannedBlueprint (previous : RevisedBlueprint) (reason : String) (confidence : Rat) :
    RevisedBlueprint :=
  let revision := if previous.revisionNumber = 0 then 1 else previous.revisionNumber
  let revisedTasks := previous.taskGraph.filter preserved ++ [adaptiveTask]
  let removed := (previous.taskGraph.filter fun task =>
    task ∉ previous.taskGraph.filter preserved).map PlannedTask.identifier
  { previous with
    taskGraph := revisedTasks
    planningConfidence := confidence
    revisionNumber := revision + 1
    insertedTasks := [adaptiveTask.identifier]
    removedTasks := removed
    supersededTasks := removed
    planningRationale := some reason
    blueprintHistory := previous.blueprintHistory ++
      [{ revisionNumber := previous.revisionNumber
         taskIds := previous.taskGraph.map PlannedTask.identifier
         planningConfidence := previous.planningConfidence
         planningRationale := previous.planningRationale }]
    planningVersion := previous.planningVersion.map fun _ => toString (revision + 1)
    planningTrace := previous.planningTrace ++
      [⟨"Adaptive Planning", "COMPLETED", reason, confidence, []⟩] }

/-- `AdaptivePlanningEngine.revise_blueprint`. -/
def reviseBlueprint (goalStatus : Option String) (previous : RevisedBlueprint)
    (reflection : ReflectionReport) (evaluation : EvaluationReport) (learning : LearningReport) :
    AdaptivePlanningReport :=
  let reasons := replanningReasons reflection evaluation learning goalStatus
  let reason := replanningReason reasons
  let confidence := replanningConfidence reflection evaluation learning
  if reasons = [] then
    { previousBlueprint := previous
      revisedBlueprint := revisionBlueprint previous 0 reason
      planDiff := ⟨[], [], [], reason⟩
      replanningRequired := false
      replanningReason := reason
      revisionNumber := 0
      planningConfidence := confidence }
  else
    let revised := replannedBlueprint previous reason confidence
    { previousBlueprint := previous
      revisedBlueprint := revised
      planDiff :=
        { addedTasks := [adaptiveTask]
          removedTasks := previous.taskGraph.filter fun task =>
            task ∉ previous.taskGraph.filter preserved
          reorderedTasks := revised.taskGraph.map PlannedTask.identifier
          rationale := reason }
      replanningRequired := true
      replanningReason := reason
      revisionNumber := revised.revisionNumber
      planningConfidence := confidence }

end AgentCorp.Runtime
