/-
  Goals: the report the goal layer hands to the autonomous loop, how it is made of a request or
  of a stored goal, and how it is updated.
-/
import AgentCorp.Python.Text
import AgentCorp.Python.Values

namespace AgentCorp.Runtime

open AgentCorp.Python

inductive GoalLifecycleState where
  | created | analyzed | planned | ready | active | blocked | completed | failed | cancelled
  deriving DecidableEq, Repr

inductive GoalPriority where
  | low | medium | high | urgent
  deriving DecidableEq, Repr

structure GoalLink where
  goalId : Int
  relation : String
  deriving DecidableEq, Repr

structure GoalMilestone where
  title : String
  description : Option String
  achieved : Bool
  achievedAt : Option String := none
  deriving DecidableEq, Repr

structure GoalReport where
  goalId : Option Int
  title : String
  description : Option String
  objective : String
  ownerId : Option Int
  organizationId : Option Int
  priority : GoalPriority
  status : GoalLifecycleState
  dependencies : List GoalLink
  parentGoalId : Option Int
  childGoalIds : List Int
  milestones : List GoalMilestone
  createdAt : String
  updatedAt : String
  completedAt : Option String
  metadata : PyDict
  deriving DecidableEq, Repr

/-! ## GoalEngine -/

section Engine

variable (clock : Clock)

def createGoal (title objective : String) (ownerId organizationId : Int)
    (description : Option String) (priority : GoalPriority) (parentGoalId : Option Int)
    (dependencies : List GoalLink) (metadata : PyDict) : GoalReport :=
  let now := (clock 0).isoformat
  { goalId := none
    title
    description
    objective
    ownerId := some ownerId
    organizationId := some organizationId
    priority
    status := .created
    dependencies
    parentGoalId
    childGoalIds := []
    milestones := []
    createdAt := now
    updatedAt := now
    completedAt := none
    metadata }

/-- The statuses at which `update_goal` sets `completed_at`. -/
def GoalLifecycleState.closed (status : GoalLifecycleState) : Prop :=
  status ∈ [.completed, .cancelled, .failed]

instance (status : GoalLifecycleState) : Decidable status.closed :=
  inferInstanceAs (Decidable (_ ∈ _))

/-- `GoalEngine.update_goal`. Empty milestones leave those of the goal. -/
def updateGoal (goal : GoalReport) (status : Option GoalLifecycleState)
    (priority : Option GoalPriority) (milestones : Option (List GoalMilestone))
    (metadata : PyDict) : GoalReport :=
  let updatedAt := (clock 0).isoformat
  { goal with
    priority := priority.getD goal.priority
    status := status.getD goal.status
    milestones := if milestones.getD [] = [] then goal.milestones else milestones.getD []
    updatedAt
    completedAt := if ∃ given ∈ status, given.closed then some updatedAt else goal.completedAt
    metadata := goal.metadata.merge metadata }

def closeGoal (goal : GoalReport) (completed : Bool) : GoalReport :=
  updateGoal clock goal (some (if completed then .completed else .failed)) none none []

def cancelGoal (goal : GoalReport) : GoalReport :=
  updateGoal clock goal (some .cancelled) none none []

def trackMilestone (goal : GoalReport) (milestone : GoalMilestone) : GoalReport :=
  updateGoal clock goal none none (some (goal.milestones ++ [milestone])) []

end Engine

/-! ## Stored goals -/

/-- A row of `agent_goals`, as far as `from_db` reads it. -/
structure Goal where
  id : Int
  title : String
  description : Option String
  objective : String
  createdBy : Int
  organizationId : Int
  priority : String
  status : String
  createdAt : Option Instant
  updatedAt : Option Instant
  successCriteria : Option String
  constraints : PyValue
  deriving DecidableEq, Repr

/-- `_priority_from_string`. -/
def priorityFromString (L : Lower) (value : String) : GoalPriority :=
  match L.lower value with
  | "urgent" => .urgent
  | "high" => .high
  | "low" => .low
  | _ => .medium

/-- `_status_from_string`. -/
def statusFromString (U : Upper) (value : String) : GoalLifecycleState :=
  match U.upper value with
  | "ANALYZED" => .analyzed
  | "PLANNED" => .planned
  | "READY" => .ready
  | "ACTIVE" => .active
  | "BLOCKED" => .blocked
  | "COMPLETED" => .completed
  | "FAILED" => .failed
  | "CANCELLED" => .cancelled
  | _ => .created

/-- The texts at which `from_db` sets `completed_at`. -/
def closedTexts : List String :=
  ["COMPLETED", "CANCELLED", "FAILED"]

/-- `GoalEngine.from_db`. The status is normalised, but compared as it is for `completed_at`. -/
def fromDb (U : Upper) (L : Lower) (clock : Clock) (goal : Goal) (childGoalIds : List Int)
    (dependencyIds : List Int) : GoalReport :=
  let now := (goal.updatedAt.getD (clock 0)).isoformat
  { goalId := some goal.id
    title := goal.title
    description := goal.description
    objective := goal.objective
    ownerId := some goal.createdBy
    organizationId := some goal.organizationId
    priority := priorityFromString L goal.priority
    status := statusFromString U goal.status
    dependencies := dependencyIds.map fun id => ⟨id, "dependency"⟩
    parentGoalId := none
    childGoalIds
    milestones := []
    createdAt := (goal.createdAt.map Instant.isoformat).getD now
    updatedAt := now
    completedAt :=
      if goal.status ∈ closedTexts then goal.updatedAt.map Instant.isoformat else none
    metadata :=
      [("success_criteria", (goal.successCriteria.map PyValue.str).getD .none),
        ("constraints", if goal.constraints.truthy then goal.constraints else .other "{}" false)] }

end AgentCorp.Runtime
