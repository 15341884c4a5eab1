/-
  `AgentEngineService.execute_goal`: the loop over the tasks of a goal, and the rows it leaves.

  What the services answer to an action is a parameter (`ActionServices`), one for each
  iteration. An action that raises ends the call before anything is stored about its task.

  * `isGoalAchieved_reflect`: every outcome achieves the goal.
  * `goalLoop_eq`: so the loop acts on the first open task and on no other.
-/
import AgentCorp.Workflow.WorkflowService

namespace AgentCorp.AgentEngine

open AgentCorp.Python AgentCorp.Tools AgentCorp.Executions AgentCorp.Workflows

/-! ## Rows -/

structure Goal where
  organizationId : Int
  agentId : Int
  conversationId : Option Int := none
  objective : String
  successCriteria : Option String := none
  status : String := "PENDING"
  deriving DecidableEq, Repr

structure GoalTask where
  id : Int
  title : String
  description : Option String := none
  status : String := "PENDING"
  executionType : String := "AI"
  deriving DecidableEq, Repr

structure AgentExecution where
  status : ExecutionStatus
  executionContext : Dict Json
  deriving Repr

/-- The task is not completed. -/
def GoalTask.isOpen (task : GoalTask) : Bool :=
  task.status != "COMPLETED"

/-! ## Reasoner, DecisionEngine, ReflectionEngine and Evaluator -/

inductive ActionType where
  | think | searchKnowledge | searchMemory | executeTool | runWorkflow | askUser | respond
  | reflect | finish
  deriving DecidableEq, Repr

def ActionType.value : ActionType → String
  | .think => "THINK"
  | .searchKnowledge => "SEARCH_KNOWLEDGE"
  | .searchMemory => "SEARCH_MEMORY"
  | .executeTool => "EXECUTE_TOOL"
  | .runWorkflow => "RUN_WORKFLOW"
  | .askUser => "ASK_USER"
  | .respond => "RESPOND"
  | .reflect => "REFLECT"
  | .finish => "FINISH"

/-- `Reasoner.reason_state`. -/
def reasonState (objective : String) : String :=
  if contains objective "policy" || contains objective "handbook" then "RAG_REQUIRED"
  else if contains objective "user" || contains objective "preferences" then "MEMORY_REQUIRED"
  else "DEFAULT"

/-- `DecisionEngine.select_action`. -/
def selectAction (reasoning : String) : ActionType :=
  if reasoning = "RAG_REQUIRED" then .searchKnowledge
  else if reasoning = "MEMORY_REQUIRED" then .searchMemory
  else .think

/-- `AgentEngineService._override_action_from_task`. -/
def overrideActionFromTask (L : Lower) (executionType : String) (fallback : ActionType) :
    ActionType :=
  let normalized := L.lower executionType
  if contains normalized "tool" then .executeTool
  else if contains normalized "workflow" then .runWorkflow
  else if contains normalized "rag" || contains normalized "knowledge" then .searchKnowledge
  else if contains normalized "memory" then .searchMemory
  else fallback

/-- The dictionary that `reflect_outcome` returns. -/
structure Reflection where
  success : Bool
  confidence : Rat
  replanningNeeded : Bool
  deriving DecidableEq, Repr

def Reflection.toJson (reflection : Reflection) : Json :=
  .dict [("success", .bool reflection.success), ("confidence", .float reflection.confidence),
    ("replanning_needed", .bool reflection.replanningNeeded)]

/-- `ReflectionEngine.reflect_outcome`: neither the output nor the criteria are looked at. -/
def reflectOutcome (_actionOutput : Json) (_successCriteria : Option String) : Reflection where
  success := true
  confidence := 17 / 20
  replanningNeeded := false

/-- `Evaluator.is_goal_achieved`. -/
def isGoalAchieved (reflection : Reflection) : Bool :=
  reflection.success && decide (4 / 5 < reflection.confidence)

/-- Every outcome achieves the goal. -/
theorem isGoalAchieved_reflect (output : Json) (criteria : Option String) :
    isGoalAchieved (reflectOutcome output criteria) = true := by
  unfold isGoalAchieved reflectOutcome
  norm_num

/-! ## AgentEngineService._execute_action -/

/-- What the action of one iteration meets. `executeWorkflow` gives the identifier and the final
    status of the execution. -/
structure ActionServices where
  retrieveMemories : (organizationId agentId : Int) → (query : String) →
    Except BaseExn (List MemoryHit)
  listKnowledgeBases : (organizationId : Int) → Except Exn (List Chat.KnowledgeBase)
  retrieveContext : (kbId : Int) → (query : String) → Except BaseExn String
  tool : ToolEnv
  toolLatency : Rat
  executeWorkflow : (workflowId organizationId agentId : Int) →
    Except BaseExn (Int × ExecutionStatus)

/-- `AgentEngineService._extract_metadata_value`. -/
def extractMetadataValue (text : Option String) (key : String) : Option String :=
  let marker := (key ++ "=").toList
  let spaced := ((text.getD "").toList.map fun c => if c = '\n' then ' ' else c)
  ((split (String.ofList spaced)).find? fun part => marker.isPrefixOf part.toList).map fun part =>
    String.ofList (stripChars [' ', ',', ';'] (part.toList.drop marker.length))

/-- A string that is there and not empty. -/
def present (text : Option String) : Option String :=
  text.filter (· != "")

/-- `task.description or task.title or goal.objective`. -/
def taskQuery (goal : Goal) (task : GoalTask) : String :=
  (present task.description).getD (if task.title != "" then task.title else goal.objective)

/-- What every output says of its task. -/
def taskOutput (success : Bool) (task : GoalTask) (summary : String) (rest : Dict Json) :
    Dict Json :=
  [("success", .bool success), ("task_id", .int task.id), ("summary", .str summary)] ++ rest

section Action

variable (T : TextTables) (services : ActionServices) (goal : Goal) (task : GoalTask)

def searchMemory : Except BaseExn (Dict Json) := do
  let memories ← services.retrieveMemories goal.organizationId goal.agentId
    (taskQuery goal task)
  return taskOutput true task
    ("Retrieved " ++ toString memories.length ++ " memory item(s).")
    [("memories", .list (memories.map MemoryHit.toJson))]

/-- The context of one knowledge base, if it is not empty. -/
def knowledgeContext (kb : Chat.KnowledgeBase) : Except BaseExn (List Json) := do
  let context ← services.retrieveContext kb.id (taskQuery goal task)
  return if context = "" then [] else
    [.dict [("knowledge_base_id", .int kb.id), ("name", .str kb.name), ("context", .str context)]]

def searchKnowledge : Except BaseExn (Dict Json) := do
  let knowledgeBases ← (services.listKnowledgeBases goal.organizationId).mapError .exception
  let contexts ← knowledgeBases.mapM (knowledgeContext services goal task)
  return taskOutput true task
    ("Retrieved context from " ++ toString contexts.flatten.length ++ " knowledge base(s).")
    [("knowledge_contexts", .list contexts.flatten)]

def executeTool : Except BaseExn (Dict Json) :=
  match present (extractMetadataValue task.description "tool_name") with
  | none => return [("success", .bool false), ("task_id", .int task.id),
      ("placeholder", .bool true),
      ("summary", .str "Tool execution requires task metadata containing tool_name.")]
  | some toolName => do
      let request : ToolCallRequest :=
        { callId := "agent-task-" ++ toString task.id, toolName := toolName, arguments := [] }
      let result ← executeBatch (fun _ => services.tool) [request] goal.organizationId
        goal.agentId (goal.conversationId.getD 0)
      return taskOutput result.allSucceeded task ("Executed tool '" ++ toolName ++ "'.")
        [("tool_results", .list (result.results.map (dumpResult services.toolLatency)))]

def runWorkflow : Except BaseExn (Dict Json) :=
  match present (extractMetadataValue task.description "workflow_id") with
  | none => return [("success", .bool false), ("task_id", .int task.id),
      ("placeholder", .bool true),
      ("summary", .str "Workflow execution requires task metadata containing workflow_id.")]
  | some workflowId => do
      let workflowId ← (intOfText T.toUnicode workflowId).mapError .exception
      let (executionId, status) ← services.executeWorkflow workflowId goal.organizationId
        goal.agentId
      return taskOutput (status = .completed) task
        ("Workflow execution " ++ toString executionId ++ " finished with " ++ status.value ++ ".")
        [("workflow_execution_id", .int executionId)]

/-- `AgentEngineService._execute_action`. -/
def executeAction (action : ActionType) : Except BaseExn (Dict Json) :=
  match action with
  | .searchMemory => searchMemory services goal task
  | .searchKnowledge => searchKnowledge services goal task
  | .executeTool => executeTool services goal task
  | .runWorkflow => runWorkflow T services goal task
  | action => .ok (taskOutput true task
      "Reasoning cycle completed with existing planner/reasoner components."
      [("placeholder", .bool (action = .think))])

end Action

/-! ## AgentEngineService.execute_goal -/

/-- What one call of `execute_goal` meets. -/
structure GoalEnv where
  L : Lower
  T : TextTables
  services : Nat → ActionServices

/-- The rows and the locals of the loop. -/
structure GoalRunState where
  execution : AgentExecution
  tasks : List GoalTask
  goal : Goal
  iteration : Nat
  goalAchieved : Bool

/-- The context that an execution is created with. -/
def initialContext (goal : Goal) (tasks : List GoalTask) : Dict Json :=
  [("iterations", .int 0), ("status", .str "active"), ("objective", .str goal.objective),
    ("plan", .list (tasks.map fun task => .dict [("task_id", .int task.id),
      ("title", .str task.title), ("description", optionalText task.description),
      ("execution_type", .str task.executionType)])),
    ("task_results", .list []), ("reflections", .list []), ("evaluations", .list [])]

/-- The reasoning about a task. -/
def taskReasoning (goal : Goal) (task : GoalTask) : String :=
  reasonState (goal.objective ++ "\n" ++ (present task.description).getD task.title)

/-- The action that is taken for a task. -/
def taskAction (L : Lower) (goal : Goal) (task : GoalTask) : ActionType :=
  overrideActionFromTask L task.executionType (selectAction (taskReasoning goal task))

/-- The outcome of the action that is taken for a task. -/
def actOn (env : GoalEnv) (iteration : Nat) (goal : Goal) (task : GoalTask) :
    Except BaseExn (Dict Json) :=
  executeAction env.T (env.services iteration) goal task (taskAction env.L goal task)

/-- `task_output.get("success", True)`, as a truth value. -/
def taskSucceeded (output : Dict Json) : Bool :=
  (getJsonD output "success" (.bool true)).truthy

/-- The first open task gets this status. -/
def setFirstOpen (status : String) : List GoalTask → List GoalTask
  | [] => []
  | task :: tasks =>
      if task.isOpen then { task with status := status } :: tasks
      else task :: setFirstOpen status tasks

/-- `context.setdefault(key, []).append(value)`. -/
def appendTo (context : Dict Json) (key : String) (value : Json) : Dict Json :=
  match context.lookup key with
  | some (.list items) => context.set key (.list (items ++ [value]))
  | _ => context.set key (.list [value])

/-- The checkpoint after a task. -/
def checkpoint (context : Dict Json) (goal : Goal) (task : GoalTask) (action : ActionType)
    (output : Dict Json) (reflection : Reflection) (goalAchieved : Bool) : Dict Json :=
  let evaluation := Json.dict [("task_id", .int task.id), ("action", .str action.value),
    ("goal_achieved", .bool goalAchieved),
    ("success", getJsonD output "success" (.bool true))]
  let context := appendTo context "task_results" (.dict output)
  let context := appendTo context "reflections" reflection.toJson
  let context := appendTo context "evaluations" evaluation
  let context := context.set "last_reasoning" (.str (taskReasoning goal task))
  let context := context.set "last_action" (.str action.value)
  context.set "status" (.str (if goalAchieved then "completed" else "active"))

/-- The context that the row holds once the checkpoint was committed. The three lists were
    appended to in place, so the column is written if something else differs. -/
def storedCheckpoint (loaded context : Dict Json) : Dict Json :=
  let shared := ["task_results", "reflections", "evaluations"].foldl
    (fun d key => d.set key (getJson context key)) loaded
  if eqJson context shared then loaded else context

/-- The reflection on an output. -/
def reflectOn (env : GoalEnv) (goal : Goal) (output : Dict Json) : Reflection :=
  reflectOutcome (getJsonD output "summary" (.str (String.ofList ((Json.dict output).text env.T))))
    goal.successCriteria

/-- The next iteration is counted. -/
def counted (s : GoalRunState) : GoalRunState :=
  { s with
    iteration := s.iteration + 1
    execution := { s.execution with
      executionContext := s.execution.executionContext.set "iterations"
        (.int (s.iteration + 1 : Nat)) } }

/-- The rows after the commits of an iteration that has acted on a task. -/
def acted (env : GoalEnv) (s : GoalRunState) (task : GoalTask) (output : Dict Json) :
    GoalRunState :=
  let reflection := reflectOn env s.goal output
  let achieved := isGoalAchieved reflection
  { s with
    goalAchieved := achieved
    tasks := setFirstOpen (if taskSucceeded output then "COMPLETED" else "FAILED") s.tasks
    execution := { s.execution with
      executionContext := storedCheckpoint s.execution.executionContext
        (checkpoint s.execution.executionContext s.goal task (taskAction env.L s.goal task) output
          reflection achieved) } }

/-- The loop is left after a failed action that needs no replanning. -/
def leavesLoop (env : GoalEnv) (s : GoalRunState) (output : Dict Json) : Bool :=
  match getJson output "success", (reflectOn env s.goal output).replanningNeeded with
  | .bool false, false => true
  | _, _ => false

/-- The loop, with the iterations that are left. -/
def goalLoop (env : GoalEnv) : Nat → GoalRunState → Except BaseExn GoalRunState
  | 0, s => .ok s
  | remaining + 1, s =>
      if s.goalAchieved then .ok s
      else
        let s := counted s
        match s.tasks.find? (·.isOpen) with
        | none => .ok s
        | some task => do
            let output ← actOn env s.iteration s.goal task
            let next := acted env s task output
            if leavesLoop env s output then return next else goalLoop env remaining next

/-- What comes after the loop. -/
def finishGoal (s : GoalRunState) : GoalRunState :=
  let status : ExecutionStatus :=
    if s.goalAchieved || s.tasks.all fun task => !task.isOpen then .completed else .failed
  { s with
    execution := { s.execution with status := status }
    goal := { s.goal with status := status.value } }

/-- The state in which the loop starts. -/
def startGoal (goal : Goal) (tasks : List GoalTask) : GoalRunState where
  execution := { status := .running, executionContext := initialContext goal tasks }
  tasks := tasks
  goal := goal
  iteration := 0
  goalAchieved := false

/-- `AgentEngineService.execute_goal`. -/
def executeGoal (env : GoalEnv) (goal : Option Goal) (tasks : List GoalTask) :
    Except BaseExn GoalRunState :=
  match goal with
  | none => .error (.exception (.valueError "Goal not found."))
  | some goal => do
      let s ← goalLoop env (max tasks.length 1) (startGoal goal tasks)
      return finishGoal s

/-! ## One action -/

/-- Once the goal is achieved, the loop is over. -/
theorem goalLoop_achieved (env : GoalEnv) (remaining : Nat) {s : GoalRunState}
    (h : s.goalAchieved = true) : goalLoop env remaining s = .ok s := by
  cases remaining with
  | zero => rfl
  | succ remaining => simp only [goalLoop, h, if_true]

/-- Every action achieves the goal. -/
theorem acted_achieved (env : GoalEnv) (s : GoalRunState) (task : GoalTask) (output : Dict Json) :
    (acted env s task output).goalAchieved = true :=
  isGoalAchieved_reflect _ _

/-- The loop acts on the first open task and on no other. -/
theorem goalLoop_eq (env : GoalEnv) (goal : Goal) (tasks : List GoalTask) {task : GoalTask}
    (h : tasks.find? (·.isOpen) = some task) :
    goalLoop env (max tasks.length 1) (startGoal goal tasks) =
      (actOn env 1 goal task).map (acted env (counted (startGoal goal tasks)) task) := by
  obtain ⟨remaining, hremaining⟩ : ∃ remaining, max tasks.length 1 = remaining + 1 :=
    ⟨max tasks.length 1 - 1, by omega⟩
  have hopen : (counted (startGoal goal tasks)).tasks.find? (·.isOpen) = some task := h
  rw [hremaining, goalLoop, if_neg (by simp [startGoal])]
  dsimp only
  rw [hopen]
  show (actOn env 1 goal task >>= _) = _
  cases hact : actOn env 1 goal task with
  | error raised => rfl
  | ok output =>
      show (if _ then _ else _) = Except.ok (acted env (counted (startGoal goal tasks)) task output)
      split
      · rfl
      · exact goalLoop_achieved env remaining (acted_achieved _ _ _ _)

/-- Without an open task, the loop only counts its iteration. -/
theorem goalLoop_closed (env : GoalEnv) (goal : Goal) (tasks : List GoalTask)
    (h : tasks.find? (·.isOpen) = none) :
    goalLoop env (max tasks.length 1) (startGoal goal tasks) =
      .ok (counted (startGoal goal tasks)) := by
  obtain ⟨remaining, hremaining⟩ : ∃ remaining, max tasks.length 1 = remaining + 1 :=
    ⟨max tasks.length 1 - 1, by omega⟩
  have hclosed : (counted (startGoal goal tasks)).tasks.find? (·.isOpen) = none := h
  rw [hremaining, goalLoop, if_neg (by simp [startGoal])]
  dsimp only
  rw [hclosed]

end AgentCorp.AgentEngine
