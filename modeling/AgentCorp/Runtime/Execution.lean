/-
  Execution: contexts, runs, the state machine of a run, and the tasks that a blueprint is
  turned into.

  * `transitionTo_of_allowed`: the machine moves along its table.
  * `mem_capabilityTasks`: the tasks of a capability list.
  * `provider_depends`: a provider task that is not first depends on a task of the same list.
  * `graphTasks_eq`: the tasks of a task graph are the planned tasks in `plannedOrder`.
-/
import AgentCorp.Runtime.Planning
import Mathlib.Data.List.Sort

namespace AgentCorp.Runtime

open AgentCorp.Python

structure ExecutionMetadata where
  runtimeVersion : String
  requestId : String
  traceId : String
  executionId : String
  createdAt : String
  deriving DecidableEq, Repr

structure RuntimeLifecycleEntry where
  stageName : String
  startedAt : String
  completedAt : String
  duration : Rat
  status : String
  summary : String
  confidence : Option Rat := none
  requestId : Option String := none
  traceId : Option String := none
  runtimeVersion : Option String := none
  outputSnapshot : Option PyDict := none
  warnings : List String := []
  errors : List String := []
  deriving DecidableEq, Repr

inductive ExecutionState where
  | initialized | ready | running | waiting | completed | failed | cancelled
  deriving DecidableEq, Repr

/-- The value of the enumeration. -/
def ExecutionState.value : ExecutionState → String
  | .initialized => "INITIALIZED"
  | .ready => "READY"
  | .running => "RUNNING"
  | .waiting => "WAITING"
  | .completed => "COMPLETED"
  | .failed => "FAILED"
  | .cancelled => "CANCELLED"

structure ExecutionStateTransition where
  fromState : Option ExecutionState
  toState : ExecutionState
  timestamp : String
  taskId : Option String
  summary : String
  deriving DecidableEq, Repr

structure ExecutionTask where
  taskId : String
  title : String
  description : String
  requiredCapability : String
  currentState : ExecutionState
  dependencies : List String
  priority : Nat
  executionMetadata : PyDict
  deriving DecidableEq, Repr

/-- The timestamps are kept as the readings they format: `fromisoformat` reads them back. -/
structure ExecutionResult where
  taskId : String
  status : ExecutionState
  errors : List String
  startedAt : Instant
  completedAt : Instant
  deriving DecidableEq, Repr

structure ExecutionRun where
  executionId : String
  state : ExecutionState
  tasks : List ExecutionTask
  results : List ExecutionResult
  transitions : List ExecutionStateTransition
  timeline : List RuntimeLifecycleEntry
  deriving DecidableEq, Repr

structure ExecutionContext where
  runtimeVersion : String
  cognitiveState : Option CognitiveState := none
  executionBlueprint : Option ExecutionBlueprint := none
  executionMetadata : Option ExecutionMetadata := none
  runtimeCapabilities : List String := []
  executionState : Option String := none
  executionTrace : List RuntimeLifecycleEntry := []
  deriving DecidableEq, Repr

/-- `create_execution_context`. The request, trace and execution identifiers are fresh uuids. -/
def createExecutionContext (runtimeVersion requestId traceId executionId : String)
    (now : Instant) : ExecutionContext where
  runtimeVersion := runtimeVersion
  executionMetadata := some ⟨runtimeVersion, requestId, traceId, executionId, now.isoformat⟩
  executionState := some ExecutionState.initialized.value

def buildLifecycleEntry (stageName : String) (startedAt completedAt : Instant)
    (status summary : String) : RuntimeLifecycleEntry where
  stageName := stageName
  startedAt := startedAt.isoformat
  completedAt := completedAt.isoformat
  duration := (completedAt.micros - startedAt.micros : Int) / 1000000
  status := status
  summary := summary

/-! ## ExecutionStateMachine -/

/-- `ExecutionStateMachine._allowed_transitions`. -/
def allowedTransitions : ExecutionState → List ExecutionState
  | .initialized => [.ready, .cancelled, .failed]
  | .ready => [.running, .cancelled, .failed]
  | .running => [.waiting, .completed, .failed, .cancelled]
  | .waiting => [.running, .failed, .cancelled]
  | .completed => []
  | .failed => []
  | .cancelled => []

def Allowed (s t : ExecutionState) : Prop :=
  t ∈ allowedTransitions s

instance : DecidableRel Allowed :=
  fun s t => inferInstanceAs (Decidable (t ∈ allowedTransitions s))

structure ExecutionStateMachine where
  currentState : ExecutionState
  transitions : List ExecutionStateTransition
  deriving DecidableEq, Repr

/-- `ExecutionStateMachine.__init__`. -/
def ExecutionStateMachine.start (now : Instant) (initialState : ExecutionState) :
    ExecutionStateMachine where
  currentState := initialState
  transitions := [⟨none, initialState, now.isoformat, none, "Execution initialized."⟩]

def ExecutionStateMachine.transitionTo (machine : ExecutionStateMachine) (now : Instant)
    (state : ExecutionState) (taskId : Option String) (summary : String) :
    Except Exn ExecutionStateMachine :=
  if state ∈ allowedTransitions machine.currentState then
    .ok { currentState := state
          transitions := machine.transitions ++
            [⟨some machine.currentState, state, now.isoformat, taskId, summary⟩] }
  else .error (.valueError ("Invalid execution state transition: " ++
    machine.currentState.value ++ " -> " ++ state.value))

/-! ## build_execution_tasks -/

/-- `priorities.get(task_id, default)`, where `priorities` maps each identifier of the
    ordering to its last index. -/
def priorityOf (priorityOrdering : List String) (taskId : String) (default : Nat) : Nat :=
  (priorityOrdering.zipIdx.reverse.lookup taskId).getD default

def capabilityId (number : Nat) : String :=
  "capability_" ++ toString number

/-- The task of one required capability. -/
def capabilityTask (L : Lower) (blueprint : ExecutionBlueprint) (capabilityName : String)
    (index : Nat) : ExecutionTask where
  taskId := capabilityId (index + 1)
  title := "Execute " ++ capabilityName ++ " capability"
  description := "Invoke the " ++ capabilityName ++ " runtime executor."
  requiredCapability := L.lower capabilityName
  currentState := .ready
  dependencies := if 0 < index then [capabilityId index] else []
  priority := priorityOf blueprint.priorityOrdering (capabilityId (index + 1)) index
  executionMetadata :=
    [("capability_name", .str capabilityName), ("source", .str "required_runtime_capabilities")]

/-- The task appended when no required capability is the provider. -/
def providerTask (blueprint : ExecutionBlueprint) (count : Nat) : ExecutionTask where
  taskId := "capability_provider"
  title := "Execute Provider capability"
  description := "Invoke the provider runtime executor."
  requiredCapability := "provider"
  currentState := .ready
  dependencies := [capabilityId count]
  priority := priorityOf blueprint.priorityOrdering "capability_provider" count
  executionMetadata := [("capability_name", .str "Provider"), ("source", .str "final_response")]

/-- The branch of `build_execution_tasks` for required capabilities. -/
def capabilityTasks (L : Lower) (blueprint : ExecutionBlueprint) : List ExecutionTask :=
  let names := blueprint.requiredRuntimeCapabilities
  let tasks := names.zipIdx.map fun (name, index) => capabilityTask L blueprint name index
  if tasks.any (·.requiredCapability = "provider") then tasks
  else tasks ++ [providerTask blueprint names.length]

/-- `required_capabilities[0] if required_capabilities else "runtime_v1"`. -/
def PlannedTask.capability (plannedTask : PlannedTask) : String :=
  plannedTask.requiredCapabilities.headD "runtime_v1"

/-- The sources of the edges into one task. -/
def dependenciesOf (blueprint : ExecutionBlueprint) (identifier : String) : List String :=
  (blueprint.dependencyGraph.filter (·.target = identifier)).map DependencyEdge.source

/-- The priority of the planned task at one index. -/
def plannedPriority (blueprint : ExecutionBlueprint) (entry : PlannedTask × Nat) : Nat :=
  priorityOf blueprint.priorityOrdering entry.1.identifier entry.2

/-- The task of one planned task. -/
def graphTask (blueprint : ExecutionBlueprint) (entry : PlannedTask × Nat) : ExecutionTask where
  taskId := entry.1.identifier
  title := entry.1.title
  description := entry.1.description
  requiredCapability := entry.1.capability
  currentState := .ready
  dependencies := dependenciesOf blueprint entry.1.identifier
  priority := plannedPriority blueprint entry
  executionMetadata :=
    [("expected_output", .str entry.1.expectedOutput),
      ("estimated_complexity", .str entry.1.estimatedComplexity),
      ("estimated_confidence", .other (hundredthsText entry.1.estimatedConfidence)
        (entry.1.estimatedConfidence ≠ 0))]

/-- The branch of `build_execution_tasks` for a task graph: sorted by priority, stably. -/
def graphTasks (blueprint : ExecutionBlueprint) : List ExecutionTask :=
  (blueprint.taskGraph.zipIdx.map (graphTask blueprint)).insertionSort
    fun a b => a.priority ≤ b.priority

def buildExecutionTasks (L : Lower) (blueprint : ExecutionBlueprint) : List ExecutionTask :=
  if blueprint.requiredRuntimeCapabilities ≠ [] then capabilityTasks L blueprint
  else graphTasks blueprint

theorem transitionTo_of_allowed {current state : ExecutionState} (h : Allowed current state)
    (transitions : List ExecutionStateTransition) (now : Instant) (taskId : Option String)
    (summary : String) :
    ExecutionStateMachine.transitionTo ⟨current, transitions⟩ now state taskId summary =
      .ok ⟨state, transitions ++ [⟨some current, state, now.isoformat, taskId, summary⟩]⟩ :=
  if_pos h

/-! ## The tasks of a capability list -/

section Capabilities

variable (L : Lower) (blueprint : ExecutionBlueprint)

theorem capabilityId_injective : Function.Injective capabilityId := by
  intro m n h
  have hlist := congrArg String.toList h
  simp only [capabilityId, String.toList_append, List.append_cancel_left_eq] at hlist
  exact toString_nat_inj hlist

/-- The task at one index of the capability list. -/
theorem capabilityTask_mem {name : String} {index : Nat}
    (h : blueprint.requiredRuntimeCapabilities[index]? = some name) :
    capabilityTask L blueprint name index ∈ capabilityTasks L blueprint := by
  have hmem : capabilityTask L blueprint name index ∈
      blueprint.requiredRuntimeCapabilities.zipIdx.map fun (name, index) =>
        capabilityTask L blueprint name index :=
    List.mem_map.mpr ⟨(name, index), List.mem_zipIdx_iff_getElem?.mpr h, rfl⟩
  simp only [capabilityTasks]
  split
  · exact hmem
  · exact List.mem_append_left _ hmem

/-- A task is that of one index, or the appended provider task. -/
theorem mem_capabilityTasks {task : ExecutionTask} (h : task ∈ capabilityTasks L blueprint) :
    (∃ name index, blueprint.requiredRuntimeCapabilities[index]? = some name ∧
      task = capabilityTask L blueprint name index) ∨
    task = providerTask blueprint blueprint.requiredRuntimeCapabilities.length := by
  have hmap : ∀ t ∈ blueprint.requiredRuntimeCapabilities.zipIdx.map
      (fun (name, index) => capabilityTask L blueprint name index),
      ∃ name index, blueprint.requiredRuntimeCapabilities[index]? = some name ∧
        t = capabilityTask L blueprint name index := by
    intro t ht
    obtain ⟨⟨name, index⟩, hentry, rfl⟩ := List.mem_map.mp ht
    exact ⟨name, index, List.mem_zipIdx_iff_getElem?.mp hentry, rfl⟩
  simp only [capabilityTasks] at h
  split at h
  · exact Or.inl (hmap task h)
  · rcases List.mem_append.mp h with h | h
    · exact Or.inl (hmap task h)
    · exact Or.inr (List.mem_singleton.mp h)

/-- Every task of a run starts READY. -/
theorem mem_buildExecutionTasks_ready {task : ExecutionTask}
    (h : task ∈ buildExecutionTasks L blueprint) : task.currentState = .ready := by
  unfold buildExecutionTasks at h
  split at h
  · rcases mem_capabilityTasks L blueprint h with ⟨_, _, _, rfl⟩ | rfl <;> rfl
  · obtain ⟨_, _, rfl⟩ := List.mem_map.mp ((List.mem_insertionSort _).mp h)
    rfl

/-- A provider task always exists. -/
theorem exists_provider : ∃ task ∈ capabilityTasks L blueprint,
    task.requiredCapability = "provider" := by
  simp only [capabilityTasks]
  split
  · next h =>
      obtain ⟨task, hmem, hcap⟩ := List.any_eq_true.mp h
      exact ⟨task, hmem, of_decide_eq_true hcap⟩
  · exact ⟨_, List.mem_append_right _ (List.mem_singleton_self _), rfl⟩

/-- A provider task other than the first capability depends on a task of the same run. -/
theorem provider_depends {name : String} {rest : List String}
    (hcaps : blueprint.requiredRuntimeCapabilities = name :: rest)
    (hfirst : L.lower name ≠ "provider") {task : ExecutionTask}
    (hmem : task ∈ capabilityTasks L blueprint) (hcap : task.requiredCapability = "provider") :
    ∃ earlier ∈ capabilityTasks L blueprint, earlier.taskId ∈ task.dependencies := by
  -- The task before index `n + 1`, whether that index is in the list or one past its end.
  have hearlier : ∀ n < blueprint.requiredRuntimeCapabilities.length,
      ∃ earlier ∈ capabilityTasks L blueprint, earlier.taskId = capabilityId (n + 1) := by
    intro n hn
    exact ⟨_, capabilityTask_mem L blueprint (List.getElem?_eq_getElem hn), rfl⟩
  rcases mem_capabilityTasks L blueprint hmem with ⟨name', index, hget, rfl⟩ | rfl
  · cases index with
    | zero =>
        rw [hcaps, List.getElem?_cons_zero, Option.some.injEq] at hget
        exact absurd (hget ▸ hcap) hfirst
    | succ n =>
        obtain ⟨hlt, -⟩ := List.getElem?_eq_some_iff.mp hget
        obtain ⟨earlier, hin, hid⟩ := hearlier n (by omega)
        exact ⟨earlier, hin, by simp [capabilityTask, hid]⟩
  · obtain ⟨earlier, hin, hid⟩ := hearlier rest.length (by simp [hcaps])
    exact ⟨earlier, hin, by simp [providerTask, hcaps, hid]⟩

end Capabilities

/-! ## The tasks of a task graph -/

/-- The planned tasks with their indices, by priority. -/
def plannedOrder (blueprint : ExecutionBlueprint) : List (PlannedTask × Nat) :=
  blueprint.taskGraph.zipIdx.insertionSort
    fun a b => plannedPriority blueprint a ≤ plannedPriority blueprint b

theorem graphTasks_eq (blueprint : ExecutionBlueprint) :
    graphTasks blueprint = (plannedOrder blueprint).map (graphTask blueprint) := by
  unfold graphTasks plannedOrder
  symm
  apply List.map_insertionSort
  intro a _ b _
  rfl

theorem mem_plannedOrder {blueprint : ExecutionBlueprint} {planned : PlannedTask} :
    (∃ index, (planned, index) ∈ plannedOrder blueprint) ↔ planned ∈ blueprint.taskGraph := by
  simp only [plannedOrder, List.mem_insertionSort, List.mem_zipIdx_iff_getElem?]
  exact List.mem_iff_getElem?.symm

end AgentCorp.Runtime
