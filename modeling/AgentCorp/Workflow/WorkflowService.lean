/-
  `WorkflowService.execute_workflow`: the loop over the nodes, and the rows it leaves.

  The loop is a `WhileLoop` whose state is the row of the execution, the rows of its steps and
  the current node. Each pass starts with the row as it was read back after the last commit. The
  context that a transition looks at is the one in memory, and the row has it only if the JSON
  column was written (`storedContext`).

  * `loopBody_next`, `loopBody_returned`: what a pass that goes on, or that fails, has done.
  * `Logged.of_reaches`: what holds of every state that the loop reaches.
  * `executeWorkflow_returns`: how an execution that returns has ended.
-/
import AgentCorp.Lib.WhileLoop
import AgentCorp.Workflow.NodeExecution

namespace AgentCorp.Workflows

open AgentCorp.Python AgentCorp.Executions WhileLoop

/-! ## The context of an execution -/

/-- `dict(value or {})`, for a dictionary or `None`. -/
def asDict : Json → Dict Json
  | .dict entries => entries
  | _ => []

/-- The entry of `node_history` for an output. -/
def historyEntry (node : WorkflowNode) (output : Dict Json) : Json :=
  .dict [("node_id", .int node.id), ("node_name", .str node.name),
    ("node_type", .str node.nodeType), ("output", .dict output)]

/-- The variables with an output merged in. -/
def mergeVariables (vars : Dict Json) (node : WorkflowNode) (output : Dict Json) : Dict Json :=
  let status := if (getJson output "success").truthy then "completed" else "failed"
  (vars.set "status" (.str status)).set node.name (.dict output)

/-- `updated.setdefault("node_history", []).append(entry)`. No other code writes that key, so it
    holds a list if it is there. -/
def appendHistory (context : Dict Json) (entry : Json) : Dict Json :=
  match context.lookup "node_history" with
  | some (.list items) => context.set "node_history" (.list (items ++ [entry]))
  | _ => context.set "node_history" (.list [entry])

/-- `WorkflowService._merge_execution_context`. -/
def mergeExecutionContext (context : Dict Json) (node : WorkflowNode) (output : Dict Json) :
    Dict Json :=
  let vars := mergeVariables (asDict (getJson context "variables")) node output
  appendHistory (context.set "variables" (.dict vars)) (historyEntry node output)

/-- The context that the row holds once the merged one was committed. A history that was there
    was appended to in place, so it makes no difference between the two; the column is written
    if something else does. -/
def storedContext (loaded merged : Dict Json) : Dict Json :=
  let shared :=
    match loaded.lookup "node_history" with
    | some _ => loaded.set "node_history" (getJson merged "node_history")
    | none => loaded
  if eqJson merged shared then loaded else merged

/-! ## One node -/

structure WorkflowStep where
  nodeId : Int
  status : ExecutionStatus
  inputData : Dict Json
  outputData : Dict Json
  retries : Nat
  errorMessage : Option String
  deriving Repr

/-- What the execution of a node leaves: its step and the merged context. -/
structure Recorded where
  step : WorkflowStep
  context : Dict Json

/-- What one execution of `execute_workflow` meets: the services of each attempt of each node
    execution, in order, and its arguments. -/
structure WorkflowEnv where
  L : Lower
  T : TextTables
  services : Nat → Nat → NodeServices
  executionId : Int
  organizationId : Int
  agentId : Int

/-- The execution of the current node and the record of it. -/
def recordNode (env : WorkflowEnv) (index : Nat) (node : WorkflowNode)
    (execution : WorkflowExecution) : Except BaseExn Recorded :=
  let inputData := node.configuration.getD []
  match executeNode env.L env.T (env.services index) env.organizationId env.agentId node
      execution with
  | .ok (output, retries) => .ok {
      step := { nodeId := node.id, status := .completed, inputData := inputData
                outputData := output, retries := retries, errorMessage := none }
      context := mergeExecutionContext execution.executionContext node output }
  | .error (.exception exc) => .ok {
      step := { nodeId := node.id, status := .failed, inputData := inputData
                outputData := [], retries := 0, errorMessage := some exc.text }
      context := mergeExecutionContext execution.executionContext node
        [("success", .bool false), ("error", .str exc.text)] }
  | .error raised => .error raised

/-! ## The loop -/

/-- The rows, the current node and the nodes that were executed, in order. -/
structure RunState where
  execution : WorkflowExecution
  steps : List WorkflowStep
  current : Option WorkflowNode
  executed : List WorkflowNode

/-- How the loop is left other than at its head. -/
inductive Exit where
  | returned (run : RunState)
  | raised (e : BaseExn)

/-- The row as a pass finds it, with its node as the current one. -/
def entered (s : RunState) (node : WorkflowNode) : WorkflowExecution :=
  { s.execution with currentNodeId := some node.id }

/-- The rows after the commit of a step. -/
def recorded (s : RunState) (node : WorkflowNode) (record : Recorded) : RunState where
  execution := { entered s node with
    executionContext := storedContext s.execution.executionContext record.context }
  steps := s.steps ++ [record.step]
  current := none
  executed := s.executed ++ [node]

/-- One pass of `while current_node`. -/
def loopBody (env : WorkflowEnv) (workflow : Workflow) (s : RunState) : Iter RunState Exit :=
  match s.current with
  | none => .stop
  | some node =>
      match recordNode env s.executed.length node (entered s node) with
      | .error e => .throw (.raised e)
      | .ok record =>
          let run := recorded s node record
          if record.step.status = .failed then
            .throw (.returned { run with execution := { run.execution with status := .failed } })
          else if node.isType env.L "end" then .next run
          else .next { run with current := nextNode env.T workflow node record.context }

/-- The row that `execute_workflow` creates, and the start node. -/
def startRun (env : WorkflowEnv) (workflow : Workflow) : RunState where
  execution := {
    id := env.executionId
    status := .running
    executionContext := [("variables", .dict [("status", .str "pending")])] }
  steps := []
  current := startNode env.L workflow
  executed := []

/-- What comes after the loop. -/
def finishRun : Except Exit RunState → Except BaseExn RunState
  | .ok s => .ok { s with execution := { s.execution with status := .completed } }
  | .error (.returned s) => .ok s
  | .error (.raised e) => .error e

/-- `WorkflowService.execute_workflow`, for at most `fuel` passes of its loop. `none` is out of
    fuel. -/
def executeWorkflow (env : WorkflowEnv) (workflow : Option Workflow) (fuel : Nat) :
    Option (Except BaseExn RunState) :=
  match workflow with
  | none => some (.error (.exception (.valueError "Workflow not found.")))
  | some workflow =>
      match validateGraph env.L workflow with
      | .error exc => some (.error (.exception exc))
      | .ok () => (run (loopBody env workflow) fuel (startRun env workflow)).map finishRun

section Loop

variable {env : WorkflowEnv} {workflow : Workflow}

/-! ## One pass -/

/-- A pass that goes on has executed the current node without failure. -/
theorem loopBody_next {s t : RunState} (h : loopBody env workflow s = .next t) :
    ∃ node record, s.current = some node ∧
      recordNode env s.executed.length node (entered s node) = .ok record ∧
      record.step.status ≠ .failed ∧
      t = { recorded s node record with
        current := if node.isType env.L "end" then none
          else nextNode env.T workflow node record.context } := by
  unfold loopBody at h
  split at h
  · cases h
  · next node hcurrent =>
      split at h
      · cases h
      · next record hrecord =>
          refine ⟨node, record, hcurrent, hrecord, ?_⟩
          split at h
          · cases h
          · next hfailed =>
              refine ⟨hfailed, ?_⟩
              split at h
              · next hend => rw [← Iter.next.inj h, if_pos hend]; rfl
              · next hend => rw [← Iter.next.inj h, if_neg hend]

/-- A pass that returns has executed the current node, which failed. -/
theorem loopBody_returned {s r : RunState}
    (h : loopBody env workflow s = .throw (.returned r)) :
    ∃ node record, s.current = some node ∧
      recordNode env s.executed.length node (entered s node) = .ok record ∧
      record.step.status = .failed ∧
      r = { recorded s node record with
        execution := { (recorded s node record).execution with status := .failed } } := by
  unfold loopBody at h
  split at h
  · cases h
  · next node hcurrent =>
      split at h
      · next e _ => cases h
      · next record hrecord =>
          refine ⟨node, record, hcurrent, hrecord, ?_⟩
          split at h
          · next hfailed => exact ⟨hfailed, (Exit.returned.inj (Iter.throw.inj h)).symm⟩
          · split at h <;> cases h

/-- The loop stops when there is no current node. -/
theorem loopBody_stop {s : RunState} : loopBody env workflow s = .stop ↔ s.current = none := by
  unfold loopBody
  cases s.current with
  | none => simp
  | some node =>
      dsimp only
      split
      · simp
      · split
        · simp
        · split <;> simp

/-! ## Runs -/

/-- What holds whenever a pass starts: the execution is running, one step is recorded for each
    executed node, and the nodes are nodes of the graph. -/
structure Logged (workflow : Workflow) (s : RunState) : Prop where
  running : s.execution.status = .running
  steps : s.steps.map (·.nodeId) = s.executed.map (·.id)
  nodes : ∀ node ∈ s.executed ++ s.current.toList, node ∈ workflow.nodes

theorem logged_start (env : WorkflowEnv) (workflow : Workflow) :
    Logged workflow (startRun env workflow) where
  running := rfl
  steps := rfl
  nodes := by
    intro node hnode
    have hstart : startNode env.L workflow = some node := by simpa [startRun] using hnode
    exact List.mem_of_find?_eq_some hstart

theorem recordNode_nodeId {index : Nat} {node : WorkflowNode} {execution : WorkflowExecution}
    {record : Recorded} (h : recordNode env index node execution = .ok record) :
    record.step.nodeId = node.id := by
  unfold recordNode at h
  dsimp only at h
  split at h
  · rw [← Except.ok.inj h]
  · rw [← Except.ok.inj h]
  · cases h

theorem logged_invariant : Invariant (loopBody env workflow) (Logged workflow) := by
  intro s t hs hstep
  obtain ⟨node, record, hcurrent, hrecord, -, rfl⟩ := loopBody_next hstep
  have hnode : node ∈ workflow.nodes := hs.nodes node (by simp [hcurrent])
  refine ⟨hs.running, ?_, ?_⟩
  · show (s.steps ++ [record.step]).map (·.nodeId) = (s.executed ++ [node]).map (·.id)
    rw [List.map_append, List.map_append, hs.steps, List.map_singleton, List.map_singleton,
      recordNode_nodeId hrecord]
  · intro next hnext
    rcases List.mem_append.mp hnext with hexecuted | hnew
    · rcases List.mem_append.mp hexecuted with hold | hlast
      · exact hs.nodes next (List.mem_append_left _ hold)
      · rw [List.mem_singleton.mp hlast]
        exact hnode
    · dsimp only at hnew
      split at hnew
      · cases hnew
      · exact (nextNode_mem (Option.mem_toList.mp hnew)).1

/-- Every state that the loop reaches is logged. -/
theorem Logged.of_reaches {s : RunState}
    (h : Reaches (loopBody env workflow) (startRun env workflow) s) : Logged workflow s :=
  logged_invariant.of_reaches (logged_start env workflow) h

/-! ## Ends -/

/-- An accepted graph is executed. -/
theorem executeWorkflow_valid (hvalid : validateGraph env.L workflow = .ok ()) (fuel : Nat) :
    executeWorkflow env (some workflow) fuel =
      (run (loopBody env workflow) fuel (startRun env workflow)).map finishRun := by
  unfold executeWorkflow
  dsimp only
  rw [hvalid]

/-- An execution returns after a pass whose node failed, or when there is no current node. -/
theorem executeWorkflow_returns {fuel : Nat} {r : RunState}
    (hvalid : validateGraph env.L workflow = .ok ())
    (h : executeWorkflow env (some workflow) fuel = some (.ok r)) :
    ∃ s, Reaches (loopBody env workflow) (startRun env workflow) s ∧
      (loopBody env workflow s = .throw (.returned r) ∨
        (s.current = none ∧
          r = { s with execution := { s.execution with status := .completed } })) := by
  rw [executeWorkflow_valid hvalid] at h
  obtain ⟨ended, hrun, hfinish⟩ := Option.map_eq_some_iff.mp h
  cases ended with
  | ok s =>
      obtain ⟨hreach, hstop⟩ := run_ok hrun
      exact ⟨s, hreach, .inr ⟨loopBody_stop.mp hstop, (Except.ok.inj hfinish).symm⟩⟩
  | error exit =>
      obtain ⟨s, hreach, hthrow⟩ := run_error hrun
      cases exit with
      | returned r' =>
          obtain rfl := Except.ok.inj hfinish
          exact ⟨s, hreach, .inl hthrow⟩
      | raised e => cases hfinish

end Loop

end AgentCorp.Workflows
