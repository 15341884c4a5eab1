/-
  The rows of a workflow execution explain it.

  `Replay` walks the graph with nothing but the recorded steps: it takes each output from its row,
  and no service is asked. What the nodes did is in their outputs, so the walk visits the nodes
  of the execution in the same order, ends where it ended and comes to the context it stored.

  * `recordNode_outcome`: the row of a step has what was merged for it.
  * `replayed_invariant`: the walk keeps up with the loop.
  * `executeWorkflow_replay`: the rows of an execution that returned, replayed.
-/
import AgentCorp.Workflow.Termination

namespace AgentCorp.Workflows

open AgentCorp.Python AgentCorp.Executions WhileLoop

/-! ## Replaying -/

/-- What the row of a step says that its node came to. -/
def WorkflowStep.outcome (step : WorkflowStep) : Dict Json :=
  match step.errorMessage with
  | none => step.outputData
  | some text => [("success", .bool false), ("error", .str text)]

/-- Where a walk through the rows stands. -/
structure Replay where
  visited : List Int
  context : Dict Json
  current : Option WorkflowNode

namespace Replay

/-- The start node, and the context that an execution begins with. -/
def start (L : Lower) (workflow : Workflow) : Replay where
  visited := []
  context := [("variables", .dict [("status", .str "pending")])]
  current := startNode L workflow

/-- One row: the current node had this outcome. -/
def next (L : Lower) (T : TextTables) (workflow : Workflow) (p : Replay) (step : WorkflowStep) :
    Replay :=
  match p.current with
  | none => p
  | some node =>
      let merged := mergeExecutionContext p.context node step.outcome
      { visited := p.visited ++ [node.id]
        context := storedContext p.context merged
        current :=
          if step.status = .failed || node.isType L "end" then none
          else nextNode T workflow node merged }

/-- All rows. -/
def ofSteps (L : Lower) (T : TextTables) (workflow : Workflow) (steps : List WorkflowStep) :
    Replay :=
  steps.foldl (next L T workflow) (start L workflow)

theorem ofSteps_concat (L : Lower) (T : TextTables) (workflow : Workflow)
    (steps : List WorkflowStep) (step : WorkflowStep) :
    ofSteps L T workflow (steps ++ [step]) =
      (ofSteps L T workflow steps).next L T workflow step := by
  unfold ofSteps
  rw [List.foldl_concat]

theorem next_of_current {L : Lower} {T : TextTables} {workflow : Workflow} {p : Replay}
    {node : WorkflowNode} (h : p.current = some node) (step : WorkflowStep) :
    p.next L T workflow step =
      { visited := p.visited ++ [node.id]
        context := storedContext p.context (mergeExecutionContext p.context node step.outcome)
        current :=
          if step.status = .failed || node.isType L "end" then none
          else nextNode T workflow node (mergeExecutionContext p.context node step.outcome) } := by
  unfold next
  rw [h]

end Replay

/-! ## One pass -/

section Run

variable {env : WorkflowEnv} {workflow : Workflow}

/-- The row of a step has what was merged for it, and a step is failed exactly if its row has an
    error. -/
theorem recordNode_outcome {index : Nat} {node : WorkflowNode} {execution : WorkflowExecution}
    {record : Recorded} (h : recordNode env index node execution = .ok record) :
    record.context = mergeExecutionContext execution.executionContext node record.step.outcome ∧
      (record.step.status = .failed ↔ record.step.errorMessage.isSome) := by
  unfold recordNode at h
  dsimp only at h
  split at h
  · obtain rfl := Except.ok.inj h
    exact ⟨rfl, iff_of_false (by simp) (by simp)⟩
  · obtain rfl := Except.ok.inj h
    exact ⟨rfl, iff_of_true rfl rfl⟩
  · cases h

/-- The walk through the rows of a run stands where the run does. -/
def Replayed (env : WorkflowEnv) (workflow : Workflow) (s : RunState) : Prop :=
  let p := Replay.ofSteps env.L env.T workflow s.steps
  p.visited = s.steps.map (·.nodeId) ∧ p.context = s.execution.executionContext ∧
    p.current = s.current ∧ ∀ step ∈ s.steps, step.errorMessage = none

/-- A pass adds one row, and the walk one node. -/
theorem replay_recorded {s : RunState} (hs : Replayed env workflow s) {node : WorkflowNode}
    {record : Recorded} (hcurrent : s.current = some node)
    (hrecord : recordNode env s.executed.length node (entered s node) = .ok record) :
    Replay.ofSteps env.L env.T workflow (recorded s node record).steps =
      { visited := (recorded s node record).steps.map (·.nodeId)
        context := (recorded s node record).execution.executionContext
        current :=
          if record.step.status = .failed || node.isType env.L "end" then none
          else nextNode env.T workflow node record.context } := by
  obtain ⟨hvisited, hcontext, hcur, -⟩ := hs
  obtain ⟨hmerged, -⟩ := recordNode_outcome hrecord
  have hloaded : (entered s node).executionContext = s.execution.executionContext := rfl
  rw [hloaded] at hmerged
  have hsteps : (recorded s node record).steps = s.steps ++ [record.step] := rfl
  have hstored : (recorded s node record).execution.executionContext =
      storedContext s.execution.executionContext record.context := rfl
  rw [hsteps, hstored, Replay.ofSteps_concat, Replay.next_of_current (hcur.trans hcurrent),
    hvisited, hcontext, ← hmerged, List.map_append, List.map_singleton,
    recordNode_nodeId hrecord]

/-- **The walk keeps up with the loop.** -/
theorem replayed_invariant : Invariant (loopBody env workflow) (Replayed env workflow) := by
  intro s t hs hstep
  obtain ⟨node, record, hcurrent, hrecord, hfailed, rfl⟩ := loopBody_next hstep
  have hreplay := replay_recorded hs hcurrent hrecord
  obtain ⟨-, herror⟩ := recordNode_outcome hrecord
  unfold Replayed
  dsimp only
  rw [hreplay]
  refine ⟨rfl, rfl, ?_, ?_⟩
  · dsimp only
    by_cases hend : node.isType env.L "end" <;> simp [hfailed, hend]
  · intro step hmem
    rcases List.mem_append.mp hmem with hold | hlast
    · exact hs.2.2.2 step hold
    · rw [List.mem_singleton.mp hlast]
      simpa using mt herror.mpr hfailed

theorem replayed_start (env : WorkflowEnv) (workflow : Workflow) :
    Replayed env workflow (startRun env workflow) :=
  ⟨rfl, rfl, rfl, fun _ hmem => absurd hmem List.not_mem_nil⟩

/-- **Replay.** Whatever its nodes did, the rows of an execution that returned lead a walk through
    the graph over the nodes that were executed, in order, to the context that is stored, and
    nothing is left to execute. The execution is failed exactly if the last row has an error. -/
theorem executeWorkflow_replay (hvalid : validateGraph env.L workflow = .ok ()) {fuel : ℕ}
    {r : RunState} (h : executeWorkflow env (some workflow) fuel = some (.ok r)) :
    let p := Replay.ofSteps env.L env.T workflow r.steps
    p.visited = r.steps.map (·.nodeId) ∧ p.context = r.execution.executionContext ∧
      p.current = none ∧
      (r.execution.status = .failed ↔ ∃ step, r.steps.getLast? = some step ∧
        step.errorMessage.isSome) := by
  obtain ⟨s, hreach, hfailed | ⟨hnone, rfl⟩⟩ := executeWorkflow_returns hvalid h
  · have hs := replayed_invariant.of_reaches (replayed_start env workflow) hreach
    obtain ⟨node, record, hcurrent, hrecord, hstatus, rfl⟩ := loopBody_returned hfailed
    have hreplay := replay_recorded hs hcurrent hrecord
    obtain ⟨-, herror⟩ := recordNode_outcome hrecord
    dsimp only
    rw [hreplay]
    refine ⟨rfl, rfl, ?_, iff_of_true rfl ⟨record.step, ?_, herror.mp hstatus⟩⟩
    · dsimp only
      rw [hstatus]
      simp
    · show (s.steps ++ [record.step]).getLast? = _
      rw [List.getLast?_concat]
  · obtain ⟨hvisited, hcontext, hcurrent, hcompleted⟩ :=
      replayed_invariant.of_reaches (replayed_start env workflow) hreach
    refine ⟨hvisited, hcontext, hcurrent.trans hnone, iff_of_false (by simp) ?_⟩
    rintro ⟨step, hlast, herror⟩
    rw [hcompleted step (List.mem_of_getLast? hlast)] at herror
    cases herror

end Run

theorem executeWorkflow_replay_linear :
    ∃ r, executeWorkflow quietEnv (some linearWorkflow) 3 = some (.ok r) ∧
      let p := Replay.ofSteps quietEnv.L quietEnv.T linearWorkflow r.steps
      p.visited = r.steps.map (·.nodeId) ∧ p.context = r.execution.executionContext ∧
        p.current = none ∧
        (r.execution.status = .failed ↔ ∃ step, r.steps.getLast? = some step ∧
          step.errorMessage.isSome) := by
  obtain ⟨r, hrun⟩ : ∃ r, executeWorkflow quietEnv (some linearWorkflow) 3 = some (.ok r) :=
    ⟨_, rfl⟩
  exact ⟨r, hrun, executeWorkflow_replay rfl hrun⟩

end AgentCorp.Workflows
