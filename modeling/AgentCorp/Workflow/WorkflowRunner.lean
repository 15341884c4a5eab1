/-
  `WorkflowService.execute_workflow` as a runner: one commit or read of the row at a time.

  * `workflowRunner_lawful`: the final commit is the last one.
  * `workflowRunner_alone`: with nobody else at the row, the runner does what `execute_workflow`
    does.
-/
import AgentCorp.Workflow.WorkflowService

namespace AgentCorp.Workflows

open AgentCorp.Python AgentCorp.Executions WhileLoop

/-! ## The runner -/

/-- Where `execute_workflow` stands. Its state has the attributes of the execution as they were
    last read or set, and the rows of the steps. -/
inductive WorkflowPc where
  /-- The new execution was committed and is read back. -/
  | created (s : RunState)
  /-- The head of the loop, with a node: it is committed as the current one. -/
  | entering (s : RunState) (node : WorkflowNode)
  /-- That commit is read back. -/
  | entered (s : RunState) (node : WorkflowNode)
  /-- `_execute_node` is called. -/
  | starting (s : RunState) (node : WorkflowNode)
  /-- The step and the merged context are committed. -/
  | recording (s : RunState) (node : WorkflowNode) (record : Recorded)
  /-- The final status is committed. -/
  | finishing (s : RunState) (failed : Bool)
  /-- That commit is read back. -/
  | finished (s : RunState)
  | returned (s : RunState)
  | raised (e : BaseExn)

/-- `refresh(execution)`, as far as other writers change the row. -/
def RunState.refresh (s : RunState) (status : ExecutionStatus) : RunState :=
  { s with execution := { s.execution with status := status } }

/-- The head of the loop. -/
def atHead (s : RunState) : WorkflowPc :=
  match s.current with
  | none => .finishing s false
  | some node => .entering s node

/-- After the commit of a step. -/
def afterStep (env : WorkflowEnv) (workflow : Workflow) (s : RunState) (node : WorkflowNode)
    (record : Recorded) : WorkflowPc :=
  let run := recorded s node record
  if record.step.status = .failed then .finishing run true
  else if node.isType env.L "end" then .finishing run false
  else atHead { run with current := nextNode env.T workflow node record.context }

/-- One step of `execute_workflow` on the stored status. The status is written if it differs from
    the one in memory. -/
def workflowStep (env : WorkflowEnv) (workflow : Workflow) :
    WorkflowPc → ExecutionStatus → Option (WorkflowPc × RunnerEvent)
  | .created s, status => some (atHead (s.refresh status), .idle)
  | .entering s node, _ => some (.entered { s with execution := entered s node } node, .idle)
  | .entered s node, status => some (.starting (s.refresh status) node, .idle)
  | .starting s node, _ =>
      match recordNode env s.executed.length node s.execution with
      | .ok record => some (.recording s node record, .started)
      | .error e => some (.raised e, .started)
  | .recording s node record, _ => some (afterStep env workflow s node record, .idle)
  | .finishing s failed, _ =>
      some (.finished (s.refresh (finalStatus failed)),
        if s.execution.status = finalStatus failed then .idle else .finished (finalStatus failed))
  | .finished s, status => some (.returned (s.refresh status), .idle)
  | .returned _, _ => none
  | .raised _, _ => none

def workflowRunner (env : WorkflowEnv) (workflow : Workflow) : Runner WorkflowPc where
  step := workflowStep env workflow

/-- Nothing is left to do but to return. -/
def WorkflowPc.Done : WorkflowPc → Prop
  | .finished _ => True
  | .returned _ => True
  | _ => False

section Runner

variable {env : WorkflowEnv} {workflow : Workflow}

/-- The final commit is the last one. -/
def workflowRunner_lawful (env : WorkflowEnv) (workflow : Workflow) :
    (workflowRunner env workflow).Lawful where
  Done := WorkflowPc.Done
  finished := by
    intro pc status pc' final h
    cases pc with
    | finishing s failed =>
        obtain ⟨rfl, hevent⟩ := Prod.mk.inj (Option.some.inj h)
        split at hevent
        · cases hevent
        · obtain rfl := RunnerEvent.finished.inj hevent
          refine ⟨trivial, ?_⟩
          cases failed
          · exact .inl rfl
          · exact .inr rfl
    | starting s node =>
        unfold workflowRunner workflowStep at h
        dsimp only at h
        split at h <;> cases h
    | created s => cases h
    | entering s node => cases h
    | entered s node => cases h
    | recording s node record => cases h
    | finished s => cases h
    | returned s => cases h
    | raised e => cases h
  done := by
    intro pc status pc' event hdone h
    cases pc with
    | finished s =>
        obtain ⟨rfl, rfl⟩ := Prod.mk.inj (Option.some.inj h)
        exact ⟨trivial, rfl⟩
    | returned s => cases h
    | created s => exact absurd hdone id
    | entering s node => exact absurd hdone id
    | entered s node => exact absurd hdone id
    | starting s node => exact absurd hdone id
    | recording s node record => exact absurd hdone id
    | finishing s failed => exact absurd hdone id
    | raised e => exact absurd hdone id

/-! ## Nobody else at the row -/

theorem refresh_self {s : RunState} {status : ExecutionStatus} (h : s.execution.status = status) :
    s.refresh status = s := by
  rw [← h]
  rfl

/-- A pass up to the execution of its node. -/
theorem alone_starting {s : RunState} {node : WorkflowNode}
    (hrunning : s.execution.status = .running) (hcurrent : s.current = some node) :
    (workflowRunner env workflow).Alone (atHead s, .running)
      (.starting { s with execution := entered s node } node, .running) := by
  have hhead : atHead s = .entering s node := by
    unfold atHead
    rw [hcurrent]
  have hrefresh : RunState.refresh { s with execution := entered s node } .running =
      { s with execution := entered s node } := refresh_self hrunning
  have hread : (workflowRunner env workflow).step
      (.entered { s with execution := entered s node } node) .running =
        some (.starting { s with execution := entered s node } node, .idle) := by
    unfold workflowRunner workflowStep
    dsimp only
    rw [hrefresh]
  have hcommit : (workflowRunner env workflow).step (.entering s node) .running =
      some (.entered { s with execution := entered s node } node, .idle) := rfl
  rw [hhead]
  exact (Runner.alone_idle hcommit).trans (Runner.alone_idle hread)

/-- A pass up to the commit of its step. -/
theorem alone_recording {s : RunState} {node : WorkflowNode} {record : Recorded}
    (hrunning : s.execution.status = .running) (hcurrent : s.current = some node)
    (hrecord : recordNode env s.executed.length node (entered s node) = .ok record) :
    (workflowRunner env workflow).Alone (atHead s, .running)
      (afterStep env workflow s node record, .running) := by
  refine (alone_starting hrunning hcurrent).trans ?_
  have hstarting : (workflowRunner env workflow).step
      (.starting { s with execution := entered s node } node) .running =
        some (.recording { s with execution := entered s node } node record, .started) := by
    unfold workflowRunner workflowStep
    dsimp only
    rw [hrecord]
  have hcommit : (workflowRunner env workflow).step
      (.recording { s with execution := entered s node } node record) .running =
        some (afterStep env workflow s node record, .idle) := rfl
  exact (Runner.alone_started hstarting).trans (Runner.alone_idle hcommit)

/-- The end of the loop, from the final commit. -/
theorem alone_finishing {s : RunState} (hrunning : s.execution.status = .running)
    (failed : Bool) :
    (workflowRunner env workflow).Alone (.finishing s failed, .running)
      (.returned (s.refresh (finalStatus failed)), finalStatus failed) := by
  have hne : s.execution.status ≠ finalStatus failed := by
    rw [hrunning]
    cases failed <;> decide
  have hfinishing : (workflowRunner env workflow).step (.finishing s failed) .running =
      some (.finished (s.refresh (finalStatus failed)), .finished (finalStatus failed)) := by
    unfold workflowRunner workflowStep
    dsimp only
    rw [if_neg hne]
  have hread : (workflowRunner env workflow).step (.finished (s.refresh (finalStatus failed)))
      (finalStatus failed) = some (.returned (s.refresh (finalStatus failed)), .idle) := rfl
  exact (Runner.alone_finished hfinishing).trans (Runner.alone_idle hread)

/-- A pass of the loop that goes on. -/
theorem alone_next {s t : RunState} (hrunning : s.execution.status = .running)
    (h : loopBody env workflow s = .next t) :
    (workflowRunner env workflow).Alone (atHead s, .running) (atHead t, .running) := by
  obtain ⟨node, record, hcurrent, hrecord, hfailed, rfl⟩ := loopBody_next h
  refine (alone_recording hrunning hcurrent hrecord).trans ?_
  unfold afterStep
  dsimp only
  rw [if_neg hfailed]
  by_cases hend : node.isType env.L "end"
  · rw [if_pos hend, if_pos hend]
    exact .refl
  · rw [if_neg hend, if_neg hend]

/-- The runner reaches every state that the loop reaches. -/
theorem alone_reaches {s : RunState}
    (h : Reaches (loopBody env workflow) (startRun env workflow) s) :
    (workflowRunner env workflow).Alone (.created (startRun env workflow), .running)
      (atHead s, .running) := by
  induction h with
  | refl =>
      have hread : (workflowRunner env workflow).step (.created (startRun env workflow)) .running =
          some (atHead (startRun env workflow), .idle) := rfl
      exact Runner.alone_idle hread
  | @tail s t hreach hstep ih =>
      exact ih.trans (alone_next (Logged.of_reaches hreach).running hstep)

/-- With nobody else at the row, the runner returns what `execute_workflow` returns, and leaves
    its status in the row. -/
theorem workflowRunner_alone (hvalid : validateGraph env.L workflow = .ok ()) {fuel : ℕ}
    {r : RunState} (h : executeWorkflow env (some workflow) fuel = some (.ok r)) :
    (workflowRunner env workflow).Alone (.created (startRun env workflow), .running)
      (.returned r, r.execution.status) := by
  obtain ⟨s, hreach, hreturned | ⟨hnone, rfl⟩⟩ := executeWorkflow_returns hvalid h
  · obtain ⟨node, record, hcurrent, hrecord, hfailed, rfl⟩ := loopBody_returned hreturned
    have hrunning := (Logged.of_reaches hreach).running
    refine (alone_reaches hreach).trans ((alone_recording hrunning hcurrent hrecord).trans ?_)
    unfold afterStep
    dsimp only
    rw [if_pos hfailed]
    exact alone_finishing (s := recorded s node record) hrunning true
  · have hhead : atHead s = .finishing s false := by
      unfold atHead
      rw [hnone]
    refine (alone_reaches hreach).trans ?_
    rw [hhead]
    exact alone_finishing (Logged.of_reaches hreach).running false

end Runner

end AgentCorp.Workflows
