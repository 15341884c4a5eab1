/-
  What it means that a workflow execution is completed.

  The loop is left when an end node was executed, but also when no edge can be taken or the edge
  that is taken leads nowhere. A step is recorded as completed whatever its output reports.

  * `completed_unsound`: an execution that is left at a start node, and one whose tool node
    reports a failure, are both completed.
  * `executeWorkflow_sound_iff`: completion is sound exactly if a node raised, or every node
    that was executed reports success and has a node after it unless it is an end node.
-/
import AgentCorp.Workflow.Termination

namespace AgentCorp.Workflows

open AgentCorp.Python AgentCorp.Executions WhileLoop

/-- The output reports success. -/
def succeeded (output : Dict Json) : Bool :=
  (getJson output "success").truthy

/-- A completed execution has last executed an end node, and each of its steps is completed and
    reports success. -/
def CompletionSound (L : Lower) (r : RunState) : Prop :=
  r.execution.status = .completed →
    (∃ node, r.executed.getLast? = some node ∧ node.isType L "end") ∧
      ∀ step ∈ r.steps, step.status = .completed ∧ succeeded step.outputData

section Sound

variable {env : WorkflowEnv} {workflow : Workflow}

/-- The node that a pass executes raises. -/
def NodeRaises (env : WorkflowEnv) (s : RunState) : Prop :=
  ∃ node exc, s.current = some node ∧
    executeNode env.L env.T (env.services s.executed.length) env.organizationId env.agentId node
      (entered s node) = .error (.exception exc)

/-- The node that a pass executes reports success, and has a node after it unless it is an end
    node. -/
def PassSound (env : WorkflowEnv) (workflow : Workflow) (s : RunState) : Prop :=
  ∀ node output retries, s.current = some node →
    executeNode env.L env.T (env.services s.executed.length) env.organizationId env.agentId node
      (entered s node) = .ok (output, retries) →
    succeeded output ∧ (node.isType env.L "end" ∨
      (nextNode env.T workflow node
        (mergeExecutionContext s.execution.executionContext node output)).isSome)

/-! ## One pass -/

theorem recordNode_failed {index : Nat} {node : WorkflowNode} {execution : WorkflowExecution}
    {record : Recorded} (h : recordNode env index node execution = .ok record)
    (hfailed : record.step.status = .failed) :
    ∃ exc, executeNode env.L env.T (env.services index) env.organizationId env.agentId node
      execution = .error (.exception exc) := by
  unfold recordNode at h
  dsimp only at h
  split at h
  · rw [← Except.ok.inj h] at hfailed
    cases hfailed
  · next exc herror => exact ⟨exc, herror⟩
  · cases h

/-- A step that did not fail is completed, whatever the output reports. -/
theorem recordNode_completed {index : Nat} {node : WorkflowNode} {execution : WorkflowExecution}
    {record : Recorded} (h : recordNode env index node execution = .ok record)
    (hfailed : record.step.status ≠ .failed) :
    ∃ output retries,
      executeNode env.L env.T (env.services index) env.organizationId env.agentId node
        execution = .ok (output, retries) ∧
      record.step.status = .completed ∧ record.step.outputData = output ∧
      record.context = mergeExecutionContext execution.executionContext node output := by
  unfold recordNode at h
  dsimp only at h
  split at h
  · next output retries hok =>
      rw [← Except.ok.inj h]
      exact ⟨output, retries, hok, rfl, rfl, rfl⟩
  · rw [← Except.ok.inj h] at hfailed
    exact absurd rfl hfailed
  · cases h

/-- A pass that goes on, by the output of its node. -/
theorem loopBody_output {s t : RunState} (h : Steps (loopBody env workflow) s t) :
    ∃ node output retries step, s.current = some node ∧
      executeNode env.L env.T (env.services s.executed.length) env.organizationId env.agentId node
        (entered s node) = .ok (output, retries) ∧
      step.status = .completed ∧ step.outputData = output ∧
      t.steps = s.steps ++ [step] ∧ t.executed = s.executed ++ [node] ∧
      t.current = if node.isType env.L "end" then none
        else nextNode env.T workflow node
          (mergeExecutionContext s.execution.executionContext node output) := by
  obtain ⟨node, record, hcurrent, hrecord, hfailed, rfl⟩ := loopBody_next h
  obtain ⟨output, retries, hok, hstatus, houtput, hcontext⟩ :=
    recordNode_completed hrecord hfailed
  refine ⟨node, output, retries, record.step, hcurrent, hok, hstatus, houtput, rfl, rfl, ?_⟩
  dsimp only
  rw [hcontext]
  rfl

/-- Nothing comes after a pass without a node. -/
theorem not_steps_of_none {s : RunState} (h : s.current = none) (t : RunState) :
    ¬ Steps (loopBody env workflow) s t := by
  intro hstep
  rw [Steps, loopBody_stop.mpr h] at hstep
  cases hstep

/-- Nothing comes after a pass whose node raises. -/
theorem NodeRaises.not_steps {s : RunState} (h : NodeRaises env s) (t : RunState) :
    ¬ Steps (loopBody env workflow) s t := by
  intro hstep
  obtain ⟨node, exc, hcurrent, hexc⟩ := h
  obtain ⟨node', output, retries, -, hcurrent', hok, -⟩ := loopBody_output hstep
  obtain rfl : node = node' := Option.some.inj (hcurrent.symm.trans hcurrent')
  cases hexc.symm.trans hok

/-- Steps are never taken back. -/
theorem steps_of_reaches {s t : RunState} (h : Reaches (loopBody env workflow) s t) :
    s.steps <+: t.steps := by
  induction h with
  | refl => exact List.prefix_rfl
  | tail _ hstep ih =>
      obtain ⟨-, -, -, step, -, -, -, -, hsteps, -, -⟩ := loopBody_output hstep
      exact ih.trans (hsteps ▸ List.prefix_append _ _)

/-! ## Runs -/

/-- After sound passes, every step reports success, and an end node is last if nothing is left to
    execute. -/
theorem sound_of_passes (hvalid : validateGraph env.L workflow = .ok ())
    (hsound : ∀ s, Reaches (loopBody env workflow) (startRun env workflow) s →
      PassSound env workflow s) {s : RunState}
    (h : Reaches (loopBody env workflow) (startRun env workflow) s) :
    (∀ step ∈ s.steps, step.status = .completed ∧ succeeded step.outputData) ∧
      (s.current = none →
        ∃ node, s.executed.getLast? = some node ∧ node.isType env.L "end") := by
  induction h with
  | refl =>
      refine ⟨fun step hstep => absurd hstep List.not_mem_nil, fun hnone => ?_⟩
      obtain ⟨node, hstart⟩ := validateGraph_ok hvalid
      have hfind : startNode env.L workflow = some node := by
        unfold startNode
        rw [← List.head?_filter, hstart]
        rfl
      have hsome : startNode env.L workflow = none := hnone
      rw [hfind] at hsome
      cases hsome
  | @tail s t hreach hstep ih =>
      obtain ⟨node, output, retries, step, hcurrent, hok, hstatus, houtput, hsteps, hexecuted,
        hnext⟩ := loopBody_output hstep
      obtain ⟨hsucceeded, hleads⟩ := hsound s hreach node output retries hcurrent hok
      constructor
      · intro step' hstep'
        rw [hsteps] at hstep'
        rcases List.mem_append.mp hstep' with hold | hlast
        · exact ih.1 step' hold
        · rw [List.mem_singleton.mp hlast, houtput]
          exact ⟨hstatus, hsucceeded⟩
      · intro hnone
        refine ⟨node, by rw [hexecuted, List.getLast?_concat], ?_⟩
        rcases hleads with hend | hsome
        · exact hend
        · by_contra hend
          rw [hnext, if_neg hend] at hnone
          rw [hnone] at hsome
          cases hsome

/-- Where every step reports success and an end node is last, every pass was sound. -/
theorem passes_of_sound {s t : RunState}
    (hs : Reaches (loopBody env workflow) (startRun env workflow) s)
    (ht : Reaches (loopBody env workflow) (startRun env workflow) t) (hnone : t.current = none)
    (hlast : ∃ node, t.executed.getLast? = some node ∧ node.isType env.L "end")
    (hsteps : ∀ step ∈ t.steps, step.status = .completed ∧ succeeded step.outputData) :
    PassSound env workflow s := by
  have hst : Reaches (loopBody env workflow) s t := by
    rcases hs.total ht with h | h
    · exact h
    · rw [h.eq_of_end (not_steps_of_none hnone)]
      exact .refl
  intro node output retries hcurrent hok
  rcases hst.cases_head with rfl | ⟨u, hstep, hut⟩
  · rw [hnone] at hcurrent
    cases hcurrent
  obtain ⟨node', output', retries', step, hcurrent', hok', -, houtput, hsteps', hexecuted,
    hnext⟩ := loopBody_output hstep
  obtain rfl : node = node' := Option.some.inj (hcurrent.symm.trans hcurrent')
  obtain ⟨rfl, rfl⟩ := Prod.mk.inj (Except.ok.inj (hok.symm.trans hok'))
  constructor
  · have hmem : step ∈ t.steps := by
      apply (steps_of_reaches hut).subset
      rw [hsteps']
      exact List.mem_append_right _ (List.mem_singleton_self _)
    rw [← houtput]
    exact (hsteps step hmem).2
  · by_cases hisEnd : node.isType env.L "end"
    · exact .inl hisEnd
    · rw [if_neg hisEnd] at hnext
      rw [← hnext]
      cases hu : u.current with
      | some next => exact .inr rfl
      | none =>
          -- Nothing comes after `u`, so `node` was executed last.
          obtain rfl := Reaches.eq_of_end (not_steps_of_none hu) hut
          obtain ⟨last, hgetLast, hlastEnd⟩ := hlast
          rw [hexecuted, List.getLast?_concat] at hgetLast
          obtain rfl := Option.some.inj hgetLast
          exact absurd hlastEnd hisEnd

/-- **Completion.** For an accepted graph, what an execution that returned says of its completion
    is sound exactly if one of its nodes raised, or each of its passes was sound. -/
theorem executeWorkflow_sound_iff (hvalid : validateGraph env.L workflow = .ok ()) {fuel : ℕ}
    {r : RunState} (h : executeWorkflow env (some workflow) fuel = some (.ok r)) :
    CompletionSound env.L r ↔
      (∃ s, Reaches (loopBody env workflow) (startRun env workflow) s ∧ NodeRaises env s) ∨
        ∀ s, Reaches (loopBody env workflow) (startRun env workflow) s →
          PassSound env workflow s := by
  obtain ⟨s, hreach, hfailed | ⟨hnone, rfl⟩⟩ := executeWorkflow_returns hvalid h
  · obtain ⟨node, record, hcurrent, hrecord, hstatus, rfl⟩ := loopBody_returned hfailed
    obtain ⟨exc, hexc⟩ := recordNode_failed hrecord hstatus
    exact iff_of_true (fun hcompleted => nomatch hcompleted)
      (.inl ⟨s, hreach, node, exc, hcurrent, hexc⟩)
  · constructor
    · intro hsound
      obtain ⟨hlast, hsteps⟩ := hsound rfl
      exact .inr fun u hu => passes_of_sound hu hreach hnone hlast hsteps
    · rintro (⟨u, hu, node, exc, hcurrent, hexc⟩ | hsound) -
      · -- A pass whose node raises would be the last one, and the loop did not stop there.
        have heq : u = s := by
          rcases hu.total hreach with h | h
          · exact (h.eq_of_end (NodeRaises.not_steps ⟨node, exc, hcurrent, hexc⟩)).symm
          · exact h.eq_of_end (not_steps_of_none hnone)
        rw [heq, hnone] at hcurrent
        cases hcurrent
      · obtain ⟨hsteps, hlast⟩ := sound_of_passes hvalid hsound hreach
        exact ⟨hlast hnone, hsteps⟩

end Sound

/-! ## Both defects -/

/-- Nothing but a start node. -/
def loneStart : Workflow where
  nodes := [startStep]
  edges := []

/-- A tool node whose configuration names no tool. -/
def toolStep : WorkflowNode where
  id := 2
  nodeType := "tool"
  name := "Tool"

def endStep : WorkflowNode where
  id := 3
  nodeType := "end"
  name := "End"

def unnamedTool : Workflow where
  nodes := [startStep, toolStep, endStep]
  edges := [{ sourceNodeId := 1, targetNodeId := 2 }, { sourceNodeId := 2, targetNodeId := 3 }]

theorem loneStart_unsound :
    ∃ r, executeWorkflow quietEnv (some loneStart) 2 = some (.ok r) ∧
      r.execution.status = .completed ∧ ¬ CompletionSound quietEnv.L r := by
  refine ⟨_, rfl, rfl, fun hsound => ?_⟩
  obtain ⟨node, hlast, hend⟩ := (hsound rfl).1
  obtain rfl : startStep = node := Option.some.inj hlast
  exact absurd hend (by decide)

theorem unnamedTool_unsound :
    ∃ r, executeWorkflow quietEnv (some unnamedTool) 4 = some (.ok r) ∧
      r.execution.status = .completed ∧ ¬ CompletionSound quietEnv.L r := by
  refine ⟨_, rfl, rfl, fun hsound => ?_⟩
  have hsteps := (hsound rfl).2
  have hfailed := (hsteps _ (List.mem_cons_of_mem _ List.mem_cons_self)).2
  exact absurd hfailed (by decide)

/-- Both graphs are accepted, and both executions are completed. -/
theorem completed_unsound :
    (validateGraph quietEnv.L loneStart = .ok () ∧
      ∃ r, executeWorkflow quietEnv (some loneStart) 2 = some (.ok r) ∧
        r.execution.status = .completed ∧ ¬ CompletionSound quietEnv.L r) ∧
    (validateGraph quietEnv.L unnamedTool = .ok () ∧
      ∃ r, executeWorkflow quietEnv (some unnamedTool) 4 = some (.ok r) ∧
        r.execution.status = .completed ∧ ¬ CompletionSound quietEnv.L r) :=
  ⟨⟨rfl, loneStart_unsound⟩, ⟨rfl, unnamedTool_unsound⟩⟩

/-- The execution with the unnamed tool makes a pass that is not sound. -/
theorem unnamedTool_passes :
    ¬ ∀ s, Reaches (loopBody quietEnv unnamedTool) (startRun quietEnv unnamedTool) s →
      PassSound quietEnv unnamedTool s := by
  intro hsound
  obtain ⟨r, hrun, -, hunsound⟩ := unnamedTool_unsound
  exact hunsound ((executeWorkflow_sound_iff rfl hrun).mpr (.inr hsound))

end AgentCorp.Workflows
