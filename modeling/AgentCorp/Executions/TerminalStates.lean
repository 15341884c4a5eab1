/-
  Whether COMPLETED, FAILED and CANCELLED are final, for workflow executions and for executions of
  goals.

  Neither the runners nor the control calls look at the stored status before they write it, and no
  runner looks at it before it starts a node or a task.

  * `cancelled_completes`: executions of both kinds that are cancelled before their first node or
    task, which is then executed, and that end as completed.
  * `terminal_absorbing_iff`: in both, terminal statuses are absorbing and nothing is started
    after a cancellation exactly in the undisturbed runs.
-/
import AgentCorp.AgentEngine.GoalCompletion
import AgentCorp.AgentEngine.GoalRunner
import AgentCorp.Workflow.Completion
import AgentCorp.Workflow.WorkflowRunner

namespace AgentCorp.Executions

open AgentCorp.Workflows AgentCorp.AgentEngine

/-- A workflow execution that was just created. -/
def workflowSystem (env : WorkflowEnv) (workflow : Workflow) : System WorkflowPc where
  status := .running
  runner := .created (startRun env workflow)

/-- An execution of a goal that was just created. -/
def goalSystem (goal : Goal) (tasks : List GoalTask) : System GoalPc where
  status := .running
  runner := .created (startGoal goal tasks)

/-- **Terminal states.** In every interleaving of a workflow execution, and of an execution of a
    goal, with control calls, terminal statuses are absorbing and nothing is started after a
    cancellation exactly if the interleaving is undisturbed. -/
theorem terminal_absorbing_iff {env : WorkflowEnv} {workflow : Workflow}
    {trace : List (Event × System WorkflowPc)}
    (hworkflow : IsRun (workflowRunner env workflow) (workflowSystem env workflow) trace)
    {goalEnv : GoalEnv} {goal : Goal} {tasks : List GoalTask}
    {goalTrace : List (Event × System GoalPc)}
    (hgoal : IsRun (goalRunner goalEnv) (goalSystem goal tasks) goalTrace) :
    (TerminalAbsorbing trace ∧ NothingStarted trace ↔ Undisturbed trace) ∧
      (TerminalAbsorbing goalTrace ∧ NothingStarted goalTrace ↔ Undisturbed goalTrace) :=
  ⟨absorbing_iff_undisturbed (workflowRunner_lawful env workflow) hworkflow rfl,
    absorbing_iff_undisturbed (goalRunner_lawful goalEnv) hgoal rfl⟩

/-! ## A cancelled execution that completes -/

/-- An execution is cancelled before its runner takes a step, and then runs to its end. -/
def cancelFirst (steps : ℕ) : List Choice :=
  [.call .cancel, .commit 0] ++ List.replicate steps .runner

theorem workflow_cancelled :
    ((workflowSystem quietEnv loneStart).run (workflowRunner quietEnv loneStart)
        (cancelFirst 6)).map statuses =
      some [(.idle, .running), (.wrote .cancel, .cancelled), (.idle, .cancelled),
        (.idle, .cancelled), (.idle, .cancelled), (.started, .cancelled), (.idle, .cancelled),
        (.finished .completed, .completed)] :=
  rfl

theorem goal_cancelled :
    ((goalSystem reportGoal reportTasks).run (goalRunner quietGoalEnv) (cancelFirst 7)).map
        statuses =
      some [(.idle, .running), (.wrote .cancel, .cancelled), (.idle, .cancelled),
        (.started, .cancelled), (.idle, .cancelled), (.idle, .cancelled), (.idle, .cancelled),
        (.idle, .cancelled), (.finished .completed, .completed)] := by
  decide +kernel

/-- Both cancelled executions start a node or a task, and are completed. -/
theorem cancelled_completes :
    (∃ trace, IsRun (workflowRunner quietEnv loneStart) (workflowSystem quietEnv loneStart) trace ∧
      ¬ TerminalAbsorbing trace ∧ ¬ NothingStarted trace) ∧
    ∃ trace, IsRun (goalRunner quietGoalEnv) (goalSystem reportGoal reportTasks) trace ∧
      ¬ TerminalAbsorbing trace ∧ ¬ NothingStarted trace := by
  constructor
  · obtain ⟨trace, hrun, hstatuses⟩ := isRun_of_statuses workflow_cancelled
    refine ⟨trace, hrun, ?_, ?_⟩
    · rw [terminalAbsorbing_iff, hstatuses]
      decide
    · rw [nothingStarted_iff, hstatuses]
      decide
  · obtain ⟨trace, hrun, hstatuses⟩ := isRun_of_statuses goal_cancelled
    refine ⟨trace, hrun, ?_, ?_⟩
    · rw [terminalAbsorbing_iff, hstatuses]
      decide
    · rw [nothingStarted_iff, hstatuses]
      decide

/-! ## Undisturbed executions -/

theorem workflow_paused :
    ((workflowSystem quietEnv loneStart).run (workflowRunner quietEnv loneStart)
        [.runner, .call .pause, .commit 0, .runner, .runner, .runner, .runner, .runner]).map
        statuses =
      some [(.idle, .running), (.idle, .running), (.wrote .pause, .paused), (.idle, .paused),
        (.idle, .paused), (.started, .paused), (.idle, .paused),
        (.finished .completed, .completed)] :=
  rfl

theorem goal_resumed :
    ((goalSystem reportGoal reportTasks).run (goalRunner quietGoalEnv)
        [.runner, .runner, .call .resume, .commit 0]).map statuses =
      some [(.idle, .running), (.started, .running), (.idle, .running), (.idle, .running)] := by
  decide +kernel

/-- A workflow execution that is paused, which its runner does not notice, and the execution of a
    goal that is resumed while it runs. -/
theorem undisturbed_absorbing :
    (∃ trace, IsRun (workflowRunner quietEnv loneStart) (workflowSystem quietEnv loneStart) trace ∧
      TerminalAbsorbing trace ∧ NothingStarted trace) ∧
    ∃ trace, IsRun (goalRunner quietGoalEnv) (goalSystem reportGoal reportTasks) trace ∧
      TerminalAbsorbing trace ∧ NothingStarted trace := by
  obtain ⟨trace, hrun, hstatuses⟩ := isRun_of_statuses workflow_paused
  obtain ⟨goalTrace, hgoalRun, hgoalStatuses⟩ := isRun_of_statuses goal_resumed
  have hundisturbed : Undisturbed trace := by
    rw [undisturbed_iff, hstatuses]
    decide
  have hgoalUndisturbed : Undisturbed goalTrace := by
    rw [undisturbed_iff, hgoalStatuses]
    decide
  obtain ⟨hworkflow, hgoal⟩ := terminal_absorbing_iff hrun hgoalRun
  exact ⟨⟨trace, hrun, hworkflow.mpr hundisturbed⟩,
    goalTrace, hgoalRun, hgoal.mpr hgoalUndisturbed⟩

end AgentCorp.Executions
