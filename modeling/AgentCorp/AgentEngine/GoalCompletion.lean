/-
  What it means that a goal is completed.

  Reflection calls every outcome a success, so the evaluator takes the goal as achieved after
  the first action, whatever became of its task and of the tasks behind it.

  * `unfinished_completed`: goals that are stored as completed with a failed task, and with a
    pending one.
  * `executeGoal_ok`: an execution that returns is completed, and it has changed one task at most.
  * `executeGoal_sound_iff`: what is stored is sound exactly if no task is open, the action for
    the first open task raises, or that task is the only open one and succeeds.
-/
import AgentCorp.AgentEngine.AgentEngineService

namespace AgentCorp.AgentEngine

open AgentCorp.Python AgentCorp.Tools AgentCorp.Executions AgentCorp.Workflows

/-- What the stored statuses of the execution and of the goal say of the tasks. -/
def GoalSound (r : GoalRunState) : Prop :=
  (r.execution.status = .completed ∧ r.goal.status = "COMPLETED" →
    ∀ task ∈ r.tasks, task.status = "COMPLETED") ∧
  (r.execution.status = .failed → ∃ task ∈ r.tasks, task.status ≠ "COMPLETED")

/-! ## Open tasks -/

/-- The tasks that are not completed, in order. -/
def openTasks (tasks : List GoalTask) : List GoalTask :=
  tasks.filter (·.isOpen)

theorem isOpen_iff {task : GoalTask} : task.isOpen = true ↔ task.status ≠ "COMPLETED" := by
  simp [GoalTask.isOpen]

theorem openTasks_eq_nil {tasks : List GoalTask} :
    openTasks tasks = [] ↔ ∀ task ∈ tasks, task.status = "COMPLETED" := by
  unfold openTasks
  rw [List.filter_eq_nil_iff]
  apply forall₂_congr
  intro task _
  rw [isOpen_iff, not_not]

/-- Completing the first open task closes it and no other. -/
theorem openTasks_setFirstOpen_completed (tasks : List GoalTask) :
    openTasks (setFirstOpen "COMPLETED" tasks) = (openTasks tasks).tail := by
  unfold openTasks
  induction tasks with
  | nil => rfl
  | cons task tasks ih =>
      unfold setFirstOpen
      by_cases hopen : task.isOpen
      · have hclosed : ({ task with status := "COMPLETED" } : GoalTask).isOpen = false := rfl
        rw [if_pos hopen, List.filter_cons_of_pos hopen, List.tail_cons,
          List.filter_cons_of_neg (by rw [hclosed]; exact Bool.false_ne_true)]
      · rw [if_neg hopen, List.filter_cons_of_neg hopen, List.filter_cons_of_neg hopen, ih]

/-- A failed task stays open. -/
theorem openTasks_setFirstOpen_failed {tasks : List GoalTask} (h : openTasks tasks ≠ []) :
    openTasks (setFirstOpen "FAILED" tasks) ≠ [] := by
  unfold openTasks at h ⊢
  induction tasks with
  | nil => exact absurd rfl h
  | cons task tasks ih =>
      unfold setFirstOpen
      by_cases hopen : task.isOpen
      · have hfailed : ({ task with status := "FAILED" } : GoalTask).isOpen = true := rfl
        rw [if_pos hopen, List.filter_cons_of_pos hfailed]
        exact List.cons_ne_nil _ _
      · rw [List.filter_cons_of_neg hopen] at h
        rw [if_neg hopen, List.filter_cons_of_neg hopen]
        exact ih h

/-- Acting on the first open task closes every task exactly if it is the only open one and the
    action succeeds. -/
theorem openTasks_acted {tasks : List GoalTask} {task : GoalTask} {rest : List GoalTask}
    (hopen : openTasks tasks = task :: rest) (output : Dict Json) :
    openTasks (setFirstOpen (if taskSucceeded output then "COMPLETED" else "FAILED") tasks) = [] ↔
      rest = [] ∧ taskSucceeded output := by
  by_cases hsucceeded : taskSucceeded output
  · rw [if_pos hsucceeded, openTasks_setFirstOpen_completed, hopen, List.tail_cons]
    exact (and_iff_left hsucceeded).symm
  · rw [if_neg hsucceeded]
    have hsome : openTasks tasks ≠ [] := by
      rw [hopen]
      exact List.cons_ne_nil _ _
    exact iff_of_false (openTasks_setFirstOpen_failed hsome) fun h => hsucceeded h.2

/-! ## What is stored -/

section Sound

variable {env : GoalEnv} {goal : Goal} {tasks : List GoalTask}

theorem finishGoal_completed {s : GoalRunState}
    (h : s.goalAchieved = true ∨ openTasks s.tasks = []) :
    (finishGoal s).execution.status = .completed ∧ (finishGoal s).goal.status = "COMPLETED" := by
  have hcond : (s.goalAchieved || s.tasks.all fun task => !task.isOpen) = true := by
    rcases h with hachieved | hclosed
    · rw [hachieved, Bool.true_or]
    · rw [Bool.or_eq_true, List.all_eq_true]
      right
      intro task htask
      have hstatus := openTasks_eq_nil.mp hclosed task htask
      simp [GoalTask.isOpen, hstatus]
  unfold finishGoal
  rw [hcond]
  exact ⟨rfl, rfl⟩

/-- An execution that returns is completed. Either no task was open, or the action for the first
    open task returned and only that task was changed. -/
theorem executeGoal_ok {r : GoalRunState} (h : executeGoal env (some goal) tasks = .ok r) :
    (r.execution.status = .completed ∧ r.goal.status = "COMPLETED") ∧
      ((openTasks tasks = [] ∧ r.tasks = tasks) ∨
        ∃ task rest output, openTasks tasks = task :: rest ∧
          actOn env 1 goal task = .ok output ∧
          r.tasks =
            setFirstOpen (if taskSucceeded output then "COMPLETED" else "FAILED") tasks) := by
  obtain ⟨s, hloop, hfinish⟩ := Proc.bind_ok h
  obtain rfl := Except.ok.inj hfinish
  cases hfind : tasks.find? (·.isOpen) with
  | none =>
      rw [goalLoop_closed env goal tasks hfind] at hloop
      obtain rfl := Except.ok.inj hloop
      have hclosed : openTasks tasks = [] := by
        rw [openTasks, List.filter_eq_nil_iff]
        exact List.find?_eq_none.mp hfind
      exact ⟨finishGoal_completed (.inr hclosed), .inl ⟨hclosed, rfl⟩⟩
  | some task =>
      rw [goalLoop_eq env goal tasks hfind] at hloop
      cases hact : actOn env 1 goal task with
      | error raised =>
          rw [hact] at hloop
          cases hloop
      | ok output =>
          rw [hact] at hloop
          obtain rfl := Except.ok.inj hloop
          obtain ⟨rest, hrest⟩ : ∃ rest, openTasks tasks = task :: rest := by
            rw [← List.head?_filter] at hfind
            exact List.head?_eq_some_iff.mp hfind
          exact ⟨finishGoal_completed (.inl (acted_achieved _ _ _ _)),
            .inr ⟨task, rest, output, hrest, hact, rfl⟩⟩

/-- Where the action for the first open task returns, so does the execution. -/
theorem executeGoal_of_actOn {task : GoalTask} {rest : List GoalTask} {output : Dict Json}
    (hopen : openTasks tasks = task :: rest) (hact : actOn env 1 goal task = .ok output) :
    executeGoal env (some goal) tasks =
      .ok (finishGoal (acted env (counted (startGoal goal tasks)) task output)) := by
  have hfind : tasks.find? (·.isOpen) = some task := by
    rw [← List.head?_filter]
    exact congrArg List.head? hopen
  unfold executeGoal
  dsimp only
  rw [goalLoop_eq env goal tasks hfind, hact]
  rfl

/-- A completed execution is sound exactly if no task is left open. -/
theorem goalSound_of_completed {r : GoalRunState}
    (h : r.execution.status = .completed ∧ r.goal.status = "COMPLETED") :
    GoalSound r ↔ openTasks r.tasks = [] := by
  rw [openTasks_eq_nil]
  constructor
  · intro hsound
    exact hsound.1 h
  · intro hclosed
    refine ⟨fun _ => hclosed, fun hfailed => ?_⟩
    rw [h.1] at hfailed
    cases hfailed

/-- A completed execution with an open task is not sound. -/
theorem not_goalSound {r : GoalRunState}
    (h : r.execution.status = .completed ∧ r.goal.status = "COMPLETED") {status : String}
    (hstatus : status ∈ r.tasks.map (·.status)) (hopen : status ≠ "COMPLETED") :
    ¬ GoalSound r := by
  intro hsound
  obtain ⟨task, htask, rfl⟩ := List.mem_map.mp hstatus
  exact hopen (hsound.1 h task htask)

/-- **Goals.** For any tasks and outcomes, what an execution stores is sound exactly if no task
    is open, the action for the first open task raises, or that task is the only open one and
    its action succeeds. -/
theorem executeGoal_sound_iff :
    (∀ r, executeGoal env (some goal) tasks = .ok r → GoalSound r) ↔
      openTasks tasks = [] ∨ ∃ task rest, openTasks tasks = task :: rest ∧
        ((∃ raised, actOn env 1 goal task = .error raised) ∨
          (rest = [] ∧ ∃ output, actOn env 1 goal task = .ok output ∧ taskSucceeded output)) := by
  constructor
  · intro hsound
    cases hopen : openTasks tasks with
    | nil => exact .inl rfl
    | cons task rest =>
        refine .inr ⟨task, rest, rfl, ?_⟩
        cases hact : actOn env 1 goal task with
        | error raised => exact .inl ⟨raised, rfl⟩
        | ok output =>
            have hrun := executeGoal_of_actOn hopen hact
            have hstored := hsound _ hrun
            rw [goalSound_of_completed (executeGoal_ok hrun).1] at hstored
            have hclosed : openTasks (setFirstOpen
                (if taskSucceeded output then "COMPLETED" else "FAILED") tasks) = [] := hstored
            obtain ⟨hrest, hsucceeded⟩ := (openTasks_acted hopen output).mp hclosed
            exact .inr ⟨hrest, output, rfl, hsucceeded⟩
  · intro hcond r hrun
    obtain ⟨hcompleted, hcases⟩ := executeGoal_ok hrun
    rw [goalSound_of_completed hcompleted]
    rcases hcases with ⟨hclosed, htasks⟩ | ⟨task, rest, output, hopen, hact, htasks⟩
    · rw [htasks]
      exact hclosed
    · rw [htasks, openTasks_acted hopen output]
      rw [hopen] at hcond
      rcases hcond with hnil | ⟨task', rest', hcons, hcond⟩
      · cases hnil
      obtain ⟨rfl, rfl⟩ := List.cons.inj hcons
      rw [hact] at hcond
      rcases hcond with ⟨raised, herror⟩ | ⟨hrest, output', hok, hsucceeded⟩
      · cases herror
      obtain rfl := Except.ok.inj hok
      exact ⟨hrest, hsucceeded⟩

end Sound

/-! ## Goals that are not finished -/

/-- Services that have nothing. -/
def quietActionServices : ActionServices where
  retrieveMemories := fun _ _ _ => .ok []
  listKnowledgeBases := fun _ => .ok []
  retrieveContext := fun _ _ => .ok ""
  tool := quietServices.tool
  toolLatency := 0
  executeWorkflow := fun _ _ _ => .ok (1, .completed)

def quietGoalEnv : GoalEnv where
  L := .asciiOnly
  T := asciiTables
  services := fun _ => quietActionServices

def reportGoal : Goal where
  organizationId := 1
  agentId := 1
  objective := "Write the report"

/-- Two tasks, as they are created. -/
def reportTasks : List GoalTask :=
  [{ id := 1, title := "Draft" }, { id := 2, title := "Review" }]

/-- A tool task that names no tool. -/
def unnamedToolTask : GoalTask where
  id := 1
  title := "Fetch"
  executionType := "tool"

theorem reportGoal_run :
    ∃ r, executeGoal quietGoalEnv (some reportGoal) reportTasks = .ok r ∧
      (r.execution.status = .completed ∧ r.goal.status = "COMPLETED") ∧
      r.tasks.map (·.status) = ["COMPLETED", "PENDING"] := by
  have hrun := executeGoal_of_actOn (rfl : openTasks reportTasks = _)
    (rfl : actOn quietGoalEnv 1 reportGoal _ = _)
  exact ⟨_, hrun, (executeGoal_ok hrun).1, rfl⟩

theorem unnamedTool_run :
    ∃ r, executeGoal quietGoalEnv (some reportGoal) [unnamedToolTask] = .ok r ∧
      (r.execution.status = .completed ∧ r.goal.status = "COMPLETED") ∧
      r.tasks.map (·.status) = ["FAILED"] := by
  have hrun := executeGoal_of_actOn (rfl : openTasks [unnamedToolTask] = _)
    (rfl : actOn quietGoalEnv 1 reportGoal _ = _)
  exact ⟨_, hrun, (executeGoal_ok hrun).1, rfl⟩

/-- A goal is completed with a pending task, and another one with a failed task. -/
theorem unfinished_completed :
    (∃ r, executeGoal quietGoalEnv (some reportGoal) reportTasks = .ok r ∧ ¬ GoalSound r) ∧
      ∃ r, executeGoal quietGoalEnv (some reportGoal) [unnamedToolTask] = .ok r ∧
        ¬ GoalSound r := by
  constructor
  · obtain ⟨r, hrun, hcompleted, hstatuses⟩ := reportGoal_run
    have hpending : "PENDING" ∈ r.tasks.map (·.status) := by simp [hstatuses]
    exact ⟨r, hrun, not_goalSound hcompleted hpending (by decide)⟩
  · obtain ⟨r, hrun, hcompleted, hstatuses⟩ := unnamedTool_run
    have hfailed : "FAILED" ∈ r.tasks.map (·.status) := by simp [hstatuses]
    exact ⟨r, hrun, not_goalSound hcompleted hfailed (by decide)⟩

end AgentCorp.AgentEngine
