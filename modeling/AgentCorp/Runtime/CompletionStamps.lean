/-
  `completed_at` and the status of a task or goal, over any sequence of updates.

  Both updates set the time where the new status is a closed one and otherwise leave it. Nothing
  takes it off: a task or goal that is opened again keeps its time.

  Proved, for every sequence of calls:
  * `task_stamped_iff`, `goal_stamped_iff`: the time is there exactly at the closed statuses, all
    the way, exactly if it is so at the start and no call takes a closed status back.
  * `stamped_fromDb_iff`: a stored goal starts so unless its status is a closed one in another
    spelling than `from_db` compares with, or its row has no `updated_at`.
-/
import AgentCorp.Lib.GuardedRun
import AgentCorp.Runtime.TaskManagement

namespace AgentCorp.Runtime

open AgentCorp.Python GuardedRun

/-! ## Tasks -/

/-- A call of the task manager that updates a task, with the clock it reads. -/
inductive TaskCall where
  | updateTask (clock : Clock) (status : Option TaskLifecycleState) (metadata : PyDict)
  | completeTask (clock : Clock)
  | cancelTask (clock : Clock)

def TaskCall.run (task : TaskReport) : TaskCall → TaskReport
  | .updateTask clock status metadata => Runtime.updateTask clock task status metadata
  | .completeTask clock => Runtime.completeTask clock task
  | .cancelTask clock => Runtime.cancelTask clock task

/-- The status that a call gives, if it gives one. -/
def TaskCall.status : TaskCall → Option TaskLifecycleState
  | .updateTask _ status _ => status
  | .completeTask _ => some .completed
  | .cancelTask _ => some .cancelled

/-- `completed_at` is set exactly at the status COMPLETED. -/
def TaskStamped : TaskReport → Prop :=
  Stamped TaskReport.status TaskReport.completedAt (· = .completed)

/-- The call takes a completed task to another status. -/
def TaskReopens : TaskReport → TaskCall → Prop :=
  Reopens TaskReport.status TaskCall.status (· = .completed)

theorem TaskCall.status_run (task : TaskReport) (call : TaskCall) :
    (call.run task).status = call.status.getD task.status := by
  cases call <;> rfl

theorem TaskCall.completedAt_run (task : TaskReport) (call : TaskCall) :
    (call.run task).completedAt.isSome ↔
      (∃ status ∈ call.status, status = .completed) ∨ task.completedAt.isSome := by
  cases call with
  | updateTask clock status metadata =>
      by_cases h : status = some .completed
      · simp [run, Runtime.updateTask, TaskCall.status, h]
      · simp [run, Runtime.updateTask, TaskCall.status, h]
  | completeTask clock => simp [run, Runtime.completeTask, Runtime.updateTask, TaskCall.status]
  | cancelTask clock => simp [run, Runtime.cancelTask, Runtime.updateTask, TaskCall.status]

theorem task_stamped_iff (task : TaskReport) (calls : List TaskCall) :
    Always TaskCall.run TaskStamped task calls ↔
      TaskStamped task ∧ Meets TaskCall.run (fun task call => ¬ TaskReopens task call) task calls :=
  stamped_iff TaskCall.status_run TaskCall.completedAt_run task calls

/-- A task starts READY or BLOCKED, without a time. -/
theorem stamped_createTasks {createdAt : Instant} {goal : GoalReport} {task : TaskReport}
    (h : task ∈ createTasks createdAt goal) : TaskStamped task := by
  obtain ⟨index, -, rfl⟩ := List.mem_map.mp h
  unfold TaskStamped Stamped createTask
  by_cases hindex : index = 0
  · simp [hindex]
  · simp [hindex]

/-! ## Goals -/

/-- A call of the goal engine that updates a goal. -/
inductive GoalCall where
  | updateGoal (clock : Clock) (status : Option GoalLifecycleState)
      (priority : Option GoalPriority) (milestones : Option (List GoalMilestone))
      (metadata : PyDict)
  | closeGoal (clock : Clock) (completed : Bool)
  | cancelGoal (clock : Clock)
  | trackMilestone (clock : Clock) (milestone : GoalMilestone)

def GoalCall.run (goal : GoalReport) : GoalCall → GoalReport
  | .updateGoal clock status priority milestones metadata =>
      Runtime.updateGoal clock goal status priority milestones metadata
  | .closeGoal clock completed => Runtime.closeGoal clock goal completed
  | .cancelGoal clock => Runtime.cancelGoal clock goal
  | .trackMilestone clock milestone => Runtime.trackMilestone clock goal milestone

/-- The status that a call gives, if it gives one. -/
def GoalCall.status : GoalCall → Option GoalLifecycleState
  | .updateGoal _ status _ _ _ => status
  | .closeGoal _ completed => some (if completed then .completed else .failed)
  | .cancelGoal _ => some .cancelled
  | .trackMilestone _ _ => none

/-- `completed_at` is set exactly at COMPLETED, CANCELLED and FAILED. -/
def GoalStamped : GoalReport → Prop :=
  Stamped GoalReport.status GoalReport.completedAt GoalLifecycleState.closed

/-- The call opens a closed goal again. -/
def GoalReopens : GoalReport → GoalCall → Prop :=
  Reopens GoalReport.status GoalCall.status GoalLifecycleState.closed

theorem GoalCall.status_run (goal : GoalReport) (call : GoalCall) :
    (call.run goal).status = call.status.getD goal.status := by
  cases call <;> rfl

theorem isSome_completedAt_updateGoal (clock : Clock) (goal : GoalReport)
    (status : Option GoalLifecycleState) (priority : Option GoalPriority)
    (milestones : Option (List GoalMilestone)) (metadata : PyDict) :
    (updateGoal clock goal status priority milestones metadata).completedAt.isSome ↔
      (∃ given ∈ status, given.closed) ∨ goal.completedAt.isSome := by
  simp only [updateGoal]
  split
  · next h => exact iff_of_true rfl (Or.inl h)
  · next h => exact (or_iff_right h).symm

theorem GoalCall.completedAt_run (goal : GoalReport) (call : GoalCall) :
    (call.run goal).completedAt.isSome ↔
      (∃ status ∈ call.status, status.closed) ∨ goal.completedAt.isSome := by
  cases call <;> exact isSome_completedAt_updateGoal ..

theorem goal_stamped_iff (goal : GoalReport) (calls : List GoalCall) :
    Always GoalCall.run GoalStamped goal calls ↔
      GoalStamped goal ∧ Meets GoalCall.run (fun goal call => ¬ GoalReopens goal call) goal calls :=
  stamped_iff GoalCall.status_run GoalCall.completedAt_run goal calls

theorem stamped_createGoal (clock : Clock) (title objective : String)
    (ownerId organizationId : Int) (description : Option String) (priority : GoalPriority)
    (parentGoalId : Option Int) (dependencies : List GoalLink) (metadata : PyDict) :
    GoalStamped (createGoal clock title objective ownerId organizationId description priority
      parentGoalId dependencies metadata) := by
  simp [GoalStamped, Stamped, createGoal, GoalLifecycleState.closed]

/-! ## Stored goals -/

/-- The status of the row is not a closed one that `from_db` gives no time. -/
def StoredAlike (U : Upper) (goal : Goal) : Prop :=
  U.upper goal.status ∈ closedTexts → goal.status ∈ closedTexts ∧ goal.updatedAt.isSome

theorem closed_statusFromString_iff (U : Upper) (value : String) :
    (statusFromString U value).closed ↔ U.upper value ∈ closedTexts := by
  unfold statusFromString closedTexts GoalLifecycleState.closed
  split <;> simp_all

theorem upper_closedTexts (U : Upper) {text : String} (h : text ∈ closedTexts) :
    U.upper text ∈ closedTexts := by
  have hall : ∀ text ∈ closedTexts, isAscii text = true ∧ asciiUpper text = text := by decide
  obtain ⟨hascii, hupper⟩ := hall text h
  rwa [U.ascii text hascii, hupper]

theorem stamped_fromDb_iff (U : Upper) (L : Lower) (clock : Clock) (goal : Goal)
    (childGoalIds dependencyIds : List Int) :
    GoalStamped (fromDb U L clock goal childGoalIds dependencyIds) ↔ StoredAlike U goal := by
  have hstamp : (fromDb U L clock goal childGoalIds dependencyIds).completedAt.isSome ↔
      goal.status ∈ closedTexts ∧ goal.updatedAt.isSome := by
    unfold fromDb
    by_cases h : goal.status ∈ closedTexts
    · simp [h]
    · simp [h]
  unfold GoalStamped Stamped StoredAlike
  have hstatus : (fromDb U L clock goal childGoalIds dependencyIds).status.closed ↔
      U.upper goal.status ∈ closedTexts := closed_statusFromString_iff U goal.status
  rw [hstamp, hstatus]
  constructor
  · exact Iff.mpr
  · intro h
    exact ⟨fun hclosed => upper_closedTexts U hclosed.1, h⟩

/-! ## Whole histories -/

/-- A row whose status is in lower case. -/
def deliveredGoal : Goal where
  id := 7
  title := "Launch feature"
  description := none
  objective := "Design, implement, and validate feature delivery."
  createdBy := 1
  organizationId := 10
  priority := "high"
  status := "completed"
  createdAt := some ⟨0, "2026-08-01T00:00:00+00:00"⟩
  updatedAt := some ⟨60000000, "2026-08-01T00:01:00+00:00"⟩
  successCriteria := none
  constraints := .none

def noon : Clock := fun _ => ⟨43200000000, "2026-08-01T12:00:00+00:00"⟩

/-- A completed task that is cancelled and a closed goal that is opened again keep their times. A
    stored goal in lower case is completed without one. -/
theorem not_stamped_reopened :
    (∃ task ∈ createTasks (noon 0) (fromDb .asciiOnly .asciiOnly noon deliveredGoal [] []),
      ¬ Always TaskCall.run TaskStamped task [.completeTask noon, .cancelTask noon]) ∧
    ¬ Always GoalCall.run GoalStamped
      (createGoal noon "Launch feature" "Deliver" 1 10 none .high none [] [])
      [.closeGoal noon true, .updateGoal noon (some .active) none none []] ∧
    ¬ Always GoalCall.run GoalStamped
      (fromDb .asciiOnly .asciiOnly noon deliveredGoal [] []) [] := by
  refine ⟨⟨_, List.mem_map_of_mem (List.mem_range.mpr (baseCount_pos _)), ?_⟩, ?_, ?_⟩
  · rintro ⟨-, -, hlast⟩
    exact absurd (hlast.mp rfl) (by decide)
  · rintro ⟨-, -, hlast⟩
    exact absurd (hlast.mp rfl) (by decide)
  · intro hstored
    rw [Always, stamped_fromDb_iff] at hstored
    exact absurd (hstored (by decide)).1 (by decide)

/-- **Completion times.** Whatever is called on a task that `create_tasks` makes, its time of
    completion is there exactly while it is completed, exactly if no call takes a completed task to
    another status. The same is true of goals and their three closed statuses; for a stored goal,
    if its status is not a closed one that `from_db` gives no time, and never otherwise. -/
theorem completedAt_tracks_status_iff (taskCalls : List TaskCall) (goalCalls : List GoalCall) :
    (∀ (createdAt : Instant) (goal : GoalReport), ∀ task ∈ createTasks createdAt goal,
      Always TaskCall.run TaskStamped task taskCalls ↔
        Meets TaskCall.run (fun task call => ¬ TaskReopens task call) task taskCalls) ∧
    (∀ (clock : Clock) (title objective : String) (ownerId organizationId : Int)
        (description : Option String) (priority : GoalPriority) (parentGoalId : Option Int)
        (dependencies : List GoalLink) (metadata : PyDict),
      let goal := createGoal clock title objective ownerId organizationId description priority
        parentGoalId dependencies metadata
      Always GoalCall.run GoalStamped goal goalCalls ↔
        Meets GoalCall.run (fun goal call => ¬ GoalReopens goal call) goal goalCalls) ∧
    ∀ (U : Upper) (L : Lower) (clock : Clock) (row : Goal)
        (childGoalIds dependencyIds : List Int),
      let goal := fromDb U L clock row childGoalIds dependencyIds
      Always GoalCall.run GoalStamped goal goalCalls ↔
        StoredAlike U row ∧
          Meets GoalCall.run (fun goal call => ¬ GoalReopens goal call) goal goalCalls := by
  refine ⟨fun createdAt goal task htask => ?_, ?_, ?_⟩
  · rw [task_stamped_iff, and_iff_right (stamped_createTasks htask)]
  · intro clock title objective ownerId organizationId description priority parentGoalId
      dependencies metadata goal
    rw [goal_stamped_iff, and_iff_right (stamped_createGoal ..)]
  · intro U L clock row childGoalIds dependencyIds goal
    rw [goal_stamped_iff, stamped_fromDb_iff]

end AgentCorp.Runtime
