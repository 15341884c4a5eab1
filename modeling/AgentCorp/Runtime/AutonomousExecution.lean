/-
  The autonomous loop: `ExecutionPolicy.decide` and `AutonomousExecutionEngine.execute_goal`.

  What the loop cannot determine is its environment: the clock and, for every pass, how the
  call of `runtime_v2.execute_chat` ends. `loopBody` is one pass of the `while True`;
  `executeGoal` runs it with fuel and builds the report.

  * `loopBody_pass`: everything one pass can do, by cases (`Pass`); it never raises on its own.
-/
import AgentCorp.Lib.WhileLoop
import AgentCorp.Runtime.TaskManagement

namespace AgentCorp.Runtime

open AgentCorp.Python

inductive ExecutionDecision where
  | executable | blocked | waiting | skipped | cancelled
  deriving DecidableEq, Repr

structure ExecutionPolicyDecision where
  decision : ExecutionDecision
  reason : String
  deriving DecidableEq, Repr

/-- `ExecutionPolicy.decide`. -/
def decidePolicy (task : TaskReport) (completedTaskIds : Finset String) :
    ExecutionPolicyDecision :=
  if task.status = .cancelled then ⟨.cancelled, "Task is cancelled."⟩
  else if task.status = .completed then ⟨.skipped, "Task already completed."⟩
  else if ¬ validateDependencies task completedTaskIds then
    ⟨.blocked, "Dependencies are not satisfied."⟩
  else if task.status = .ready then ⟨.executable, "Task is ready for execution."⟩
  else ⟨.waiting, "Task is waiting for readiness."⟩

/-- The synthesized payload of one task. -/
structure TaskPayload where
  message : String
  runtimeVersion : String
  deriving DecidableEq, Repr

def taskPayload (reserved : TaskReport) : TaskPayload where
  message :=
    match reserved.description with
    | some description => if description ≠ "" then description else reserved.title
    | none => reserved.title
  runtimeVersion := "AgentCorp V2"

/-- One call of `runtime_v2.execute_chat`, with `completed_ids` at that moment. -/
structure ExecuteChatCall where
  task : TaskReport
  payload : TaskPayload
  completedIds : Finset String
  deriving DecidableEq

/-- What one run meets: the clock outside the loop, the clock of each pass, and how the call
    that a pass makes ends. -/
structure AutonomousEnv where
  startedAt : Instant
  createdAt : Instant
  completedAt : Instant
  clock : Nat → Clock
  outcome : Nat → Except BaseExn Unit

/-- The local variables of `execute_goal`, the number of passes, and the calls made. -/
structure LoopState where
  iteration : Nat
  loopTasks : List TaskReport
  completedTasks : List TaskReport
  failedTasks : List TaskReport
  blockedTasks : List TaskReport
  completedIds : Finset String
  calls : List ExecuteChatCall
  deriving DecidableEq

def loopStart (tasks : List TaskReport) : LoopState where
  iteration := 0
  loopTasks := tasks
  completedTasks := []
  failedTasks := []
  blockedTasks := []
  completedIds := ∅
  calls := []

/-! ## One pass -/

/-- The pass marks the tasks of `active`'s identifier with a status and continues. -/
def LoopState.mark (s : LoopState) (clock : Clock) (active : TaskReport)
    (status : TaskLifecycleState) : LoopState :=
  { s with
    iteration := s.iteration + 1
    loopTasks := replaceTask active.taskId (fun t => updateTask clock t (some status) [])
      s.loopTasks }

/-- The policy blocks `active`. -/
def LoopState.block (s : LoopState) (clock : Clock) (active : TaskReport) : LoopState :=
  { s.mark clock active .blocked with blockedTasks := s.blockedTasks ++ [active] }

/-- `update_task(active_task, status=RUNNING)`. -/
def reserve (clock : Clock) (active : TaskReport) : TaskReport :=
  updateTask clock active (some .running) []

/-- The call that `execute_goal` makes for a reserved task. -/
def LoopState.call (s : LoopState) (reserved : TaskReport) : ExecuteChatCall where
  task := reserved
  payload := taskPayload reserved
  completedIds := s.completedIds

/-- The call returned: the task is COMPLETED. -/
def LoopState.finish (s : LoopState) (clock : Clock) (reserved : TaskReport) : LoopState :=
  let finished := completeTask clock reserved
  { s with
    iteration := s.iteration + 1
    loopTasks := replaceTask finished.taskId (fun _ => finished) s.loopTasks
    completedTasks := s.completedTasks ++ [finished]
    completedIds := insert (finished.taskId.getD "") s.completedIds
    calls := s.calls ++ [s.call reserved] }

/-- The call raised an `Exception`: the task is FAILED. -/
def LoopState.fail (s : LoopState) (clock : Clock) (reserved : TaskReport) (exc : Exn) :
    LoopState :=
  let failed := updateTask clock reserved (some .failed) [("error", .str exc.text)]
  { s with
    iteration := s.iteration + 1
    loopTasks := replaceTask failed.taskId (fun _ => failed) s.loopTasks
    failedTasks := s.failedTasks ++ [failed]
    calls := s.calls ++ [s.call reserved] }

/-- One pass of the `while True` loop. What is thrown comes with the calls made so far. -/
def loopBody (env : AutonomousEnv) (s : LoopState) :
    WhileLoop.Iter LoopState (List ExecuteChatCall × BaseExn) :=
  let clock := env.clock s.iteration
  match readyTasks s.loopTasks with
  | .error exc => .throw (s.calls, .exception exc)
  | .ok [] => .stop
  | .ok (active :: _) =>
      match (decidePolicy active s.completedIds).decision with
      | .blocked => .next (s.block clock active)
      -- `cancel_task` is an update to CANCELLED.
      | .cancelled => .next (s.mark clock active .cancelled)
      | .waiting => .next (s.mark clock active .waiting)
      | .skipped => .next (s.mark clock active .waiting)
      | .executable =>
          -- The reservation reads the clock once.
          let reserved := reserve clock active
          match env.outcome s.iteration with
          | .ok () => .next (s.finish (clock.skip 1) reserved)
          | .error (.exception exc) => .next (s.fail (clock.skip 1) reserved exc)
          | .error raised => .throw (s.calls ++ [s.call reserved], raised)

/-- A READY task is executable or blocked, by its dependencies alone. -/
theorem decidePolicy_ready {task : TaskReport} (h : task.status = .ready) (ids : Finset String) :
    (decidePolicy task ids).decision =
      if validateDependencies task ids then .executable else .blocked := by
  unfold decidePolicy
  simp only [h]
  cases validateDependencies task ids <;> rfl

/-- What one pass can do. `active` is the first READY task in queue order. -/
inductive Pass (env : AutonomousEnv) (s : LoopState) :
    WhileLoop.Iter LoopState (List ExecuteChatCall × BaseExn) → Prop
  | idle (hidle : ∀ task ∈ s.loopTasks, task.status ≠ .ready) : Pass env s .stop
  | blocked (active : TaskReport) (hmem : active ∈ s.loopTasks) (hready : active.status = .ready)
      (hdeps : ¬ validateDependencies active s.completedIds) :
      Pass env s (.next (s.block (env.clock s.iteration) active))
  | finished (active : TaskReport) (hmem : active ∈ s.loopTasks) (hready : active.status = .ready)
      (hdeps : validateDependencies active s.completedIds)
      (hcall : env.outcome s.iteration = .ok ()) :
      Pass env s (.next (s.finish ((env.clock s.iteration).skip 1)
        (reserve (env.clock s.iteration) active)))
  | failed (active : TaskReport) (exc : Exn) (hmem : active ∈ s.loopTasks)
      (hready : active.status = .ready) (hdeps : validateDependencies active s.completedIds)
      (hcall : env.outcome s.iteration = .error (.exception exc)) :
      Pass env s (.next (s.fail ((env.clock s.iteration).skip 1)
        (reserve (env.clock s.iteration) active) exc))
  | raised (active : TaskReport) (raised : BaseExn) (hmem : active ∈ s.loopTasks)
      (hready : active.status = .ready) (hdeps : validateDependencies active s.completedIds)
      (hcall : env.outcome s.iteration = .error raised) (hbase : ∀ exc, raised ≠ .exception exc) :
      Pass env s (.throw (s.calls ++ [s.call (reserve (env.clock s.iteration) active)], raised))

/-- Tasks that share a deadline are queued without an exception, so a pass ends in one of the
    five ways of `Pass`. -/
theorem loopBody_pass (env : AutonomousEnv) {s : LoopState} {deadline : PyValue}
    (hd : ∀ task ∈ s.loopTasks, task.schedule.deadline = deadline) :
    Pass env s (loopBody env s) := by
  have hmem : ∀ task, task ∈ (s.loopTasks.insertionSort keyLe).filter (·.status = .ready) ↔
      task ∈ s.loopTasks ∧ task.status = .ready := by
    intro task
    simp [List.mem_filter]
  unfold loopBody
  rw [readyTasks_of_deadline hd]
  cases hq : (s.loopTasks.insertionSort keyLe).filter (·.status = .ready) with
  | nil =>
      refine .idle fun task htask hready => ?_
      have hin := (hmem task).mpr ⟨htask, hready⟩
      rw [hq] at hin
      exact List.not_mem_nil hin
  | cons active rest =>
      obtain ⟨hactive, hready⟩ := (hmem active).mp (by rw [hq]; exact List.mem_cons_self)
      dsimp only
      rw [decidePolicy_ready hready]
      by_cases hdeps : validateDependencies active s.completedIds
      · rw [if_pos hdeps]
        dsimp only
        cases hcall : env.outcome s.iteration with
        | ok _ => exact .finished active hactive hready hdeps hcall
        | error raised =>
            cases raised with
            | exception exc => exact .failed active exc hactive hready hdeps hcall
            | cancelledError => exact .raised active _ hactive hready hdeps hcall (by simp)
            | generatorExit => exact .raised active _ hactive hready hdeps hcall (by simp)
      · rw [if_neg hdeps]
        exact .blocked active hactive hready hdeps

/-- A pass that goes on is counted. -/
theorem loopBody_iteration (env : AutonomousEnv) {s t : LoopState} {deadline : PyValue}
    (hd : ∀ task ∈ s.loopTasks, task.schedule.deadline = deadline)
    (h : loopBody env s = .next t) : t.iteration = s.iteration + 1 := by
  have hpass := loopBody_pass env hd
  rw [h] at hpass
  cases hpass <;> rfl

/-- A pass reads the outcome of its own call only. -/
theorem loopBody_outcome (env : AutonomousEnv) (o : Nat → Except BaseExn Unit) (s : LoopState) :
    loopBody { env with outcome := o } s =
      loopBody { env with outcome := fun _ => o s.iteration } s := by
  unfold loopBody
  rfl

/-- The loop is over once no task is READY. -/
theorem loopBody_eq_stop (env : AutonomousEnv) {s : LoopState} {deadline : PyValue}
    (hd : ∀ task ∈ s.loopTasks, task.schedule.deadline = deadline)
    (hidle : ∀ task ∈ s.loopTasks, task.status ≠ .ready) : loopBody env s = .stop := by
  have hpass := loopBody_pass env hd
  generalize loopBody env s = pass at hpass ⊢
  cases hpass with
  | idle _ => rfl
  | blocked active hmem hready _ => exact absurd hready (hidle active hmem)
  | finished active hmem hready _ _ => exact absurd hready (hidle active hmem)
  | failed active _ hmem hready _ _ => exact absurd hready (hidle active hmem)
  | raised active _ hmem hready _ _ _ => exact absurd hready (hidle active hmem)

/-! ## The report -/

def progressPercent (completed total : Nat) : Rat :=
  roundDigits (if total = 0 then 100 else completed / total * 100) 2

/-- `AutonomousExecutionReport`. -/
structure AutonomousExecutionReport where
  goal : GoalReport
  tasks : List TaskReport
  completedTasks : List TaskReport
  failedTasks : List TaskReport
  blockedTasks : List TaskReport
  queueSnapshot : TaskQueueSnapshot
  progressPercent : Rat
  startedAt : String
  completedAt : String
  duration : Rat
  summary : String
  metadata : PyDict

/-- The goal is COMPLETED when nothing failed or blocked and all tasks are in `completed_tasks`. -/
def goalStatus (tasks : List TaskReport) (s : LoopState) : GoalLifecycleState :=
  if s.failedTasks.length = 0 ∧ s.blockedTasks.length = 0 ∧
      s.completedTasks.length = tasks.length then .completed
  else .active

/-- What follows the loop. -/
def finishGoal (env : AutonomousEnv) (goal : GoalReport) (organizationId : Int)
    (tasks : List TaskReport) (s : LoopState) : Except Exn AutonomousExecutionReport := do
  let snapshot ← queueSnapshot s.loopTasks
  let status := goalStatus tasks s
  return {
    goal := { goal with
      status := status
      completedAt :=
        if status = .completed then some env.completedAt.isoformat else goal.completedAt }
    tasks := s.loopTasks
    completedTasks := s.completedTasks
    failedTasks := s.failedTasks
    blockedTasks := s.blockedTasks
    queueSnapshot := snapshot
    progressPercent := progressPercent s.completedTasks.length tasks.length
    startedAt := env.startedAt.isoformat
    completedAt := env.completedAt.isoformat
    duration := (env.completedAt.micros - env.startedAt.micros : Int) / 1000000
    summary := "Executed " ++ toString s.completedTasks.length ++ " task(s) with " ++
      toString s.failedTasks.length ++ " failure(s)."
    metadata :=
      [("goal_id", match goal.goalId with | some id => .int id | none => .none),
        ("organization_id", .int organizationId), ("task_count", .int tasks.length)] }

/-- One run of `execute_goal`: the calls it made and its report, or what it raised. -/
structure GoalRun where
  calls : List ExecuteChatCall
  result : Except BaseExn AutonomousExecutionReport

/-- What the end of the loop makes of the run. -/
def endGoal (env : AutonomousEnv) (goal : GoalReport) (organizationId : Int)
    (tasks : List TaskReport) :
    Except (List ExecuteChatCall × BaseExn) LoopState → GoalRun
  | .ok s => ⟨s.calls, (finishGoal env goal organizationId tasks s).mapError .exception⟩
  | .error (calls, raised) => ⟨calls, .error raised⟩

/-- `AutonomousExecutionEngine.execute_goal`, with fuel for the loop. -/
def executeGoal (env : AutonomousEnv) (goal : GoalReport) (organizationId : Int) (fuel : Nat) :
    Option GoalRun :=
  let prioritized := do
    let tasks ← prioritizeTasks (splitGoal env.createdAt goal)
    let _ ← tasks.foldlM enqueue []
    return tasks
  match prioritized with
  | .error exc => some ⟨[], .error (.exception exc)⟩
  | .ok tasks =>
      (WhileLoop.run (loopBody env) fuel (loopStart tasks)).map
        (endGoal env goal organizationId tasks)

end AgentCorp.Runtime
