/-
  `AgentEngineService.execute_goal` as a runner: one commit or read of the rows at a time.

  * `goalRunner_lawful`: the final commit is the last one.
  * `goalRunner_alone`: with nobody else at the row, the runner does what `execute_goal` does.
-/
import AgentCorp.AgentEngine.AgentEngineService

namespace AgentCorp.AgentEngine

open AgentCorp.Python AgentCorp.Executions

/-! ## The runner -/

/-- Where `execute_goal` stands. Its state has the status of the execution as it was last read or
    set. -/
inductive GoalPc where
  /-- The new execution was committed and is read back. -/
  | created (s : GoalRunState)
  /-- `_execute_action` is called for a task. -/
  | starting (remaining : ℕ) (s : GoalRunState) (task : GoalTask)
  /-- The status of the task is committed. -/
  | savingTask (remaining : ℕ) (s : GoalRunState) (task : GoalTask) (output : Dict Json)
  /-- That commit is read back. -/
  | readingTask (remaining : ℕ) (s : GoalRunState) (task : GoalTask) (output : Dict Json)
  /-- The checkpoint is committed. -/
  | savingCheckpoint (remaining : ℕ) (s : GoalRunState) (task : GoalTask) (output : Dict Json)
  /-- That commit is read back. -/
  | readingCheckpoint (remaining : ℕ) (s : GoalRunState) (leaves : Bool)
  /-- The final status is committed. -/
  | finishing (s : GoalRunState)
  /-- That commit is read back. -/
  | finished (s : GoalRunState)
  /-- The status is copied to the goal, which is committed. -/
  | savingGoal (s : GoalRunState)
  /-- That commit is read back. -/
  | readingGoal (s : GoalRunState)
  | returned (s : GoalRunState)
  | raised (e : BaseExn)

/-- `refresh(execution)`, as far as other writers change the row. -/
def GoalRunState.refresh (s : GoalRunState) (status : ExecutionStatus) : GoalRunState :=
  { s with execution := { s.execution with status := status } }

/-- The head of the loop, with the iterations that are left. -/
def goalHead : ℕ → GoalRunState → GoalPc
  | 0, s => .finishing s
  | remaining + 1, s =>
      if s.goalAchieved then .finishing s
      else
        let s := counted s
        match s.tasks.find? (·.isOpen) with
        | none => .finishing s
        | some task => .starting remaining s task

/-- One step of `execute_goal` on the stored status. The status is written if it differs from the
    one in memory. -/
def goalStep (env : GoalEnv) : GoalPc → ExecutionStatus → Option (GoalPc × RunnerEvent)
  | .created s, status =>
      some (goalHead (max s.tasks.length 1) (s.refresh status), .idle)
  | .starting remaining s task, _ =>
      match actOn env s.iteration s.goal task with
      | .ok output => some (.savingTask remaining s task output, .started)
      | .error e => some (.raised e, .started)
  | .savingTask remaining s task output, _ =>
      some (.readingTask remaining s task output, .idle)
  | .readingTask remaining s task output, _ =>
      some (.savingCheckpoint remaining s task output, .idle)
  | .savingCheckpoint remaining s task output, _ =>
      some (.readingCheckpoint remaining (acted env s task output) (leavesLoop env s output), .idle)
  | .readingCheckpoint remaining s leaves, status =>
      some (if leaves then .finishing (s.refresh status) else goalHead remaining (s.refresh status),
        .idle)
  | .finishing s, _ =>
      let final := (finishGoal s).execution.status
      some (.finished (s.refresh final),
        if s.execution.status = final then .idle else .finished final)
  | .finished s, status => some (.savingGoal (s.refresh status), .idle)
  | .savingGoal s, _ =>
      some (.readingGoal { s with goal := { s.goal with status := s.execution.status.value } },
        .idle)
  | .readingGoal s, _ => some (.returned s, .idle)
  | .returned _, _ => none
  | .raised _, _ => none

def goalRunner (env : GoalEnv) : Runner GoalPc where
  step := goalStep env

/-- The final status was committed. -/
def GoalPc.Done : GoalPc → Prop
  | .finished _ => True
  | .savingGoal _ => True
  | .readingGoal _ => True
  | .returned _ => True
  | _ => False

theorem finishGoal_status (s : GoalRunState) :
    (finishGoal s).execution.status = .completed ∨ (finishGoal s).execution.status = .failed := by
  unfold finishGoal
  dsimp only
  split
  · exact .inl rfl
  · exact .inr rfl

/-- The final commit is the last one. -/
def goalRunner_lawful (env : GoalEnv) : (goalRunner env).Lawful where
  Done := GoalPc.Done
  finished := by
    intro pc status pc' final h
    cases pc with
    | finishing s =>
        obtain ⟨rfl, hevent⟩ := Prod.mk.inj (Option.some.inj h)
        split at hevent
        · cases hevent
        · obtain rfl := RunnerEvent.finished.inj hevent
          exact ⟨trivial, finishGoal_status s⟩
    | starting remaining s task =>
        unfold goalRunner goalStep at h
        dsimp only at h
        split at h <;> cases h
    | created s => cases h
    | savingTask remaining s task output => cases h
    | readingTask remaining s task output => cases h
    | savingCheckpoint remaining s task output => cases h
    | readingCheckpoint remaining s leaves => cases h
    | finished s => cases h
    | savingGoal s => cases h
    | readingGoal s => cases h
    | returned s => cases h
    | raised e => cases h
  done := by
    intro pc status pc' event hdone h
    cases pc with
    | finished s =>
        obtain ⟨rfl, rfl⟩ := Prod.mk.inj (Option.some.inj h)
        exact ⟨trivial, rfl⟩
    | savingGoal s =>
        obtain ⟨rfl, rfl⟩ := Prod.mk.inj (Option.some.inj h)
        exact ⟨trivial, rfl⟩
    | readingGoal s =>
        obtain ⟨rfl, rfl⟩ := Prod.mk.inj (Option.some.inj h)
        exact ⟨trivial, rfl⟩
    | returned s => cases h
    | created s => exact absurd hdone id
    | starting remaining s task => exact absurd hdone id
    | savingTask remaining s task output => exact absurd hdone id
    | readingTask remaining s task output => exact absurd hdone id
    | savingCheckpoint remaining s task output => exact absurd hdone id
    | readingCheckpoint remaining s leaves => exact absurd hdone id
    | finishing s => exact absurd hdone id
    | raised e => exact absurd hdone id

/-! ## Nobody else at the row -/

section Alone

variable {env : GoalEnv}

theorem refresh_self {s : GoalRunState} {status : ExecutionStatus}
    (h : s.execution.status = status) : s.refresh status = s := by
  rw [← h]
  rfl

/-- An iteration that acts on a task, up to the end of its checkpoint. -/
theorem alone_acted (remaining : ℕ) {s : GoalRunState} {task : GoalTask} {output : Dict Json}
    (hrunning : s.execution.status = .running)
    (hact : actOn env s.iteration s.goal task = .ok output) :
    (goalRunner env).Alone (.starting remaining s task, .running)
      (if leavesLoop env s output then .finishing (acted env s task output)
        else goalHead remaining (acted env s task output), .running) := by
  have hstart : (goalRunner env).step (.starting remaining s task) .running =
      some (.savingTask remaining s task output, .started) := by
    unfold goalRunner goalStep
    dsimp only
    rw [hact]
  have htask : (goalRunner env).step (.savingTask remaining s task output) .running =
      some (.readingTask remaining s task output, .idle) := rfl
  have hread : (goalRunner env).step (.readingTask remaining s task output) .running =
      some (.savingCheckpoint remaining s task output, .idle) := rfl
  have hcheckpoint : (goalRunner env).step (.savingCheckpoint remaining s task output) .running =
      some (.readingCheckpoint remaining (acted env s task output) (leavesLoop env s output),
        .idle) := rfl
  have hrefresh : (acted env s task output).refresh .running = acted env s task output :=
    refresh_self hrunning
  have hback : (goalRunner env).step
      (.readingCheckpoint remaining (acted env s task output) (leavesLoop env s output)) .running =
        some (if leavesLoop env s output then .finishing (acted env s task output)
          else goalHead remaining (acted env s task output), .idle) := by
    unfold goalRunner goalStep
    dsimp only
    rw [hrefresh]
  have hsaved := (Runner.alone_started hstart).trans
    ((Runner.alone_idle htask).trans (Runner.alone_idle hread))
  exact hsaved.trans ((Runner.alone_idle hcheckpoint).trans (Runner.alone_idle hback))

/-- The loop, from its head to the final commit. -/
theorem alone_loop (remaining : ℕ) {s r : GoalRunState} (hrunning : s.execution.status = .running)
    (h : goalLoop env remaining s = .ok r) :
    (goalRunner env).Alone (goalHead remaining s, .running) (.finishing r, .running) ∧
      r.execution.status = .running := by
  induction remaining generalizing s with
  | zero =>
      obtain rfl := Except.ok.inj h
      exact ⟨.refl, hrunning⟩
  | succ remaining ih =>
      rw [goalLoop] at h
      rw [goalHead]
      by_cases hachieved : s.goalAchieved
      · rw [if_pos hachieved] at h ⊢
        obtain rfl := Except.ok.inj h
        exact ⟨.refl, hrunning⟩
      · rw [if_neg hachieved] at h ⊢
        dsimp only at h ⊢
        cases hfind : (counted s).tasks.find? (·.isOpen) with
        | none =>
            rw [hfind] at h
            obtain rfl := Except.ok.inj h
            exact ⟨.refl, hrunning⟩
        | some task =>
            rw [hfind] at h
            obtain ⟨output, hact, h⟩ := Proc.bind_ok h
            have hacted := alone_acted remaining (s := counted s) hrunning hact
            split at h
            · next hleaves =>
                obtain rfl := Except.ok.inj h
                rw [if_pos hleaves] at hacted
                exact ⟨hacted, hrunning⟩
            · next hleaves =>
                rw [if_neg hleaves] at hacted
                obtain ⟨hrest, hr⟩ := ih (s := acted env (counted s) task output) hrunning h
                exact ⟨hacted.trans hrest, hr⟩

/-- With nobody else at the row, the runner returns what `execute_goal` returns, and leaves its
    status in the row. -/
theorem goalRunner_alone {goal : Goal} {tasks : List GoalTask} {r : GoalRunState}
    (h : executeGoal env (some goal) tasks = .ok r) :
    (goalRunner env).Alone (.created (startGoal goal tasks), .running)
      (.returned r, r.execution.status) := by
  obtain ⟨s, hloop, hr⟩ := Proc.bind_ok h
  obtain rfl := Except.ok.inj hr
  obtain ⟨hreach, hrunning⟩ := alone_loop (max tasks.length 1) (s := startGoal goal tasks) rfl hloop
  have hread : (goalRunner env).step (.created (startGoal goal tasks)) .running =
      some (goalHead (max tasks.length 1) (startGoal goal tasks), .idle) := rfl
  refine (Runner.alone_idle hread).trans (hreach.trans ?_)
  have hne : s.execution.status ≠ (finishGoal s).execution.status := by
    rw [hrunning]
    rcases finishGoal_status s with hfinal | hfinal <;> rw [hfinal] <;> decide
  have hfinish : (goalRunner env).step (.finishing s) .running =
      some (.finished (s.refresh (finishGoal s).execution.status),
        .finished (finishGoal s).execution.status) := by
    unfold goalRunner goalStep
    dsimp only
    rw [if_neg hne]
  have hback : (goalRunner env).step (.finished (s.refresh (finishGoal s).execution.status))
      (finishGoal s).execution.status =
        some (.savingGoal (s.refresh (finishGoal s).execution.status), .idle) := rfl
  have hgoal : (goalRunner env).step (.savingGoal (s.refresh (finishGoal s).execution.status))
      (finishGoal s).execution.status = some (.readingGoal (finishGoal s), .idle) := rfl
  have hend : (goalRunner env).step (.readingGoal (finishGoal s)) (finishGoal s).execution.status =
      some (.returned (finishGoal s), .idle) := rfl
  have hsaved := (Runner.alone_idle hgoal).trans (Runner.alone_idle hend)
  exact (Runner.alone_finished hfinish).trans ((Runner.alone_idle hback).trans hsaved)

end Alone

end AgentCorp.AgentEngine
