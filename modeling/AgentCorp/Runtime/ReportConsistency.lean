/-
  The lists of an autonomous report beside the statuses of its tasks.

  The loop records a task in a side list when a pass changes it. A task that `create_tasks` makes
  BLOCKED is never touched by a pass, so it is in no side list; no pass blocks a task, since the
  only READY one has no dependencies.

  * `sideLists_invariant`: what every pass keeps.
  * `loopEnd_consistent_iff`: after the loop, the lists agree with the statuses exactly if the goal
    was split into one task.
-/
import AgentCorp.Runtime.AutonomousLoop

namespace AgentCorp.Runtime

open AgentCorp.Python WhileLoop

/-! ## ResultAggregator -/

/-- The dictionary of `ResultAggregator.aggregate`. -/
structure Aggregation where
  goalId : Option Int
  completedTasks : List (Option String)
  failedTasks : List (Option String)
  blockedTasks : List (Option String)
  progressPercent : Rat
  summary : String
  provenance : PyDict

/-- `ResultAggregator.aggregate`. -/
def aggregate (report : AutonomousExecutionReport) : Aggregation where
  goalId := report.goal.goalId
  completedTasks := report.completedTasks.map TaskReport.taskId
  failedTasks := report.failedTasks.map TaskReport.taskId
  blockedTasks := report.blockedTasks.map TaskReport.taskId
  progressPercent := report.progressPercent
  summary := report.summary
  provenance := report.metadata

/-- The tasks of the report in one status. -/
def AutonomousExecutionReport.tasksIn (report : AutonomousExecutionReport)
    (status : TaskLifecycleState) : List TaskReport :=
  report.tasks.filter (·.status = status)

/-- The side lists are the tasks of the report in their status, and the snapshot of the queue and
    the aggregation say the same. -/
structure Consistent (report : AutonomousExecutionReport) : Prop where
  completed : report.completedTasks.Perm (report.tasksIn .completed)
  failed : report.failedTasks.Perm (report.tasksIn .failed)
  blocked : report.blockedTasks.Perm (report.tasksIn .blocked)
  completedCount : report.queueSnapshot.completedCount = (report.tasksIn .completed).length
  blockedCount : report.queueSnapshot.blockedCount = (report.tasksIn .blocked).length
  readyCount : report.queueSnapshot.readyCount = (report.tasksIn .ready).length
  completedIds : (aggregate report).completedTasks.Perm
    ((report.tasksIn .completed).map TaskReport.taskId)
  failedIds : (aggregate report).failedTasks.Perm ((report.tasksIn .failed).map TaskReport.taskId)
  blockedIds : (aggregate report).blockedTasks.Perm
    ((report.tasksIn .blocked).map TaskReport.taskId)

/-! ## Replacing one task -/

section Replace

variable {l : List TaskReport} {active : TaskReport} {f : TaskReport → TaskReport}

/-- Of tasks with distinct identifiers, one is replaced where it stands. -/
theorem replaceTask_append {before after : List TaskReport}
    (hnd : ((before ++ active :: after).map TaskReport.taskId).Nodup) :
    replaceTask active.taskId f (before ++ active :: after) = before ++ f active :: after := by
  rw [List.map_append, List.map_cons, List.nodup_append] at hnd
  obtain ⟨-, hcons, hdisjoint⟩ := hnd
  have hbefore : active.taskId ∉ before.map TaskReport.taskId := fun hmem =>
    hdisjoint _ hmem _ List.mem_cons_self rfl
  have hafter : active.taskId ∉ after.map TaskReport.taskId := (List.nodup_cons.mp hcons).1
  have hfirst := replaceTask_eq_self (f := f) hbefore
  have hlast := replaceTask_eq_self (f := f) hafter
  unfold replaceTask at *
  rw [List.map_append, List.map_cons, hfirst, hlast, if_pos rfl]

/-- Replacing the READY task `active` adds it to the tasks of its new status. -/
theorem filter_replaceTask (hnd : (l.map TaskReport.taskId).Nodup) (hmem : active ∈ l)
    (hready : active.status = .ready) {status : TaskLifecycleState} (hne : status ≠ .ready) :
    ((replaceTask active.taskId f l).filter (·.status = status)).Perm
      (l.filter (·.status = status) ++ if (f active).status = status then [f active] else []) := by
  obtain ⟨before, after, rfl⟩ := List.append_of_mem hmem
  have hold : (active :: after).filter (·.status = status) = after.filter (·.status = status) :=
    List.filter_cons_of_neg fun h => hne ((of_decide_eq_true h).symm.trans hready)
  rw [replaceTask_append hnd, List.filter_append, List.filter_append, hold]
  split
  · next h =>
      rw [List.filter_cons_of_pos (by simpa using h), List.append_assoc]
      exact (List.perm_append_singleton _ _).symm.append_left _
  · next h =>
      rw [List.filter_cons_of_neg (by simpa using h), List.append_nil]

end Replace

/-! ## The side lists -/

/-- What the side lists hold at the start of a pass. -/
structure SideLists (tasks : List TaskReport) (s : LoopState) : Prop where
  completed : s.completedTasks.Perm (s.loopTasks.filter (·.status = .completed))
  failed : s.failedTasks.Perm (s.loopTasks.filter (·.status = .failed))
  blocked : s.blockedTasks = []
  /-- The blocked tasks are those of the start. -/
  stuck : (s.loopTasks.filter (·.status = .blocked)).Perm (tasks.filter (·.status = .blocked))
  free : ∀ task ∈ s.loopTasks, task.status = .ready → task.dependencies = []

theorem SideLists.replace {tasks : List TaskReport} {s t : LoopState} (h : SideLists tasks s)
    (hnd : (s.loopTasks.map TaskReport.taskId).Nodup) {active : TaskReport}
    {f : TaskReport → TaskReport} (hmem : active ∈ s.loopTasks) (hready : active.status = .ready)
    (htasks : t.loopTasks = replaceTask active.taskId f s.loopTasks)
    (hcompleted : t.completedTasks =
      s.completedTasks ++ if (f active).status = .completed then [f active] else [])
    (hfailed : t.failedTasks =
      s.failedTasks ++ if (f active).status = .failed then [f active] else [])
    (hblocked : t.blockedTasks = s.blockedTasks) (hnew : (f active).status ≠ .blocked)
    (hspent : (f active).status ≠ .ready) : SideLists tasks t where
  completed := by
    rw [htasks, hcompleted]
    exact (h.completed.append_right _).trans (filter_replaceTask hnd hmem hready (by simp)).symm
  failed := by
    rw [htasks, hfailed]
    exact (h.failed.append_right _).trans (filter_replaceTask hnd hmem hready (by simp)).symm
  blocked := hblocked.trans h.blocked
  stuck := by
    have hne : TaskLifecycleState.blocked ≠ .ready := by decide
    have hfilter := filter_replaceTask (f := f) hnd hmem hready hne
    rw [if_neg hnew, List.append_nil] at hfilter
    rw [htasks]
    exact hfilter.trans h.stuck
  free := by
    intro task htask hstatus
    rw [htasks] at htask
    rcases mem_replaceTask htask with ⟨hold, -⟩ | ⟨old, hold, hid, rfl⟩
    · exact h.free task hold hstatus
    · rw [eq_of_taskId hnd hold hmem hid] at hstatus
      exact absurd hstatus hspent

/-- Every pass keeps the side lists. -/
theorem sideLists_invariant (env : AutonomousEnv) {tasks : List TaskReport} {deadline : PyValue}
    (hnd : (tasks.map TaskReport.taskId).Nodup) :
    Invariant (loopBody env) fun s => LoopInv tasks deadline s ∧ SideLists tasks s := by
  rintro s t ⟨hinv, h⟩ hstep
  refine ⟨loopInv_invariant env hnd s t hinv hstep, ?_⟩
  have hpass := loopBody_pass env hinv.tracks.deadline
  rw [hstep] at hpass
  have hnd' := hinv.tracks.nodup hnd
  cases hpass with
  | blocked active hmem hready hdeps =>
      -- A READY task without dependencies is not blocked by them.
      refine absurd ?_ hdeps
      simp [validateDependencies, h.free active hmem hready]
  | finished active hmem hready _ _ =>
      exact h.replace hnd' hmem hready rfl (by simp [LoopState.finish, completeTask])
        (by simp [LoopState.finish, completeTask]) rfl (by simp [completeTask])
        (by simp [completeTask])
  | failed active exc hmem hready _ _ =>
      exact h.replace hnd' hmem hready rfl (by simp [LoopState.fail]) (by simp [LoopState.fail])
        rfl (by simp) (by simp)

/-- The READY task of a fresh goal is the first one, which has no dependencies. -/
theorem sideLists_start (env : AutonomousEnv) (goal : GoalReport) :
    SideLists (goalTasks env goal) (loopStart (goalTasks env goal)) := by
  have hmem : ∀ task ∈ goalTasks env goal, task ∈ splitGoal env.createdAt goal :=
    fun task h => (goalTasks_perm env goal).mem_iff.mp h
  have hnone : ∀ status : TaskLifecycleState, status ≠ .ready → status ≠ .blocked →
      (goalTasks env goal).filter (·.status = status) = [] := by
    intro status hr hb
    refine List.filter_eq_nil_iff.mpr fun task htask heq => ?_
    have hstatus := of_decide_eq_true heq
    rcases mem_splitGoal_status (hmem task htask) with h | h
    · exact hr (hstatus.symm.trans h)
    · exact hb (hstatus.symm.trans h)
  refine ⟨?_, ?_, rfl, List.Perm.refl _, ?_⟩
  · simp only [loopStart, hnone .completed (by simp) (by simp)]
    exact List.Perm.refl _
  · simp only [loopStart, hnone .failed (by simp) (by simp)]
    exact List.Perm.refl _
  · intro task htask hready
    obtain ⟨index, -, rfl⟩ := List.mem_map.mp (hmem task htask)
    simp only [createTask] at hready ⊢
    by_cases hindex : index = 0
    · simp [hindex]
    · simp [hindex] at hready

/-! ## The report -/

/-- A goal is split into BLOCKED tasks besides the first, if into more than one. -/
theorem blocked_goalTasks_iff (env : AutonomousEnv) (goal : GoalReport) :
    (goalTasks env goal).filter (·.status = .blocked) = [] ↔
      (split goal.objective).length < 8 := by
  rw [← baseCount_eq_one_iff, List.filter_eq_nil_iff]
  constructor
  · intro h
    by_contra hne
    have hpos := baseCount_pos goal
    have hsecond : createTask env.createdAt goal 1 ∈ goalTasks env goal :=
      (goalTasks_perm env goal).mem_iff.mpr
        (List.mem_map.mpr ⟨1, List.mem_range.mpr (by omega), rfl⟩)
    exact h _ hsecond (by simp [createTask])
  · intro hcount task htask
    have hmem := (goalTasks_perm env goal).mem_iff.mp htask
    have honly : task = createTask env.createdAt goal 0 := by
      simpa [splitGoal, createTasks, hcount] using hmem
    simp [honly, createTask]

/-- **The end of the loop.** The report is consistent exactly if there is no BLOCKED task. -/
theorem loopEnd_consistent_iff {env : AutonomousEnv} {goal : GoalReport} {organizationId : Int}
    {deadline : PyValue} {s : LoopState} (hinv : LoopInv (goalTasks env goal) deadline s)
    (h : SideLists (goalTasks env goal) s) {report : AutonomousExecutionReport}
    (hreport : finishGoal env goal organizationId (goalTasks env goal) s = .ok report) :
    Consistent report ↔ (split goal.objective).length < 8 := by
  obtain ⟨queue, hqueue, hsnapshot⟩ := queueSnapshot_of_deadline hinv.tracks.deadline
  have hcount : ∀ status, queue.countP (·.status = status) =
      (s.loopTasks.filter (·.status = status)).length := by
    intro status
    rw [hqueue.countP_eq, List.countP_eq_length_filter]
  simp only [finishGoal, hsnapshot] at hreport
  cases hreport
  rw [← blocked_goalTasks_iff env]
  constructor
  · intro hconsistent
    have hblocked := hconsistent.blocked
    rw [AutonomousExecutionReport.tasksIn, h.blocked] at hblocked
    exact List.nil_perm.mp (hblocked.trans h.stuck)
  · intro hnone
    have hblocked : s.blockedTasks.Perm (s.loopTasks.filter (·.status = .blocked)) := by
      rw [h.blocked, List.nil_perm]
      exact List.perm_nil.mp (hnone ▸ h.stuck)
    exact
      { completed := h.completed
        failed := h.failed
        blocked := hblocked
        completedCount := hcount .completed
        blockedCount := hcount .blocked
        readyCount := hcount .ready
        completedIds := h.completed.map _
        failedIds := h.failed.map _
        blockedIds := hblocked.map _ }

/-- Every report of `execute_goal` is the end of a loop that kept the side lists. -/
theorem consistent_iff_of_executeGoal {env : AutonomousEnv} {goal : GoalReport}
    {organizationId : Int} {fuel : Nat} {r : GoalRun}
    (hrun : executeGoal env goal organizationId fuel = some r)
    {report : AutonomousExecutionReport} (hreport : r.result = .ok report) :
    Consistent report ↔ (split goal.objective).length < 8 := by
  rw [executeGoal_start] at hrun
  obtain ⟨e, hloop, rfl⟩ := Option.map_eq_some_iff.mp hrun
  cases e with
  | error e => simp [endGoal] at hreport
  | ok s =>
      have hreach := (run_ok hloop).1
      obtain ⟨hinv, hside⟩ := (sideLists_invariant env (goalTasks_nodup env goal)).of_reaches
        ⟨loopInv_start env goal, sideLists_start env goal⟩ hreach
      have hfinish : finishGoal env goal organizationId (goalTasks env goal) s = .ok report := by
        cases hend : finishGoal env goal organizationId (goalTasks env goal) s with
        | ok other => simpa [endGoal, hend, Except.mapError] using hreport
        | error exc => simp [endGoal, hend, Except.mapError] at hreport
      exact loopEnd_consistent_iff hinv hside hfinish

/-- Where every call succeeds, there is a report. -/
theorem exists_report {env : AutonomousEnv} (hok : ∀ n, env.outcome n = .ok ())
    (goal : GoalReport) (organizationId : Int) :
    ∃ fuel r report, executeGoal env goal organizationId fuel = some r ∧ r.result = .ok report := by
  obtain ⟨e, hrun, hend⟩ := executeGoal_eq env goal organizationId
  cases e with
  | ok s =>
      obtain ⟨report, hreport, -⟩ :=
        finishGoal_ok env goal organizationId (goalTasks env goal) hend.1.tracks.deadline
      refine ⟨_, _, report, hrun _ (Nat.lt_succ_self _), ?_⟩
      simp [endGoal, hreport, Except.mapError]
  | error e =>
      obtain ⟨-, -, -, n, hraised⟩ := hend
      rw [hok n] at hraised
      cases hraised

/-- An objective of eight words leaves a BLOCKED task that the report does not list as blocked. -/
theorem not_consistent_eight_words :
    ∃ fuel r report,
      executeGoal quietEnv (shipDocs "Write the release notes and publish the docs") 1 fuel =
        some r ∧ r.result = .ok report ∧ ¬ Consistent report := by
  have hquiet : ∀ n, quietEnv.outcome n = .ok () := fun _ => rfl
  obtain ⟨fuel, r, report, hrun, hreport⟩ :=
    exists_report hquiet (shipDocs "Write the release notes and publish the docs") 1
  refine ⟨fuel, r, report, hrun, hreport, ?_⟩
  rw [consistent_iff_of_executeGoal hrun hreport]
  decide

/-- **Consistent reports.** Whatever the goal and however the calls end, `execute_goal` returns or
    raises after finitely many passes, and what it reports is consistent exactly if the objective
    has fewer than eight words. -/
theorem executeGoal_consistent_iff (env : AutonomousEnv) (goal : GoalReport)
    (organizationId : Int) :
    ∃ r, (∀ fuel, (splitGoal env.createdAt goal).length < fuel →
        executeGoal env goal organizationId fuel = some r) ∧
      ∀ report, r.result = .ok report →
        (Consistent report ↔ (split goal.objective).length < 8) := by
  obtain ⟨e, hrun, -⟩ := executeGoal_eq env goal organizationId
  exact ⟨_, hrun, fun report hreport =>
    consistent_iff_of_executeGoal (hrun _ (Nat.lt_succ_self _)) hreport⟩

end AgentCorp.Runtime
