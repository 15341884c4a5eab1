/-
  What the autonomous loop guarantees, over every goal and every way its calls can end.

  `LoopInv` is the invariant: the identifiers never change, the three side lists agree with
  the statuses of the tasks, and a task that was called is no longer READY. The number of
  READY tasks bounds the passes.

  * `loopInv_invariant`: every pass keeps `LoopInv`.
  * `executeGoal_eq`: the run for every sufficient fuel, and the loop state it ended at.
  * `executeGoal_safe`: the loop terminates, calls each task at most once and only after its
    dependencies, loses no task, and reports COMPLETED exactly when all tasks are.
  * `executeGoal_progresses_iff`: when every call succeeds, the goal is completed exactly if
    its objective has fewer than eight words. A BLOCKED task never becomes READY.
-/
import AgentCorp.Runtime.AutonomousExecution

namespace AgentCorp.Runtime

open AgentCorp.Python WhileLoop

/-! ## The invariant -/

/-- How the list of tasks relates to the one the loop started with. -/
structure Tracks (tasks : List TaskReport) (deadline : PyValue) (l : List TaskReport) : Prop where
  ids : l.map TaskReport.taskId = tasks.map TaskReport.taskId
  deadline : ∀ task ∈ l, task.schedule.deadline = deadline
  /-- Only READY tasks are ever touched. -/
  frozen : ∀ task ∈ tasks, task.status ≠ .ready → task ∈ l

/-- The side lists count what the statuses say. -/
structure Accounts (s : LoopState) : Prop where
  completed : s.loopTasks.countP (·.status = .completed) = s.completedTasks.length
  failed : s.loopTasks.countP (·.status = .failed) = s.failedTasks.length
  blocked : s.blockedTasks.length ≤ s.loopTasks.countP (·.status = .blocked)

/-- The calls made so far. -/
structure CallsOk (s : LoopState) : Prop where
  nodup : (s.calls.map (·.task.taskId)).Nodup
  deps : ∀ call ∈ s.calls, validateDependencies call.task call.completedIds
  spent : ∀ call ∈ s.calls, ∀ task ∈ s.loopTasks,
    task.taskId = call.task.taskId → task.status ≠ .ready

structure LoopInv (tasks : List TaskReport) (deadline : PyValue) (s : LoopState) : Prop where
  tracks : Tracks tasks deadline s.loopTasks
  accounts : Accounts s
  calls : CallsOk s

section Replace

variable {tasks l m : List TaskReport} {deadline : PyValue} {active : TaskReport}
  {f : TaskReport → TaskReport}

theorem Tracks.nodup (hnd : (tasks.map TaskReport.taskId).Nodup) (h : Tracks tasks deadline l) :
    (l.map TaskReport.taskId).Nodup :=
  h.ids ▸ hnd

theorem Tracks.replace (hnd : (tasks.map TaskReport.taskId).Nodup) (h : Tracks tasks deadline l)
    (hmem : active ∈ l) (hready : active.status = .ready)
    (hm : m = replaceTask active.taskId f l) (hid : (f active).taskId = active.taskId)
    (hdl : (f active).schedule = active.schedule) : Tracks tasks deadline m where
  ids := by
    rw [hm, replaceTask_ids, h.ids]
    intro task htask heq
    rw [eq_of_taskId (h.nodup hnd) htask hmem heq, hid]
  deadline := by
    intro task htask
    rcases mem_replaceTask (hm ▸ htask) with ⟨hold, -⟩ | ⟨old, hold, heq, rfl⟩
    · exact h.deadline task hold
    · rw [eq_of_taskId (h.nodup hnd) hold hmem heq, hdl]
      exact h.deadline active hmem
  frozen := by
    intro task htask hstatus
    rw [hm]
    refine mem_replaceTask_of_ne (h.frozen task htask hstatus) fun heq => hstatus ?_
    rw [eq_of_taskId (h.nodup hnd) (h.frozen task htask hstatus) hmem heq, hready]

/-- Replacing the READY task `active` moves it into the count of its new status. -/
theorem countP_of_replace (hnd : (l.map TaskReport.taskId).Nodup) (hmem : active ∈ l)
    (hready : active.status = .ready) {status : TaskLifecycleState} (hne : status ≠ .ready) :
    (replaceTask active.taskId f l).countP (·.status = status) =
      l.countP (·.status = status) + if (f active).status = status then 1 else 0 := by
  have h := countP_replaceTask (fun task => task.status = status) (f := f) hnd hmem
  simp only [hready, decide_eq_true_eq, if_neg hne.symm] at h
  exact h

theorem countP_ready_of_replace (hnd : (l.map TaskReport.taskId).Nodup) (hmem : active ∈ l)
    (hready : active.status = .ready) (hm : m = replaceTask active.taskId f l)
    (hstatus : (f active).status ≠ .ready) :
    m.countP (·.status = .ready) < l.countP (·.status = .ready) := by
  have h := countP_replaceTask (fun task => task.status = .ready) (f := f) hnd hmem
  simp only [hready, decide_eq_true_eq, if_neg hstatus, if_true] at h
  rw [hm]
  omega

/-- A replacement that leaves `active` not READY takes no task back to READY. -/
theorem not_ready_of_replace (hnd : (l.map TaskReport.taskId).Nodup) (hmem : active ∈ l)
    (hstatus : (f active).status ≠ .ready) {id : Option String}
    (hspent : id = active.taskId ∨ ∀ task ∈ l, task.taskId = id → task.status ≠ .ready) :
    ∀ task ∈ replaceTask active.taskId f l, task.taskId = id → task.status ≠ .ready := by
  intro task htask heq
  rcases mem_replaceTask htask with ⟨hold, hne⟩ | ⟨old, hold, hold_id, rfl⟩
  · rcases hspent with rfl | hspent
    · exact absurd heq hne
    · exact hspent task hold heq
  · rwa [eq_of_taskId hnd hold hmem hold_id]

end Replace

theorem Accounts.replace {s t : LoopState} (h : Accounts s)
    (hnd : (s.loopTasks.map TaskReport.taskId).Nodup) {active : TaskReport}
    {f : TaskReport → TaskReport} (hmem : active ∈ s.loopTasks) (hready : active.status = .ready)
    (htasks : t.loopTasks = replaceTask active.taskId f s.loopTasks)
    (hc : t.completedTasks.length =
      s.completedTasks.length + if (f active).status = .completed then 1 else 0)
    (hf : t.failedTasks.length =
      s.failedTasks.length + if (f active).status = .failed then 1 else 0)
    (hb : t.blockedTasks.length =
      s.blockedTasks.length + if (f active).status = .blocked then 1 else 0) : Accounts t where
  completed := by
    rw [htasks, countP_of_replace hnd hmem hready (by simp), hc, h.completed]
  failed := by
    rw [htasks, countP_of_replace hnd hmem hready (by simp), hf, h.failed]
  blocked := by
    rw [htasks, countP_of_replace hnd hmem hready (by simp), hb]
    exact Nat.add_le_add_right h.blocked _

/-- Adding a call of a READY task that leaves it not READY keeps the facts about the calls. -/
theorem CallsOk.append {s t : LoopState} (h : CallsOk s)
    (hnd : (s.loopTasks.map TaskReport.taskId).Nodup) {active : TaskReport}
    {f : TaskReport → TaskReport} (hmem : active ∈ s.loopTasks) (hready : active.status = .ready)
    (hstatus : (f active).status ≠ .ready) {call : ExecuteChatCall}
    (hcall : call.task.taskId = active.taskId)
    (hdeps : validateDependencies call.task call.completedIds)
    (htasks : t.loopTasks = replaceTask active.taskId f s.loopTasks)
    (hcalls : t.calls = s.calls ++ [call]) : CallsOk t where
  nodup := by
    rw [hcalls, List.map_append, List.map_singleton, List.nodup_append_comm]
    refine List.nodup_cons.mpr ⟨fun hin => ?_, h.nodup⟩
    -- An earlier call of the same identifier would have left `active` not READY.
    obtain ⟨earlier, hearlier, heq⟩ := List.mem_map.mp hin
    exact h.spent earlier hearlier active hmem (hcall.symm.trans heq.symm) hready
  deps := by
    intro c hc
    rw [hcalls] at hc
    rcases List.mem_append.mp hc with hc | hc
    · exact h.deps c hc
    · obtain rfl := List.mem_singleton.mp hc
      exact hdeps
  spent := by
    intro c hc
    rw [hcalls] at hc
    rw [htasks]
    rcases List.mem_append.mp hc with hc | hc
    · exact not_ready_of_replace hnd hmem hstatus (Or.inr (h.spent c hc))
    · obtain rfl := List.mem_singleton.mp hc
      exact not_ready_of_replace hnd hmem hstatus (Or.inl hcall)

/-- Every pass keeps the invariant. -/
theorem loopInv_invariant (env : AutonomousEnv) {tasks : List TaskReport} {deadline : PyValue}
    (hnd : (tasks.map TaskReport.taskId).Nodup) :
    Invariant (loopBody env) (LoopInv tasks deadline) := by
  intro s t h hstep
  have hpass := loopBody_pass env h.tracks.deadline
  rw [hstep] at hpass
  have hnd' := h.tracks.nodup hnd
  cases hpass with
  | blocked active hmem hready _ =>
      refine ⟨h.tracks.replace hnd hmem hready rfl rfl rfl, ?_, h.calls.nodup, h.calls.deps, ?_⟩
      · exact h.accounts.replace hnd' hmem hready rfl (by simp [LoopState.block, LoopState.mark])
          (by simp [LoopState.block, LoopState.mark]) (by simp [LoopState.block])
      · intro call hcall
        exact not_ready_of_replace hnd' hmem (by simp) (Or.inr (h.calls.spent call hcall))
  | finished active hmem hready hdeps _ =>
      refine ⟨h.tracks.replace hnd hmem hready rfl rfl rfl, ?_, ?_⟩
      · exact h.accounts.replace hnd' hmem hready rfl (by simp [LoopState.finish, completeTask])
          (by simp [LoopState.finish, completeTask]) (by simp [LoopState.finish, completeTask])
      · exact h.calls.append hnd' hmem hready (by simp [completeTask]) rfl hdeps rfl rfl
  | failed active exc hmem hready hdeps _ =>
      refine ⟨h.tracks.replace hnd hmem hready rfl rfl rfl, ?_, ?_⟩
      · exact h.accounts.replace hnd' hmem hready rfl (by simp [LoopState.fail])
          (by simp [LoopState.fail]) (by simp [LoopState.fail])
      · exact h.calls.append hnd' hmem hready (by simp) rfl hdeps rfl rfl

/-- Every pass that continues takes one task out of READY. -/
theorem ready_decreases (env : AutonomousEnv) {tasks : List TaskReport} {deadline : PyValue}
    (hnd : (tasks.map TaskReport.taskId).Nodup) (s t : LoopState)
    (h : LoopInv tasks deadline s) (hstep : Steps (loopBody env) s t) :
    t.loopTasks.countP (·.status = .ready) < s.loopTasks.countP (·.status = .ready) := by
  have hpass := loopBody_pass env h.tracks.deadline
  rw [hstep] at hpass
  have hnd' := h.tracks.nodup hnd
  cases hpass with
  | blocked active hmem hready _ => exact countP_ready_of_replace hnd' hmem hready rfl (by simp)
  | finished active hmem hready _ _ =>
      exact countP_ready_of_replace hnd' hmem hready rfl (by simp [completeTask])
  | failed active exc hmem hready _ _ =>
      exact countP_ready_of_replace hnd' hmem hready rfl (by simp)

/-! ## The start and the end of the loop -/

/-- The tasks the loop starts with: those of the goal, in queue order. -/
def goalTasks (env : AutonomousEnv) (goal : GoalReport) : List TaskReport :=
  (splitGoal env.createdAt goal).insertionSort keyLe

theorem goalTasks_perm (env : AutonomousEnv) (goal : GoalReport) :
    (goalTasks env goal).Perm (splitGoal env.createdAt goal) :=
  List.perm_insertionSort _ _

theorem goalTasks_nodup (env : AutonomousEnv) (goal : GoalReport) :
    ((goalTasks env goal).map TaskReport.taskId).Nodup :=
  ((goalTasks_perm env goal).map _).nodup_iff.mpr (splitGoal_nodup _ _)

theorem loopInv_start (env : AutonomousEnv) (goal : GoalReport) :
    LoopInv (goalTasks env goal) (goal.metadata.get "deadline")
      (loopStart (goalTasks env goal)) := by
  have hmem : ∀ task ∈ goalTasks env goal, task ∈ splitGoal env.createdAt goal :=
    fun task h => (goalTasks_perm env goal).mem_iff.mp h
  have hzero : ∀ status : TaskLifecycleState, status ≠ .ready → status ≠ .blocked →
      (goalTasks env goal).countP (·.status = status) = 0 := by
    intro status hr hb
    refine List.countP_eq_zero.mpr fun task htask heq => ?_
    have hstatus := of_decide_eq_true heq
    rcases mem_splitGoal_status (hmem task htask) with h | h
    · exact hr (hstatus.symm.trans h)
    · exact hb (hstatus.symm.trans h)
  exact
    { tracks := ⟨rfl, fun task h => mem_splitGoal_deadline (hmem task h), fun _ h _ => h⟩
      accounts := ⟨hzero _ (by simp) (by simp), hzero _ (by simp) (by simp), Nat.zero_le _⟩
      calls := ⟨List.nodup_nil, by simp [loopStart], by simp [loopStart]⟩ }

/-- Every goal starts its loop: the tasks share their deadline, so queueing never raises. -/
theorem executeGoal_start (env : AutonomousEnv) (goal : GoalReport) (organizationId : Int)
    (fuel : Nat) :
    executeGoal env goal organizationId fuel =
      (run (loopBody env) fuel (loopStart (goalTasks env goal))).map
        (endGoal env goal organizationId (goalTasks env goal)) := by
  have hsort : prioritizeTasks (splitGoal env.createdAt goal) = .ok (goalTasks env goal) :=
    ordered_of_deadline fun task h => mem_splitGoal_deadline h
  obtain ⟨queue, -, hqueue⟩ := foldlM_enqueue (loopInv_start env goal).tracks.deadline
  have hqueue' : (goalTasks env goal).foldlM enqueue [] = .ok queue := hqueue
  simp only [executeGoal, hsort, bind, Except.bind, hqueue', pure, Except.pure]

/-- How the loop of one goal ends, for every fuel above the number of its tasks. -/
theorem executeGoal_eq (env : AutonomousEnv) (goal : GoalReport) (organizationId : Int) :
    ∃ r, (∀ fuel, (splitGoal env.createdAt goal).length < fuel →
        executeGoal env goal organizationId fuel =
          some (endGoal env goal organizationId (goalTasks env goal) r)) ∧
      match r with
      | .ok s => LoopInv (goalTasks env goal) (goal.metadata.get "deadline") s ∧
          ∀ task ∈ s.loopTasks, task.status ≠ .ready
      | .error (calls, raised) => (calls.map (·.task.taskId)).Nodup ∧
          (∀ call ∈ calls, validateDependencies call.task call.completedIds) ∧
          (∀ exc, raised ≠ .exception exc) ∧ ∃ n, env.outcome n = .error raised := by
  have hnd := goalTasks_nodup env goal
  obtain ⟨r, hrun, hend⟩ := exists_run (loopInv_invariant env hnd) _ (ready_decreases env hnd)
    (loopInv_start env goal)
  refine ⟨r, fun fuel hfuel => ?_, ?_⟩
  · -- At most every task is READY at the start.
    have hle : (goalTasks env goal).countP (·.status = .ready) ≤
        (splitGoal env.createdAt goal).length :=
      (goalTasks_perm env goal).length_eq ▸ List.countP_le_length
    rw [executeGoal_start, hrun fuel (Nat.lt_of_le_of_lt hle hfuel)]
    rfl
  · cases r with
    | ok s =>
        obtain ⟨-, hinv, hstop⟩ := hend
        have hpass := loopBody_pass env hinv.tracks.deadline
        rw [hstop] at hpass
        cases hpass with
        | idle hidle => exact ⟨hinv, hidle⟩
    | error e =>
        obtain ⟨s, -, hinv, hthrow⟩ := hend
        have hpass := loopBody_pass env hinv.tracks.deadline
        rw [hthrow] at hpass
        cases hpass with
        | raised active raised hmem hready hdeps hcall hbase =>
            -- The calls are those after a pass that records a failure of the same call.
            have hcalls : CallsOk (s.fail ((env.clock s.iteration).skip 1)
                (reserve (env.clock s.iteration) active) .notImplemented) :=
              hinv.calls.append (hinv.tracks.nodup hnd) hmem hready (by simp) rfl hdeps rfl rfl
            exact ⟨hcalls.nodup, hcalls.deps, hbase, _, hcall⟩

theorem finishGoal_ok (env : AutonomousEnv) (goal : GoalReport) (organizationId : Int)
    (tasks : List TaskReport) {deadline : PyValue} {s : LoopState}
    (hd : ∀ task ∈ s.loopTasks, task.schedule.deadline = deadline) :
    ∃ report, finishGoal env goal organizationId tasks s = .ok report ∧
      report.tasks = s.loopTasks ∧ report.goal.status = goalStatus tasks s ∧
      report.progressPercent = progressPercent s.completedTasks.length tasks.length := by
  obtain ⟨queue, -, hqueue⟩ := queueSnapshot_of_deadline hd
  simp only [finishGoal, hqueue]
  exact ⟨_, rfl, rfl, rfl, rfl⟩

/-- The goal status, computed from the side lists, says whether all tasks are COMPLETED. -/
theorem goalStatus_eq_completed_iff {tasks : List TaskReport} {deadline : PyValue}
    {s : LoopState} (h : LoopInv tasks deadline s) :
    goalStatus tasks s = .completed ↔ ∀ task ∈ s.loopTasks, task.status = .completed := by
  have hlen : s.loopTasks.length = tasks.length := by
    simpa using congrArg List.length h.tracks.ids
  have hall : (∀ task ∈ s.loopTasks, task.status = .completed) ↔
      s.completedTasks.length = tasks.length := by
    rw [← h.accounts.completed, ← hlen, List.countP_eq_length]
    simp
  have hstatus : goalStatus tasks s = .completed ↔ s.failedTasks.length = 0 ∧
      s.blockedTasks.length = 0 ∧ s.completedTasks.length = tasks.length := by
    unfold goalStatus
    split <;> simp_all
  rw [hstatus, hall]
  refine ⟨fun hc => hc.2.2, fun hc => ?_⟩
  -- A list of COMPLETED tasks counts no FAILED and no BLOCKED one.
  have hzero : ∀ status, status ≠ .completed → s.loopTasks.countP (·.status = status) = 0 := by
    intro status hne
    refine List.countP_eq_zero.mpr fun task htask heq => hne ?_
    rw [← of_decide_eq_true heq, hall.mpr hc task htask]
  have hfailed := h.accounts.failed
  have hblocked := h.accounts.blocked
  rw [hzero .failed (by simp)] at hfailed
  rw [hzero .blocked (by simp)] at hblocked
  exact ⟨hfailed.symm, Nat.le_zero.mp hblocked, hc⟩

/-! ## Safety -/

/-- **Safety of the autonomous loop.** Whatever the goal and however the calls end, the loop
    terminates; it calls each task at most once, after all its dependencies were completed; at
    every pass it holds the tasks of `splitGoal`; and its report says COMPLETED exactly when
    all tasks are. Only an exception outside `Exception` prevents the report. -/
theorem executeGoal_safe (env : AutonomousEnv) (goal : GoalReport) (organizationId : Int) :
    ∃ r : GoalRun,
      (∀ fuel, (splitGoal env.createdAt goal).length < fuel →
        executeGoal env goal organizationId fuel = some r) ∧
      (r.calls.map (·.task.taskId)).Nodup ∧
      (∀ call ∈ r.calls, ∀ dep ∈ call.task.dependencies, dep.taskId ∈ call.completedIds) ∧
      (∀ s, Reaches (loopBody env) (loopStart (goalTasks env goal)) s →
        (s.loopTasks.map TaskReport.taskId).Perm
          ((splitGoal env.createdAt goal).map TaskReport.taskId)) ∧
      match r.result with
      | .ok report =>
          (report.tasks.map TaskReport.taskId).Perm
            ((splitGoal env.createdAt goal).map TaskReport.taskId) ∧
          (report.goal.status = .completed ↔ ∀ task ∈ report.tasks, task.status = .completed)
      | .error raised => (∀ exc, raised ≠ .exception exc) ∧ ∃ n, env.outcome n = .error raised := by
  have hnd := goalTasks_nodup env goal
  have hperm : ∀ {s : LoopState}, LoopInv (goalTasks env goal) (goal.metadata.get "deadline") s →
      (s.loopTasks.map TaskReport.taskId).Perm
        ((splitGoal env.createdAt goal).map TaskReport.taskId) := by
    intro s h
    rw [h.tracks.ids]
    exact (goalTasks_perm env goal).map _
  have hreach : ∀ s, Reaches (loopBody env) (loopStart (goalTasks env goal)) s →
      (s.loopTasks.map TaskReport.taskId).Perm
        ((splitGoal env.createdAt goal).map TaskReport.taskId) := fun s hs =>
    hperm ((loopInv_invariant env hnd).of_reaches (loopInv_start env goal) hs)
  obtain ⟨r, hrun, hend⟩ := executeGoal_eq env goal organizationId
  refine ⟨_, hrun, ?_⟩
  cases r with
  | ok s =>
      obtain ⟨hinv, -⟩ := hend
      obtain ⟨report, hreport, htasks, hstatus, -⟩ :=
        finishGoal_ok env goal organizationId (goalTasks env goal) hinv.tracks.deadline
      simp only [endGoal, hreport, Except.mapError]
      refine ⟨hinv.calls.nodup, ?_, hreach, ?_, ?_⟩
      · intro call hcall dep hdep
        simpa using List.all_eq_true.mp (hinv.calls.deps call hcall) dep hdep
      · rw [htasks]
        exact hperm hinv
      · rw [htasks, hstatus]
        exact goalStatus_eq_completed_iff hinv
  | error e =>
      obtain ⟨calls, raised⟩ := e
      obtain ⟨hnodup, hdeps, hbase, hraised⟩ := hend
      refine ⟨hnodup, ?_, hreach, hbase, hraised⟩
      intro call hcall dep hdep
      simpa using List.all_eq_true.mp (hdeps call hcall) dep hdep

/-! ## Progress -/

/-- The goal is carried out: every task of `splitGoal` is called, in the order of their
    dependencies, and the report says COMPLETED and 100 percent. -/
def Progresses (env : AutonomousEnv) (goal : GoalReport) (organizationId : Int) : Prop :=
  ∃ r report,
    (∀ fuel, (splitGoal env.createdAt goal).length < fuel →
      executeGoal env goal organizationId fuel = some r) ∧
    r.result = .ok report ∧
    r.calls.map (·.task.taskId) = (splitGoal env.createdAt goal).map TaskReport.taskId ∧
    report.goal.status = .completed ∧ report.progressPercent = 100

/-- A goal of two or more tasks is never carried out: its second task stays BLOCKED. -/
theorem not_progresses (env : AutonomousEnv) {goal : GoalReport} (organizationId : Int)
    (hcount : 1 < baseCount goal) : ¬ Progresses env goal organizationId := by
  rintro ⟨r, report, hrun, hresult, -, hcompleted, -⟩
  obtain ⟨e, hrun', hend⟩ := executeGoal_eq env goal organizationId
  obtain rfl : endGoal env goal organizationId (goalTasks env goal) e = r := by
    have h := hrun _ (Nat.lt_succ_self _)
    rw [hrun' _ (Nat.lt_succ_self _)] at h
    exact Option.some.inj h
  cases e with
  | error e => simp [endGoal] at hresult
  | ok s =>
      obtain ⟨hinv, -⟩ := hend
      obtain ⟨report', hreport, -, hstatus, -⟩ :=
        finishGoal_ok env goal organizationId (goalTasks env goal) hinv.tracks.deadline
      simp only [endGoal, hreport, Except.mapError, Except.ok.injEq] at hresult
      rw [← hresult, hstatus, goalStatus_eq_completed_iff hinv] at hcompleted
      -- The second task starts BLOCKED, so no pass touches it.
      have hsecond : createTask env.createdAt goal 1 ∈ goalTasks env goal :=
        (goalTasks_perm env goal).mem_iff.mpr
          (List.mem_map.mpr ⟨1, List.mem_range.mpr hcount, rfl⟩)
      have hblocked : (createTask env.createdAt goal 1).status ≠ .ready := by simp [createTask]
      have := hcompleted _ (hinv.tracks.frozen _ hsecond hblocked)
      simp [createTask] at this

theorem progressPercent_self {total : Nat} (h : 0 < total) : progressPercent total total = 100 := by
  have hpercent : ((total : Rat) / total * 100) = 100 := by
    rw [div_self (by exact_mod_cast h.ne'), one_mul]
  have hfloor : ⌊(100 : Rat) * 10 ^ 2⌋ = 10000 := by norm_num
  simp only [progressPercent, if_neg h.ne', hpercent, roundDigits, hfloor]
  norm_num

/-- A goal of one task is carried out in one pass, if the call succeeds. -/
theorem progresses_of_single {env : AutonomousEnv} {goal : GoalReport} (organizationId : Int)
    (hcount : baseCount goal = 1) (hok : env.outcome 0 = .ok ()) :
    Progresses env goal organizationId := by
  have hsplit : splitGoal env.createdAt goal = [createTask env.createdAt goal 0] := by
    simp [splitGoal, createTasks, hcount]
  have htasks : goalTasks env goal = [createTask env.createdAt goal 0] := by
    simp [goalTasks, hsplit]
  -- The first pass calls the task, the second finds none that is READY.
  have hfirst : ∃ s, loopBody env (loopStart (goalTasks env goal)) = .next s ∧
      s.completedTasks.length = 1 ∧ s.calls.map (·.task.taskId) = [some (taskId goal 1)] ∧
      ∀ task ∈ s.loopTasks, task.status = .completed := by
    have hpass := loopBody_pass env (loopInv_start env goal).tracks.deadline
    have hin : ∀ task ∈ (loopStart (goalTasks env goal)).loopTasks,
        task = createTask env.createdAt goal 0 := by
      simp [loopStart, htasks]
    generalize loopBody env (loopStart (goalTasks env goal)) = pass at hpass ⊢
    cases hpass with
    | idle hidle =>
        exact absurd rfl (hidle (createTask env.createdAt goal 0) (by simp [loopStart, htasks]))
    | blocked active hmem _ hdeps =>
        rw [hin active hmem] at hdeps
        exact absurd rfl hdeps
    | finished active hmem _ _ _ =>
        rw [hin active hmem]
        refine ⟨_, rfl, rfl, rfl, fun task htask => ?_⟩
        rcases mem_replaceTask htask with ⟨hold, hne⟩ | ⟨_, _, _, rfl⟩
        · exact absurd (congrArg TaskReport.taskId (hin task hold)) hne
        · rfl
    | failed _ _ _ _ _ hcall => simp [loopStart, hok] at hcall
    | raised _ _ _ _ _ hcall _ => simp [loopStart, hok] at hcall
  obtain ⟨s, hnext, hlen, hcalls, hdone⟩ := hfirst
  have hinv := loopInv_invariant env (goalTasks_nodup env goal) _ s (loopInv_start env goal) hnext
  have hstop : loopBody env s = .stop :=
    loopBody_eq_stop env hinv.tracks.deadline fun task htask => by simp [hdone task htask]
  obtain ⟨report, hreport, -, hstatus, hprogress⟩ :=
    finishGoal_ok env goal organizationId (goalTasks env goal) hinv.tracks.deadline
  refine ⟨⟨s.calls, .ok report⟩, report, fun fuel hfuel => ?_, rfl, ?_, ?_, ?_⟩
  · obtain ⟨n, rfl⟩ : ∃ n, fuel = n + 2 := ⟨fuel - 2, by simp [hsplit] at hfuel; omega⟩
    rw [executeGoal_start, run_next hnext, run_stop hstop]
    simp [endGoal, hreport, Except.mapError]
  · rw [hcalls, hsplit]
    rfl
  · rw [hstatus, goalStatus_eq_completed_iff hinv]
    exact hdone
  · rw [hprogress, hlen, htasks]
    exact progressPercent_self Nat.one_pos

/-- A clock that stands still, and calls that all succeed. -/
def quietEnv : AutonomousEnv where
  startedAt := ⟨0, "2026-01-01T00:00:00+00:00"⟩
  createdAt := ⟨0, "2026-01-01T00:00:00+00:00"⟩
  completedAt := ⟨0, "2026-01-01T00:00:00+00:00"⟩
  clock := fun _ _ => ⟨0, "2026-01-01T00:00:00+00:00"⟩
  outcome := fun _ => .ok ()

/-- A goal with the given objective and no metadata. -/
def shipDocs (objective : String) : GoalReport where
  goalId := some 22
  title := "Ship docs"
  description := some "Ship docs"
  objective := objective
  ownerId := some 1
  organizationId := some 1
  priority := .high
  status := .ready
  dependencies := []
  parentGoalId := none
  childGoalIds := []
  milestones := []
  createdAt := "2026-01-01T00:00:00+00:00"
  updatedAt := "2026-01-01T00:00:00+00:00"
  completedAt := none
  metadata := []

/-- An objective of eight words is split into two tasks, and the second is never called. -/
theorem eight_words_not_progresses :
    (∀ n, quietEnv.outcome n = .ok ()) ∧
      ¬ Progresses quietEnv (shipDocs "Write the release notes and publish the docs") 1 :=
  ⟨fun _ => rfl, not_progresses quietEnv 1 (by decide)⟩

/-- **Progress.** When every call succeeds, the goal is carried out exactly if its objective
    has fewer than eight words, that is, if it is split into one task. -/
theorem executeGoal_progresses_iff (env : AutonomousEnv) (goal : GoalReport)
    (organizationId : Int) (hok : ∀ n, env.outcome n = .ok ()) :
    Progresses env goal organizationId ↔ (split goal.objective).length < 8 := by
  rw [← baseCount_eq_one_iff]
  constructor
  · intro h
    by_contra hne
    have := baseCount_pos goal
    exact not_progresses env organizationId (by omega) h
  · intro hcount
    exact progresses_of_single organizationId hcount (hok 0)

theorem four_words_progresses :
    Progresses quietEnv (shipDocs "Plan docs release now") 1 :=
  (executeGoal_progresses_iff quietEnv (shipDocs "Plan docs release now") 1 fun _ => rfl).mpr
    (by decide)

end AgentCorp.Runtime
