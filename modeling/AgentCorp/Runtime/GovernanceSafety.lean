/-
  Governance over sequences of calls: which calls let the V2 runtime dispatch a payload that
  was not governed?

  Each call of the router, and each task that the autonomous loop runs, adds runs of the V2
  runtime to the world, and `RunShape` says what one such run records. The V2 runtime decides
  whether to govern by the payload's own version, the router picks the runtime by its argument.

  * `v2ExecuteChat_runs`, `v2ExecuteStream_runs`: every run has the shape.
  * `v2ExecuteAutonomousGoal_executes`: the autonomous entry point ends as `executeGoal` does.
  * `perform_governed_iff`: a call keeps governance exactly if it is not a bypass.
  * `calls_governed_iff`: so does every sequence of calls.
-/
import AgentCorp.Runtime.AutonomousLoop
import AgentCorp.Runtime.Refinement

namespace AgentCorp.Runtime

open AgentCorp.Python

variable {δ ρ : Type}

/-! ## Calls -/

/-- The call that the pass at `s` makes, if it makes one. -/
def pendingCall (goalEnv : AutonomousEnv) (s : LoopState) : Option ExecuteChatCall :=
  match readyTasks s.loopTasks with
  | .ok (active :: _) =>
      if (decidePolicy active s.completedIds).decision = .executable then
        some (s.call (reserve (goalEnv.clock s.iteration) active))
      else none
  | _ => none

/-- A call of `runtime_v2.execute_chat` by the autonomous loop. -/
def executeTask (env : RuntimeEnv) (services : Services δ ρ) (user : User) (organizationId : Int)
    (call : ExecuteChatCall) : Py (World δ) Unit := do
  let _ ← v2ExecuteChat env services (.task call.payload) user organizationId none
  return ()

/-- The call of the pass at `s`, executed. -/
def executePending (env : RuntimeEnv) (services : Services δ ρ) (goalEnv : AutonomousEnv)
    (user : User) (organizationId : Int) (s : LoopState) : Py (World δ) Unit :=
  match pendingCall goalEnv s with
  | some call => executeTask env services user organizationId call
  | none => pure ()

/-- One pass of the autonomous loop over the V2 runtime: its call, which has an environment of
    its own, ends as that runtime's `execute_chat` does. -/
def goalBody (env : Nat → RuntimeEnv) (services : Services δ ρ) (goalEnv : AutonomousEnv)
    (user : User) (organizationId : Int) (s : LoopState × World δ) :
    WhileLoop.Iter (LoopState × World δ) ((List ExecuteChatCall × BaseExn) × World δ) :=
  let task := executePending (env s.1.iteration) services goalEnv user organizationId s.1
  let w := Proc.after task s.2
  match loopBody { goalEnv with outcome := fun _ => Proc.outcome task s.2 } s.1 with
  | .stop => .stop
  | .next t => .next (t, w)
  | .throw thrown => .throw (thrown, w)

/-- `V2Runtime.execute_autonomous_goal`, for its effect on the world. -/
def v2ExecuteAutonomousGoal (env : Nat → RuntimeEnv) (services : Services δ ρ)
    (goalEnv : AutonomousEnv) (goal : GoalReport) (user : User) (organizationId : Int) :
    Py (World δ) Unit := fun w =>
  match WhileLoop.run (goalBody env services goalEnv user organizationId)
      ((splitGoal goalEnv.createdAt goal).length + 1) (loopStart (goalTasks goalEnv goal), w) with
  | some (.ok (_, w')) => .ok () w'
  | some (.error ((_, raised), w')) => .error raised w'
  | none => .ok () w

/-- A call of the router or of the autonomous entry point, each with its own environment. -/
inductive RuntimeCall where
  | chat (env : RuntimeEnv) (runtimeVersion : Option String) (payload : Payload) (user : User)
      (organizationId : Int) (conversationId : Option Int)
  | stream (env : RuntimeEnv) (runtimeVersion : Option String) (payload : Payload) (user : User)
      (organizationId : Int) (conversationId : Option Int)
  | autonomous (env : Nat → RuntimeEnv) (goalEnv : AutonomousEnv) (goal : GoalReport)
      (user : User) (organizationId : Int)

def perform (services : Services δ ρ) : RuntimeCall → Py (World δ) Unit
  | .chat env runtimeVersion payload user organizationId conversationId => do
      let _ ← routerExecuteChat env services runtimeVersion payload user organizationId
        conversationId
      return ()
  | .stream env runtimeVersion payload user organizationId conversationId =>
      routerExecuteStream env services runtimeVersion payload user organizationId conversationId
  | .autonomous env goalEnv goal user organizationId =>
      v2ExecuteAutonomousGoal env services goalEnv goal user organizationId

/-- The calls in order. What one raises goes to its caller; the next one finds its effects. -/
def performAll (services : Services δ ρ) (calls : List RuntimeCall) (w : World δ) : World δ :=
  calls.foldl (fun w call => Proc.after (perform services call) w) w

/-- Every dispatch of a run comes after a report that allowed the same payload, user and
    organization. -/
def GovernedRun (run : List RuntimeEvent) : Prop :=
  ∀ earlier later payload user organizationId task,
    run = earlier ++ .dispatched payload user organizationId task :: later →
    ∃ report, .governed payload user organizationId report ∈ earlier ∧ report.decision.allowed

def AllGoverned (runs : List (List RuntimeEvent)) : Prop :=
  ∀ run ∈ runs, GovernedRun run

/-- A payload that the V2 runtime dispatches without governing it: it has a message, and does
    not declare V2. -/
def Ungoverned (payload : Payload) : Prop :=
  payload.declaredVersion ≠ "AgentCorp V2" ∧ payload.message.isSome

/-- A router call whose argument picks the V2 runtime for such a payload. -/
def Bypass : RuntimeCall → Prop
  | .chat _ runtimeVersion payload _ _ _ => resolvesToV2 runtimeVersion ∧ Ungoverned payload
  | .stream _ runtimeVersion payload _ _ _ => resolvesToV2 runtimeVersion ∧ Ungoverned payload
  | .autonomous _ _ _ _ _ => False

/-! ## Frames -/

/-- The current run only gets publications, and no other run changes. -/
def OnlyPublishes (w w' : World δ) : Prop :=
  ∀ run rest, w.runs = run :: rest →
    ∃ later, (∀ event ∈ later, ∃ r, event = .published r) ∧ w'.runs = (run ++ later) :: rest

theorem OnlyPublishes.of_runs_eq {w w' : World δ} (h : w'.runs = w.runs) : OnlyPublishes w w' := by
  intro run rest hw
  exact ⟨[], by simp, by rw [h, hw, List.append_nil]⟩

instance : IsPreorder (World δ) OnlyPublishes where
  refl w := .of_runs_eq rfl
  trans w₁ w₂ w₃ h₁ h₂ := by
    intro run rest hw
    obtain ⟨earlier, hearlier, hrun⟩ := h₁ run rest hw
    obtain ⟨later, hlater, hrun'⟩ := h₂ _ rest hrun
    refine ⟨earlier ++ later, ?_, by rw [hrun', List.append_assoc]⟩
    intro event hevent
    rcases List.mem_append.mp hevent with hin | hin
    · exact hearlier event hin
    · exact hlater event hin

theorem onDb_runs {α : Type} (p : Py δ α) (w : World δ) :
    (Proc.after (onDb p) w).runs = w.runs := by
  unfold Proc.after EStateM.run onDb
  cases p.run w.db <;> rfl

theorem onDb_onlyPublishes {α : Type} (p : Py δ α) :
    Proc.Within OnlyPublishes (onDb p : Py (World δ) α) :=
  fun w => .of_runs_eq (onDb_runs p w)

theorem forward_onlyPublishes (generator : δ → StreamRun × δ) :
    Proc.Within OnlyPublishes (forward generator : Py (World δ) Unit) := by
  intro w
  rw [forward_after]
  exact .of_runs_eq rfl

theorem publish_onlyPublishes (run : ExecutionRun) :
    Proc.Within OnlyPublishes (record (.published run) : Py (World δ) Unit) := by
  refine Proc.Within.modify fun w current rest hw => ⟨[.published run], by simp, ?_⟩
  rw [hw, recordIn_cons]

theorem countChunks_onlyPublishes (generator : δ → StreamRun × δ) :
    Proc.Within OnlyPublishes (countChunks generator : Py (World δ) (Reply ρ)) := by
  intro w
  refine .of_runs_eq ?_
  unfold Proc.after EStateM.run countChunks
  cases h : (generator w.db).1.ending <;> simp [h]

theorem nativeExecute_onlyPublishes (services : Services δ ρ) (capabilityId : String)
    (task : ExecutionTask) (payload : Payload) (user : User) (organizationId : Int)
    (conversationId : Option Int) :
    Proc.Within OnlyPublishes
      (nativeExecute services capabilityId task payload user organizationId conversationId) := by
  unfold nativeExecute
  by_cases hprovider : capabilityId = "provider"
  · rw [if_pos hprovider]
    exact (onDb_onlyPublishes _).bind fun _ => .pure _
  rw [if_neg hprovider]
  by_cases hstreaming : capabilityId = "streaming"
  · rw [if_pos hstreaming]
    exact countChunks_onlyPublishes _
  · rw [if_neg hstreaming]
    exact (onDb_onlyPublishes _).bind fun _ => .pure _

theorem answerTask_onlyPublishes (env : RuntimeEnv) (services : Services δ ρ) (payload : Payload)
    (user : User) (organizationId : Int) (conversationId : Option Int) (task : ExecutionTask) :
    Proc.Within OnlyPublishes
      (answerTask env services payload user organizationId conversationId task) := by
  unfold answerTask
  cases resolvesNatively env.L task with
  | some metadata => exact nativeExecute_onlyPublishes services _ task payload user _ _
  | none => exact (onDb_onlyPublishes _).bind fun _ => .pure _

/-! ## The shape of a run -/

/-- What a run of the V2 runtime records: the governance of a payload that declares V2 and,
    if the payload is admitted and has a message, one dispatch between publications. -/
def RunShape (env : RuntimeEnv) (payload : Payload) (user : User) (organizationId : Int)
    (run : List RuntimeEvent) : Prop :=
  (¬ (Admitted env payload user organizationId ∧ payload.message.isSome) ∧
    run = governedEvents env payload user organizationId) ∨
  (Admitted env payload user organizationId ∧ payload.message.isSome ∧
    ∃ first task later, (∀ event ∈ later, ∃ r, event = .published r) ∧
      run = governedEvents env payload user organizationId ++
        .published first :: .dispatched payload user organizationId task :: later)

/-- A payload that is rejected, or has no message, gets no further than its governance. -/
theorem prepareExecution_stops (env : RuntimeEnv) {payload : Payload} {user : User}
    {organizationId : Int}
    (h : ¬ (Admitted env payload user organizationId ∧ payload.message.isSome)) (w : World δ) :
    ∃ raised, (prepareExecution env payload user organizationId).run w = .error raised
      { w with runs := governedEvents env payload user organizationId :: w.runs } := by
  unfold prepareExecution
  rw [EStateM.run_bind, startRun_run]
  dsimp only
  rw [EStateM.run_bind]
  by_cases hadmitted : Admitted env payload user organizationId
  · -- The context cannot be built.
    obtain ⟨report, hreport⟩ := governDeclared_run env hadmitted w w.runs
    have hmessage : payload.message = none := by simpa [hadmitted] using h
    rw [hreport]
    unfold buildExecutionContext
    rw [hmessage]
    exact ⟨_, rfl⟩
  · -- The report denies the payload.
    obtain ⟨hversion, hdenied⟩ := Classical.not_imp.mp hadmitted
    unfold governDeclared governedEvents enforceGovernance
    simp only [if_pos hversion, if_neg hdenied]
    exact ⟨_, rfl⟩

/-- Once a task is dispatched, what only publishes completes the run. -/
theorem runShape_of_dispatched {α : Type} {env : RuntimeEnv} {payload : Payload} {user : User}
    {organizationId : Int} {w w' : World δ} {first : ExecutionRun} {task : ExecutionTask}
    (hadmitted : Admitted env payload user organizationId) (hmessage : payload.message.isSome)
    (hruns : w'.runs = (governedEvents env payload user organizationId ++ [.published first] ++
      [.dispatched payload user organizationId task]) :: w.runs)
    {p : Py (World δ) α} (hp : Proc.Within OnlyPublishes p) :
    ∃ run, RunShape env payload user organizationId run ∧
      (Proc.after p w').runs = run :: w.runs := by
  obtain ⟨later, hlater, hafter⟩ := hp w' _ _ hruns
  refine ⟨_, .inr ⟨hadmitted, hmessage, first, task, later, hlater, rfl⟩, ?_⟩
  rw [hafter]
  simp only [List.append_assoc, List.cons_append, List.nil_append]

theorem v2ExecuteChat_runs (env : RuntimeEnv) (services : Services δ ρ) (payload : Payload)
    (user : User) (organizationId : Int) (conversationId : Option Int) (w : World δ) :
    ∃ run, RunShape env payload user organizationId run ∧
      (Proc.after (v2ExecuteChat env services payload user organizationId conversationId) w).runs =
        run :: w.runs := by
  unfold v2ExecuteChat
  rw [Proc.after_bind]
  by_cases h : Admitted env payload user organizationId ∧ payload.message.isSome
  · obtain ⟨message, hmessage⟩ := Option.isSome_iff_exists.mp h.2
    obtain ⟨context, metadata, blueprint, hprepare, hm, hb, hcaps⟩ :=
      prepareExecution_run env h.1 hmessage w
    obtain ⟨run, hrun, -, htasks⟩ :=
      initializeRun_prepared env.L (env.clock.skip 10) context hm hb
    have hne : blueprint.requiredRuntimeCapabilities ≠ [] := by
      rw [hcaps]
      exact capabilitiesOf_ne_nil _
    obtain ⟨task, -, -, htask⟩ := selectDispatchTask_provider env.L blueprint
    have htask' : selectDispatchTask run.tasks "provider" = .ok task := by
      rw [htasks, buildExecutionTasks, if_pos hne]
      exact htask
    rw [hprepare]
    dsimp only
    rw [executeChat_eq hrun htask']
    unfold dispatchChat
    simp only [bind_assoc, pure_bind]
    -- The first publication and the dispatch are recorded; what follows only publishes.
    rw [Proc.after_bind, record_run]
    dsimp only
    rw [Proc.after_bind, record_run]
    dsimp only
    refine runShape_of_dispatched h.1 h.2 (by rfl) ?_
    refine (answerTask_onlyPublishes env services payload user organizationId conversationId
      task).bind fun reply => (publish_onlyPublishes _).bind fun _ => ?_
    exact (onDb_onlyPublishes _).bind fun _ => .pure reply
  · obtain ⟨raised, hstop⟩ := prepareExecution_stops env h w
    rw [hstop]
    exact ⟨_, .inl ⟨h, rfl⟩, rfl⟩

theorem v2ExecuteStream_runs (env : RuntimeEnv) (services : Services δ ρ) (payload : Payload)
    (user : User) (organizationId : Int) (conversationId : Option Int) (w : World δ) :
    ∃ run, RunShape env payload user organizationId run ∧
      (Proc.after (v2ExecuteStream env services payload user organizationId conversationId)
        w).runs = run :: w.runs := by
  by_cases h : Admitted env payload user organizationId ∧ payload.message.isSome
  · obtain ⟨message, hmessage⟩ := Option.isSome_iff_exists.mp h.2
    obtain ⟨blueprint, context, run, task, -, -, hstream⟩ :=
      v2ExecuteStream_run env services conversationId h.1 hmessage w
    rw [Proc.after_congr hstream]
    unfold dispatchStream
    rw [Proc.after_bind, record_run]
    dsimp only
    refine runShape_of_dispatched h.1 h.2 (by rfl) ?_
    cases resolvesNatively env.L task with
    | none => exact forward_onlyPublishes _
    | some metadata =>
        dsimp only
        split
        · exact .throw _
        · exact forward_onlyPublishes _
  · obtain ⟨raised, hstop⟩ := prepareExecution_stops env h w
    unfold v2ExecuteStream
    rw [Proc.after_bind, hstop]
    exact ⟨_, .inl ⟨h, rfl⟩, rfl⟩

/-! ## Governed runs -/

/-- A payload that declares V2 is dispatched after the report that allowed it. -/
theorem governedRun_of_declared {env : RuntimeEnv} {payload : Payload} {user : User}
    {organizationId : Int} (hversion : payload.declaredVersion = "AgentCorp V2")
    (hadmitted : Admitted env payload user organizationId) {first : ExecutionRun}
    {task : ExecutionTask} {later : List RuntimeEvent}
    (hlater : ∀ event ∈ later, ∃ r, event = .published r) :
    GovernedRun (governedEvents env payload user organizationId ++
      .published first :: .dispatched payload user organizationId task :: later) := by
  unfold governedEvents
  rw [if_pos hversion]
  intro earlier rest payload' user' organizationId' task' hsplit
  -- The dispatch is the third event, and no other one is a dispatch.
  rcases earlier with _ | ⟨_, _ | ⟨_, _ | ⟨_, earlier⟩⟩⟩
  · simp at hsplit
  · simp at hsplit
  · simp only [List.cons_append, List.nil_append, List.cons.injEq,
      RuntimeEvent.dispatched.injEq] at hsplit
    obtain ⟨rfl, rfl, ⟨rfl, rfl, rfl, rfl⟩, rfl⟩ := hsplit
    exact ⟨_, List.mem_cons_self, hadmitted hversion⟩
  · simp only [List.cons_append, List.nil_append, List.cons.injEq] at hsplit
    have hin : .dispatched payload' user' organizationId' task' ∈ later := by
      rw [hsplit.2.2.2]
      exact List.mem_append_right _ List.mem_cons_self
    obtain ⟨r, hr⟩ := hlater _ hin
    cases hr

/-- A run of the V2 runtime is governed exactly if its payload is not one that it dispatches
    without governing. -/
theorem governedRun_iff {env : RuntimeEnv} {payload : Payload} {user : User}
    {organizationId : Int} {run : List RuntimeEvent}
    (h : RunShape env payload user organizationId run) :
    GovernedRun run ↔ ¬ Ungoverned payload := by
  unfold Ungoverned
  rcases h with ⟨hstop, rfl⟩ | ⟨hadmitted, hmessage, first, task, later, hlater, rfl⟩
  · -- Nothing is dispatched, and an undeclared payload is admitted, so it has no message.
    refine iff_of_true ?_ ?_
    · intro earlier later payload' user' organizationId' task' hsplit
      have hin : .dispatched payload' user' organizationId' task' ∈
          governedEvents env payload user organizationId := by
        rw [hsplit]
        exact List.mem_append_right _ List.mem_cons_self
      unfold governedEvents at hin
      split at hin <;> simp at hin
    · rintro ⟨hversion, hmessage⟩
      exact hstop ⟨fun hdeclared => absurd hdeclared hversion, hmessage⟩
  · by_cases hversion : payload.declaredVersion = "AgentCorp V2"
    · refine iff_of_true (governedRun_of_declared hversion hadmitted hlater) ?_
      exact fun hbypass => hbypass.1 hversion
    · refine iff_of_false ?_ (not_not.mpr ⟨hversion, hmessage⟩)
      intro hgoverned
      obtain ⟨report, hin, -⟩ := hgoverned [.published first] later payload user organizationId
        task (by simp [governedEvents, hversion])
      simp at hin

theorem allGoverned_cons {run : List RuntimeEvent} {runs : List (List RuntimeEvent)} :
    AllGoverned (run :: runs) ↔ GovernedRun run ∧ AllGoverned runs :=
  List.forall_mem_cons

/-! ## The autonomous loop -/

section Goal

variable (env : Nat → RuntimeEnv) (services : Services δ ρ) (goalEnv : AutonomousEnv) (user : User)
  (organizationId : Int)

/-- The payload of a pending call is synthesized, and declares V2. -/
theorem pendingCall_declares {s : LoopState} {call : ExecuteChatCall}
    (h : pendingCall goalEnv s = some call) : call.payload.runtimeVersion = "AgentCorp V2" := by
  unfold pendingCall at h
  split at h
  · split at h
    · obtain rfl := Option.some.inj h
      rfl
    · simp at h
  · simp at h

theorem executePending_governed (s : LoopState) (w : World δ) :
    AllGoverned (Proc.after (executePending (env s.iteration) services goalEnv user organizationId
      s) w).runs ↔ AllGoverned w.runs := by
  unfold executePending
  cases hcall : pendingCall goalEnv s with
  | none => exact Iff.rfl
  | some call =>
      obtain ⟨run, hshape, hafter⟩ :=
        v2ExecuteChat_runs (env s.iteration) services (.task call.payload) user organizationId
          none w
      have hgoverned : GovernedRun run := (governedRun_iff hshape).mpr fun hbypass =>
        hbypass.1 (pendingCall_declares goalEnv hcall)
      dsimp only
      unfold executeTask
      rw [Proc.after_bind_pure, hafter, allGoverned_cons, and_iff_right hgoverned]

/-- A pass is one of the loop, and adds governed runs only. -/
theorem goalBody_next {s t : LoopState × World δ}
    (h : goalBody env services goalEnv user organizationId s = .next t) :
    (∃ goalEnv', loopBody goalEnv' s.1 = .next t.1) ∧
      (AllGoverned t.2.runs ↔ AllGoverned s.2.runs) := by
  unfold goalBody at h
  dsimp only at h
  split at h
  · simp at h
  · next u hbody =>
      obtain rfl := WhileLoop.Iter.next.inj h
      exact ⟨⟨_, hbody⟩, executePending_governed env services goalEnv user organizationId s.1 s.2⟩
  · simp at h

theorem goalBody_throw {s : LoopState × World δ} {thrown : List ExecuteChatCall × BaseExn}
    {w : World δ} (h : goalBody env services goalEnv user organizationId s = .throw (thrown, w)) :
    AllGoverned w.runs ↔ AllGoverned s.2.runs := by
  unfold goalBody at h
  dsimp only at h
  split at h
  · simp at h
  · simp at h
  · obtain ⟨-, rfl⟩ := Prod.mk.inj (WhileLoop.Iter.throw.inj h)
    exact executePending_governed env services goalEnv user organizationId s.1 s.2

theorem goalBody_invariant (goal : GoalReport) :
    WhileLoop.Invariant (goalBody env services goalEnv user organizationId) fun s =>
      LoopInv (goalTasks goalEnv goal) (goal.metadata.get "deadline") s.1 := by
  intro s t hloop hstep
  obtain ⟨⟨goalEnv', hbody⟩, -⟩ := goalBody_next env services goalEnv user organizationId hstep
  exact loopInv_invariant goalEnv' (goalTasks_nodup goalEnv goal) _ _ hloop hbody

/-- The loop over the V2 runtime ends within the passes of `v2ExecuteAutonomousGoal`. -/
theorem goalLoop_ends (goal : GoalReport) (w : World δ) :
    ∃ r, WhileLoop.run (goalBody env services goalEnv user organizationId)
        ((splitGoal goalEnv.createdAt goal).length + 1) (loopStart (goalTasks goalEnv goal), w) =
          some r ∧
      match r with
      | .ok t => WhileLoop.Reaches (goalBody env services goalEnv user organizationId)
          (loopStart (goalTasks goalEnv goal), w) t ∧
          LoopInv (goalTasks goalEnv goal) (goal.metadata.get "deadline") t.1
      | .error e => ∃ t, WhileLoop.Reaches (goalBody env services goalEnv user organizationId)
          (loopStart (goalTasks goalEnv goal), w) t ∧
          goalBody env services goalEnv user organizationId t = .throw e := by
  have hdecreases : ∀ s t : LoopState × World δ,
      LoopInv (goalTasks goalEnv goal) (goal.metadata.get "deadline") s.1 →
      WhileLoop.Steps (goalBody env services goalEnv user organizationId) s t →
      t.1.loopTasks.countP (·.status = .ready) < s.1.loopTasks.countP (·.status = .ready) := by
    intro s t hloop hstep
    obtain ⟨⟨goalEnv', hbody⟩, -⟩ :=
      goalBody_next env services goalEnv user organizationId hstep
    exact ready_decreases goalEnv' (goalTasks_nodup goalEnv goal) _ _ hloop hbody
  have hstart : LoopInv (goalTasks goalEnv goal) (goal.metadata.get "deadline")
      (loopStart (goalTasks goalEnv goal), w).1 := loopInv_start goalEnv goal
  obtain ⟨r, hrun, hend⟩ := WhileLoop.exists_run
    (goalBody_invariant env services goalEnv user organizationId goal)
    (fun s => s.1.loopTasks.countP (·.status = .ready)) hdecreases hstart
  have hfuel : (goalTasks goalEnv goal).countP (·.status = .ready) <
      (splitGoal goalEnv.createdAt goal).length + 1 :=
    Nat.lt_succ_of_le ((goalTasks_perm goalEnv goal).length_eq ▸ List.countP_le_length)
  refine ⟨r, hrun _ hfuel, ?_⟩
  cases r with
  | ok t => exact ⟨hend.1, hend.2.1⟩
  | error e =>
      obtain ⟨t, hreach, -, hthrow⟩ := hend
      exact ⟨t, hreach, hthrow⟩

/-- The autonomous entry point ends its loop, with every run that it added governed. -/
theorem v2ExecuteAutonomousGoal_governed (goal : GoalReport) (w : World δ) :
    AllGoverned (Proc.after
      (v2ExecuteAutonomousGoal env services goalEnv goal user organizationId) w).runs ↔
      AllGoverned w.runs := by
  have hinv : WhileLoop.Invariant (goalBody env services goalEnv user organizationId) fun s =>
      (AllGoverned s.2.runs ↔ AllGoverned w.runs) := fun s t hruns hstep =>
    (goalBody_next env services goalEnv user organizationId hstep).2.trans hruns
  obtain ⟨r, hrun, hend⟩ := goalLoop_ends env services goalEnv user organizationId goal w
  unfold Proc.after EStateM.run v2ExecuteAutonomousGoal
  rw [hrun]
  cases r with
  | ok s => exact hinv.of_reaches Iff.rfl hend.1
  | error e =>
      obtain ⟨s, hreach, hthrow⟩ := hend
      exact (goalBody_throw env services goalEnv user organizationId hthrow).trans
        (hinv.of_reaches Iff.rfl hreach)

/-! ### The loop over the V2 runtime is the loop of `executeGoal` -/

/-- The state and the world at the `n`-th pass. -/
def passAt (start : LoopState × World δ) : Nat → LoopState × World δ
  | 0 => start
  | n + 1 =>
      match goalBody env services goalEnv user organizationId (passAt start n) with
      | .next t => t
      | _ => passAt start n

/-- How the call of the `n`-th pass ends. -/
def observed (start : LoopState × World δ) (n : Nat) : Except BaseExn Unit :=
  let s := passAt env services goalEnv user organizationId start n
  Proc.outcome (executePending (env s.1.iteration) services goalEnv user organizationId s.1) s.2

/-- A state that the loop reaches is the one of its pass. -/
theorem passAt_invariant (start : LoopState × World δ) (goal : GoalReport) :
    WhileLoop.Invariant (goalBody env services goalEnv user organizationId) fun s =>
      LoopInv (goalTasks goalEnv goal) (goal.metadata.get "deadline") s.1 ∧
        passAt env services goalEnv user organizationId start s.1.iteration = s := by
  refine (goalBody_invariant env services goalEnv user organizationId goal).and ?_
  intro s t hloop hpass hstep
  obtain ⟨⟨goalEnv', hbody⟩, -⟩ := goalBody_next env services goalEnv user organizationId hstep
  rw [loopBody_iteration goalEnv' hloop.tracks.deadline hbody]
  unfold passAt
  rw [hpass]
  have hnext : goalBody env services goalEnv user organizationId s = .next t := hstep
  rw [hnext]

/-- The autonomous entry point ends as `executeGoal` does when its calls end as those of the V2
    runtime. -/
theorem v2ExecuteAutonomousGoal_executes (goal : GoalReport) (w : World δ) :
    ∃ outcome run, executeGoal { goalEnv with outcome := outcome } goal organizationId
        ((splitGoal goalEnv.createdAt goal).length + 1) = some run ∧
      Proc.outcome (v2ExecuteAutonomousGoal env services goalEnv goal user organizationId) w =
        run.result.map fun _ => () := by
  let start : LoopState × World δ := (loopStart (goalTasks goalEnv goal), w)
  let goalEnv' : AutonomousEnv :=
    { goalEnv with outcome := observed env services goalEnv user organizationId start }
  have hbody : ∀ s : LoopState × World δ,
      LoopInv (goalTasks goalEnv goal) (goal.metadata.get "deadline") s.1 ∧
        passAt env services goalEnv user organizationId start s.1.iteration = s →
      loopBody goalEnv' s.1 =
        (goalBody env services goalEnv user organizationId s).map Prod.fst Prod.fst := by
    rintro s ⟨-, hpass⟩
    have houtcome : observed env services goalEnv user organizationId start s.1.iteration =
        Proc.outcome (executePending (env s.1.iteration) services goalEnv user organizationId s.1)
          s.2 := by
      simp only [observed, hpass]
    rw [loopBody_outcome, houtcome]
    unfold goalBody
    dsimp only
    cases loopBody _ s.1 <;> rfl
  have hmap := WhileLoop.run_map (passAt_invariant env services goalEnv user organizationId
    start goal) hbody ((splitGoal goalEnv.createdAt goal).length + 1)
    (s := start) ⟨loopInv_start goalEnv goal, rfl⟩
  obtain ⟨r, hrun, hend⟩ := goalLoop_ends env services goalEnv user organizationId goal w
  rw [hrun] at hmap
  refine ⟨goalEnv'.outcome, endGoal goalEnv' goal organizationId (goalTasks goalEnv' goal)
    ((r.map Prod.fst).mapError Prod.fst), ?_, ?_⟩
  · rw [executeGoal_start]
    exact congrArg (Option.map _) hmap
  · unfold Proc.outcome EStateM.run v2ExecuteAutonomousGoal
    rw [hrun]
    cases r with
    | ok s =>
        obtain ⟨report, hreport, -⟩ := finishGoal_ok goalEnv' goal organizationId
          (goalTasks goalEnv' goal) hend.2.tracks.deadline
        simp only [Except.map, Except.mapError, endGoal, hreport]
    | error e => rfl

end Goal

/-! ## Sequences of calls -/

/-- A run of the V2 runtime for a payload keeps governance exactly if the payload is not one
    that it dispatches without governing. -/
theorem allGoverned_run {env : RuntimeEnv} {payload : Payload} {user : User}
    {organizationId : Int} {runs runs' : List (List RuntimeEvent)}
    (h : ∃ run, RunShape env payload user organizationId run ∧ runs' = run :: runs) :
    AllGoverned runs' ↔ AllGoverned runs ∧ ¬ Ungoverned payload := by
  obtain ⟨run, hshape, rfl⟩ := h
  rw [allGoverned_cons, governedRun_iff hshape, and_comm]

/-- A call keeps governance exactly if it is not a bypass. -/
theorem perform_governed_iff (services : Services δ ρ) (call : RuntimeCall) (w : World δ) :
    AllGoverned (Proc.after (perform services call) w).runs ↔
      AllGoverned w.runs ∧ ¬ Bypass call := by
  cases call with
  | chat env runtimeVersion payload user organizationId conversationId =>
      unfold perform routerExecuteChat
      dsimp only
      rw [Proc.after_bind_pure]
      by_cases hv2 : resolvesToV2 runtimeVersion
      · rw [if_pos hv2, allGoverned_run (v2ExecuteChat_runs env services payload user
          organizationId conversationId w)]
        simp [Bypass, hv2]
      · rw [if_neg hv2, Proc.after_bind_pure, onDb_runs]
        simp [Bypass, hv2]
  | stream env runtimeVersion payload user organizationId conversationId =>
      unfold perform routerExecuteStream
      dsimp only
      by_cases hv2 : resolvesToV2 runtimeVersion
      · rw [if_pos hv2, allGoverned_run (v2ExecuteStream_runs env services payload user
          organizationId conversationId w)]
        simp [Bypass, hv2]
      · rw [if_neg hv2, forward_after]
        simp [Bypass, hv2]
  | autonomous env goalEnv goal user organizationId =>
      unfold perform
      rw [v2ExecuteAutonomousGoal_governed]
      simp [Bypass]

theorem performAll_governed_iff (services : Services δ ρ) (calls : List RuntimeCall)
    (w : World δ) :
    AllGoverned (performAll services calls w).runs ↔
      AllGoverned w.runs ∧ ∀ call ∈ calls, ¬ Bypass call := by
  induction calls generalizing w with
  | nil => simp [performAll]
  | cons call calls ih =>
      have hrest := ih (Proc.after (perform services call) w)
      rw [perform_governed_iff] at hrest
      rw [List.forall_mem_cons, ← and_assoc]
      exact hrest

/-- A chat whose payload declares no version but whose call picks the V2 runtime. -/
def undeclaredChat : RuntimeCall :=
  .chat quietRuntime (some "AgentCorp V2") (.create { message := "Hello", agentId := 1 })
    ⟨9, true, false⟩ 1 none

/-- The payload of this one call is dispatched, and was not governed. -/
theorem undeclaredChat_not_governed :
    ¬ AllGoverned (performAll quietServices [undeclaredChat] emptyWorld).runs := by
  rw [performAll_governed_iff]
  rintro ⟨-, hno⟩
  exact hno _ (List.mem_singleton_self _) ⟨by decide, by decide, rfl⟩

/-- **Governance.** Over every sequence of calls, every dispatch of the V2 runtime comes after
    a report that allowed the same payload, user and organization in the same run, exactly if
    no call picks the V2 runtime for a payload that has a message and does not declare V2. -/
theorem calls_governed_iff (services : Services δ ρ) (calls : List RuntimeCall) (db : δ)
    (yielded : List String) :
    AllGoverned (performAll services calls ⟨db, yielded, []⟩).runs ↔
      ∀ call ∈ calls, ¬ Bypass call := by
  rw [performAll_governed_iff]
  simp [AllGoverned]

end AgentCorp.Runtime
