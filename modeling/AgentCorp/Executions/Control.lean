/-
  The status of an execution, which a runner and any number of control calls write.

  `WorkflowService` and `AgentEngineService` have the same `pause_execution`, `resume_execution`
  and `cancel_execution`: a call reads the row and commits its own status, whatever it read. A
  commit writes the column only if the status that is set differs from the one that was read. A
  runner is any program that shares the status with these calls, one commit or read at a time.

  * `writes_statuses`: the status after an event is what the event wrote, or else unchanged.
  * `absorbing_iff_undisturbed`: terminal statuses are absorbing and nothing is started after a
    cancellation, exactly if the run is undisturbed.
  * `undisturbed_iff_of_finished`: once the runner has made its final commit, that is a run
    without a cancellation before it and without a control call that commits after it.
-/
import AgentCorp.Lib.LastWrite
import Mathlib.Logic.Relation

namespace AgentCorp.Executions

/-! ## Statuses and control calls -/

inductive ExecutionStatus where
  | pending | running | paused | completed | failed | cancelled
  deriving DecidableEq, Repr

/-- The text of the column. -/
def ExecutionStatus.value : ExecutionStatus → String
  | .pending => "PENDING"
  | .running => "RUNNING"
  | .paused => "PAUSED"
  | .completed => "COMPLETED"
  | .failed => "FAILED"
  | .cancelled => "CANCELLED"

/-- COMPLETED, FAILED or CANCELLED. -/
def ExecutionStatus.Terminal (status : ExecutionStatus) : Prop :=
  status = .completed ∨ status = .failed ∨ status = .cancelled

instance : DecidablePred ExecutionStatus.Terminal :=
  fun status => inferInstanceAs (Decidable (status = _ ∨ status = _ ∨ status = _))

inductive ControlOp where
  | pause | resume | cancel
  deriving DecidableEq, Repr

/-- The status that a call sets. -/
def ControlOp.status : ControlOp → ExecutionStatus
  | .pause => .paused
  | .resume => .running
  | .cancel => .cancelled

/-! ## Runners -/

/-- What a step of a runner does: it starts a node or a task, commits the final status, or
    neither. -/
inductive RunnerEvent where
  | idle
  | started
  | finished (status : ExecutionStatus)
  deriving DecidableEq, Repr

/-- A runner goes on from its own state and the stored status. `none` is a runner that has
    returned or raised. -/
structure Runner (ρ : Type) where
  step : ρ → ExecutionStatus → Option (ρ × RunnerEvent)

/-- The status that a runner commits at its end. -/
def finalStatus (failed : Bool) : ExecutionStatus :=
  if failed then .failed else .completed

/-- A runner commits COMPLETED or FAILED at its end: after that, it starts and commits nothing. -/
structure Runner.Lawful {ρ : Type} (runner : Runner ρ) where
  Done : ρ → Prop
  finished : ∀ {r status r' final}, runner.step r status = some (r', .finished final) →
    Done r' ∧ (final = .completed ∨ final = .failed)
  done : ∀ {r status r' event}, Done r → runner.step r status = some (r', event) →
    Done r' ∧ event = .idle

/-! ## Interleavings -/

/-- A step of the system, as far as the status and the nodes are concerned. -/
inductive Event where
  | idle
  | started
  | finished (status : ExecutionStatus)
  | wrote (op : ControlOp)
  deriving DecidableEq, Repr

def RunnerEvent.toEvent : RunnerEvent → Event
  | .idle => .idle
  | .started => .started
  | .finished status => .finished status

/-- The status that an event commits. -/
def Event.writes : Event → Option ExecutionStatus
  | .idle => none
  | .started => none
  | .finished status => some status
  | .wrote op => some op.status

/-- A runner goes from one state and stored status to another, with nobody else at the row. -/
def Runner.Alone {ρ : Type} (runner : Runner ρ) :
    ρ × ExecutionStatus → ρ × ExecutionStatus → Prop :=
  Relation.ReflTransGen fun x y =>
    ∃ event, runner.step x.1 x.2 = some (y.1, event) ∧ y.2 = event.toEvent.writes.getD x.2

section Alone

variable {ρ : Type} {runner : Runner ρ} {r r' : ρ} {status final : ExecutionStatus}

theorem Runner.alone_idle (h : runner.step r status = some (r', .idle)) :
    runner.Alone (r, status) (r', status) :=
  .single ⟨.idle, h, rfl⟩

theorem Runner.alone_started (h : runner.step r status = some (r', .started)) :
    runner.Alone (r, status) (r', status) :=
  .single ⟨.started, h, rfl⟩

theorem Runner.alone_finished (h : runner.step r status = some (r', .finished final)) :
    runner.Alone (r, status) (r', final) :=
  .single ⟨.finished final, h, rfl⟩

end Alone

/-- The stored status, the runner, and the control calls that have read the row, each with the
    status it read. -/
structure System (ρ : Type) where
  status : ExecutionStatus
  runner : ρ
  calls : List (ControlOp × ExecutionStatus) := []

/-- Who takes the next step: the runner, a new control call, or the commit of a pending one. -/
inductive Choice where
  | runner
  | call (op : ControlOp)
  | commit (i : Nat)
  deriving DecidableEq, Repr

variable {ρ : Type}

/-- One step. The status is written by what the event says. -/
def System.step (runner : Runner ρ) (s : System ρ) : Choice → Option (System ρ × Event)
  | .runner =>
      (runner.step s.runner s.status).map fun (r, event) =>
        ({ s with status := event.toEvent.writes.getD s.status, runner := r }, event.toEvent)
  | .call op => some ({ s with calls := s.calls ++ [(op, s.status)] }, .idle)
  | .commit i =>
      s.calls[i]?.map fun (op, read) =>
        let event := if read = op.status then Event.idle else .wrote op
        ({ s with status := event.writes.getD s.status, calls := s.calls.eraseIdx i }, event)

/-- A run of the system: the events, each with the state after it. -/
inductive IsRun (runner : Runner ρ) : System ρ → List (Event × System ρ) → Prop
  | nil (s : System ρ) : IsRun runner s []
  | cons {s t : System ρ} {choice : Choice} {event : Event} {rest : List (Event × System ρ)}
      (hstep : s.step runner choice = some (t, event)) (hrest : IsRun runner t rest) :
      IsRun runner s ((event, t) :: rest)

/-- The run of a schedule. -/
def System.run (runner : Runner ρ) (s : System ρ) : List Choice → Option (List (Event × System ρ))
  | [] => some []
  | choice :: choices => do
      let (t, event) ← s.step runner choice
      let rest ← t.run runner choices
      return (event, t) :: rest

theorem isRun_of_run {runner : Runner ρ} {s : System ρ} {choices : List Choice}
    {trace : List (Event × System ρ)} (h : s.run runner choices = some trace) :
    IsRun runner s trace := by
  induction choices generalizing s trace with
  | nil =>
      obtain rfl := Option.some.inj h
      exact .nil s
  | cons choice choices ih =>
      obtain ⟨⟨t, event⟩, hstep, h⟩ := Option.bind_eq_some_iff.mp h
      obtain ⟨rest, hrest, h⟩ := Option.bind_eq_some_iff.mp h
      obtain rfl := Option.some.inj h
      exact .cons hstep (ih hrest)

/-! ## Properties of a run -/

/-- Once the stored status is terminal, it never changes. -/
def TerminalAbsorbing (trace : List (Event × System ρ)) : Prop :=
  trace.Pairwise fun x y => x.2.status.Terminal → y.2.status = x.2.status

/-- Once CANCELLED has been committed, nothing is started. -/
def NothingStarted (trace : List (Event × System ρ)) : Prop :=
  trace.Pairwise fun x y => x.2.status = .cancelled → y.1 ≠ .started

/-- A later event disturbs what an earlier one has ended: a control call commits after the final
    commit of the runner, or after a cancellation the runner goes on or another call is
    committed. A call that sets the status it has read commits nothing. -/
def Event.disturbs : (earlier later : Event) → Bool
  | .finished _, .wrote _ => true
  | .wrote .cancel, .wrote op => op != .cancel
  | .wrote .cancel, .started => true
  | .wrote .cancel, .finished _ => true
  | _, _ => false

def Undisturbed (trace : List (Event × System ρ)) : Prop :=
  (trace.map Prod.fst).Pairwise fun earlier later => ¬ earlier.disturbs later

/-! ## Runs -/

section Runs

variable {runner : Runner ρ} {s : System ρ} {trace : List (Event × System ρ)}

/-- The statuses of a trace. -/
def statuses (trace : List (Event × System ρ)) : List (Event × ExecutionStatus) :=
  trace.map fun x => (x.1, x.2.status)

/-- A schedule that runs, by the statuses that it goes through. -/
theorem isRun_of_statuses {choices : List Choice} {events : List (Event × ExecutionStatus)}
    (h : (s.run runner choices).map statuses = some events) :
    ∃ trace, IsRun runner s trace ∧ statuses trace = events := by
  obtain ⟨trace, hrun, hstatuses⟩ := Option.map_eq_some_iff.mp h
  exact ⟨trace, isRun_of_run hrun, hstatuses⟩

theorem terminalAbsorbing_iff :
    TerminalAbsorbing trace ↔
      (statuses trace).Pairwise fun x y => x.2.Terminal → y.2 = x.2 := by
  unfold TerminalAbsorbing statuses
  rw [List.pairwise_map]

theorem nothingStarted_iff :
    NothingStarted trace ↔
      (statuses trace).Pairwise fun x y => x.2 = .cancelled → y.1 ≠ .started := by
  unfold NothingStarted statuses
  rw [List.pairwise_map]

theorem undisturbed_iff :
    Undisturbed trace ↔
      ((statuses trace).map Prod.fst).Pairwise fun earlier later => ¬ earlier.disturbs later := by
  unfold Undisturbed statuses
  rw [List.map_map]
  rfl

theorem step_status {t : System ρ} {choice : Choice} {event : Event}
    (h : s.step runner choice = some (t, event)) : t.status = event.writes.getD s.status := by
  cases choice with
  | runner =>
      obtain ⟨⟨r, e⟩, -, h⟩ := Option.map_eq_some_iff.mp h
      obtain ⟨rfl, rfl⟩ := Prod.mk.inj h
      rfl
  | call op =>
      obtain ⟨rfl, rfl⟩ := Prod.mk.inj (Option.some.inj h)
      rfl
  | commit i =>
      obtain ⟨⟨op, read⟩, -, h⟩ := Option.map_eq_some_iff.mp h
      obtain ⟨rfl, rfl⟩ := Prod.mk.inj h
      rfl

/-- The status after an event is what the event wrote, or else unchanged. -/
theorem writes_statuses (h : IsRun runner s trace) :
    LastWrite.Writes Event.writes s.status (statuses trace) := by
  induction h with
  | nil s => exact .nil s.status
  | @cons s t choice event rest hstep hrest ih =>
      have hstatus := step_status hstep
      show LastWrite.Writes Event.writes s.status ((event, t.status) :: statuses rest)
      rw [hstatus] at ih ⊢
      exact .cons ih

/-- A step by the runner, or else by a control call. -/
theorem step_cases {t : System ρ} {choice : Choice} {event : Event}
    (h : s.step runner choice = some (t, event)) :
    (∃ e, runner.step s.runner s.status = some (t.runner, e) ∧ event = e.toEvent) ∨
      (t.runner = s.runner ∧ (event = .idle ∨ ∃ op, event = .wrote op)) := by
  cases choice with
  | runner =>
      obtain ⟨⟨r, e⟩, hstep, h⟩ := Option.map_eq_some_iff.mp h
      obtain ⟨rfl, rfl⟩ := Prod.mk.inj h
      exact .inl ⟨e, hstep, rfl⟩
  | call op =>
      obtain ⟨rfl, rfl⟩ := Prod.mk.inj (Option.some.inj h)
      exact .inr ⟨rfl, .inl rfl⟩
  | commit i =>
      obtain ⟨⟨op, read⟩, -, h⟩ := Option.map_eq_some_iff.mp h
      obtain ⟨rfl, rfl⟩ := Prod.mk.inj h
      refine .inr ⟨rfl, ?_⟩
      split
      · exact .inl rfl
      · exact .inr ⟨op, rfl⟩

/-- Once the runner is done, only control calls commit. -/
theorem events_of_done (lawful : runner.Lawful) (h : IsRun runner s trace)
    (hdone : lawful.Done s.runner) :
    ∀ x ∈ trace, x.1 = .idle ∨ ∃ op, x.1 = .wrote op := by
  induction h with
  | nil s => exact fun x hx => absurd hx List.not_mem_nil
  | @cons s t choice event rest hstep hrest ih =>
      rw [List.forall_mem_cons]
      rcases step_cases hstep with ⟨e, hrunner, rfl⟩ | ⟨hsame, hevent⟩
      · obtain ⟨hdone', rfl⟩ := lawful.done hdone hrunner
        exact ⟨.inl rfl, ih hdone'⟩
      · rw [← hsame] at hdone
        exact ⟨hevent, ih hdone⟩

/-- The runner commits COMPLETED or FAILED, once, and starts nothing after that. -/
theorem finished_events (lawful : runner.Lawful) (h : IsRun runner s trace) :
    (∀ x ∈ trace, ∀ final, x.1 = .finished final → final = .completed ∨ final = .failed) ∧
      trace.Pairwise fun x y => ∀ final, x.1 = .finished final →
        y.1 = .idle ∨ ∃ op, y.1 = .wrote op := by
  induction h with
  | nil s => exact ⟨fun x hx => absurd hx List.not_mem_nil, List.Pairwise.nil⟩
  | @cons s t choice event rest hstep hrest ih =>
      rw [List.forall_mem_cons, List.pairwise_cons]
      rcases step_cases hstep with ⟨e, hrunner, rfl⟩ | ⟨-, hevent⟩
      · cases e with
        | idle => exact ⟨⟨fun _ h => (nomatch h), ih.1⟩, fun _ _ _ h => (nomatch h), ih.2⟩
        | started => exact ⟨⟨fun _ h => (nomatch h), ih.1⟩, fun _ _ _ h => (nomatch h), ih.2⟩
        | finished final =>
            obtain ⟨hdone, hfinal⟩ := lawful.finished hrunner
            refine ⟨⟨fun final' h => ?_, ih.1⟩, fun y hy _ _ => ?_, ih.2⟩
            · obtain rfl := Event.finished.inj h
              exact hfinal
            · exact events_of_done lawful hrest hdone y hy
      · rcases hevent with rfl | ⟨op, rfl⟩
        · exact ⟨⟨fun _ h => (nomatch h), ih.1⟩, fun _ _ _ h => (nomatch h), ih.2⟩
        · exact ⟨⟨fun _ h => (nomatch h), ih.1⟩, fun _ _ _ h => (nomatch h), ih.2⟩

/-- Two events of a run, in order: neither a terminal status is left nor a node is started after
    a cancellation, exactly if the later one does not disturb the earlier one. -/
theorem not_disturbs_iff {earlier later : Event}
    (hearlier : ∀ final, earlier = .finished final → final = .completed ∨ final = .failed)
    (hlater : ∀ final, later = .finished final → final = .completed ∨ final = .failed)
    (hlast : ∀ final, earlier = .finished final → later = .idle ∨ ∃ op, later = .wrote op) :
    ((∀ v, earlier.writes = some v → v.Terminal → ∀ v', later.writes = some v' → v' = v) ∧
        (earlier.writes = some .cancelled → later ≠ .started)) ↔
      ¬ earlier.disturbs later := by
  cases earlier with
  | idle => exact iff_of_true ⟨fun v h => (nomatch h), fun h => (nomatch h)⟩ Bool.false_ne_true
  | started => exact iff_of_true ⟨fun v h => (nomatch h), fun h => (nomatch h)⟩ Bool.false_ne_true
  | finished final =>
      rcases hlast final rfl with rfl | ⟨op, rfl⟩
      · exact iff_of_true ⟨fun v _ _ v' h => (nomatch h), fun _ h => (nomatch h)⟩ Bool.false_ne_true
      · -- No control call sets COMPLETED or FAILED.
        rcases hearlier final rfl with rfl | rfl <;> cases op <;>
          simp [Event.writes, Event.disturbs, ExecutionStatus.Terminal, ControlOp.status]
  | wrote op =>
      cases op with
      | pause => simp [Event.writes, Event.disturbs, ExecutionStatus.Terminal, ControlOp.status]
      | resume => simp [Event.writes, Event.disturbs, ExecutionStatus.Terminal, ControlOp.status]
      | cancel =>
          cases later with
          | idle => simp [Event.writes, Event.disturbs]
          | started => simp [Event.writes, Event.disturbs, ControlOp.status]
          | finished final =>
              rcases hlater final rfl with rfl | rfl <;>
                simp [Event.writes, Event.disturbs, ExecutionStatus.Terminal, ControlOp.status]
          | wrote op =>
              cases op <;>
                simp [Event.writes, Event.disturbs, ExecutionStatus.Terminal, ControlOp.status]

/-- **Terminal statuses.** In a run of a runner with any control calls, terminal statuses are
    absorbing and nothing is started after a cancellation, exactly if the run is undisturbed. -/
theorem absorbing_iff_undisturbed (lawful : runner.Lawful) (h : IsRun runner s trace)
    (hs : s.status = .running) :
    TerminalAbsorbing trace ∧ NothingStarted trace ↔ Undisturbed trace := by
  have hwrites := writes_statuses h
  have hterminal : ¬ s.status.Terminal := by
    rw [hs]
    simp [ExecutionStatus.Terminal]
  have hcancelled : s.status ≠ .cancelled := by
    rw [hs]
    simp
  obtain ⟨hfinal, hlast⟩ := finished_events lawful h
  rw [terminalAbsorbing_iff, nothingStarted_iff, undisturbed_iff,
    LastWrite.absorbing_iff hwrites hterminal,
    LastWrite.after_iff (P := fun event => event ≠ .started) hwrites hcancelled,
    ← List.pairwise_and_iff]
  unfold statuses
  rw [List.map_map, List.pairwise_map, List.pairwise_map]
  constructor
  · intro hpairs
    refine (hpairs.and hlast).imp_of_mem fun hx hy hxy => ?_
    exact (not_disturbs_iff (hfinal _ hx) (hfinal _ hy) hxy.2).mp hxy.1
  · intro hpairs
    refine (hpairs.and hlast).imp_of_mem fun hx hy hxy => ?_
    exact (not_disturbs_iff (hfinal _ hx) (hfinal _ hy) hxy.2).mpr hxy.1

/-- Only a final commit and a cancellation are disturbed. -/
theorem not_disturbs_of_ne {earlier later : Event} (hfinished : ∀ final, earlier ≠ .finished final)
    (hcancel : earlier ≠ .wrote .cancel) : ¬ earlier.disturbs later := by
  cases earlier with
  | idle => exact Bool.false_ne_true
  | started => exact Bool.false_ne_true
  | finished final => exact absurd rfl (hfinished final)
  | wrote op =>
      cases op with
      | pause => exact Bool.false_ne_true
      | resume => exact Bool.false_ne_true
      | cancel => exact absurd rfl hcancel

/-- A run in which the runner makes its final commit is undisturbed exactly if no cancellation is
    committed before that and no control call commits after it. -/
theorem undisturbed_iff_of_finished (lawful : runner.Lawful)
    {before after : List (Event × System ρ)} {t : System ρ} {final : ExecutionStatus}
    (h : IsRun runner s (before ++ (.finished final, t) :: after)) :
    Undisturbed (before ++ (.finished final, t) :: after) ↔
      (∀ x ∈ before, x.1 ≠ .wrote .cancel) ∧ ∀ y ∈ after, ∀ op, y.1 ≠ .wrote op := by
  obtain ⟨-, hlast⟩ := finished_events lawful h
  rw [List.pairwise_append, List.pairwise_cons] at hlast
  obtain ⟨-, ⟨hafter, -⟩, hbefore⟩ := hlast
  unfold Undisturbed
  rw [List.pairwise_map, List.pairwise_append, List.pairwise_cons]
  constructor
  · rintro ⟨-, ⟨hfinal, -⟩, hpairs⟩
    constructor
    · intro x hx hcancel
      have hdisturbs := hpairs x hx _ List.mem_cons_self
      rw [hcancel] at hdisturbs
      exact hdisturbs rfl
    · intro y hy op hwrote
      have hdisturbs := hfinal y hy
      rw [hwrote] at hdisturbs
      exact hdisturbs rfl
  · rintro ⟨hcancel, hwrote⟩
    -- Nothing but idle steps comes after the final commit, and no earlier one is final.
    have hidle : ∀ y ∈ after, y.1 = .idle := by
      intro y hy
      rcases hafter y hy final rfl with hidle | ⟨op, hop⟩
      · exact hidle
      · exact absurd hop (hwrote y hy op)
    have hopen : ∀ x ∈ before, ∀ y, ¬ x.1.disturbs y := by
      intro x hx y
      refine not_disturbs_of_ne (fun final' hfinal => ?_) (hcancel x hx)
      rcases hbefore x hx _ List.mem_cons_self final' hfinal with hidle | ⟨op, hop⟩
      · cases hidle
      · cases hop
    refine ⟨?_, ⟨fun y hy => ?_, ?_⟩, fun x hx y _ => hopen x hx y.1⟩
    · exact List.pairwise_of_forall_mem_list fun x hx y _ => hopen x hx y.1
    · rw [hidle y hy]
      exact Bool.false_ne_true
    · refine List.pairwise_of_forall_mem_list fun x hx y _ => ?_
      rw [hidle x hx]
      exact Bool.false_ne_true

end Runs

end AgentCorp.Executions
