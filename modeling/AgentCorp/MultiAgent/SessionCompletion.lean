/-
  How `start_session` leaves a session that nobody else touches.

  * `run_runParticipants`: the loop settles every participant, in turn.
  * `startSession_settles`: every participant is COMPLETED or FAILED; the session is COMPLETED when
    all of them are COMPLETED, and otherwise it is left RUNNING.
-/
import AgentCorp.MultiAgent.MultiAgentService

namespace AgentCorp.MultiAgent

open AgentCorp.Python
open Interleaving

variable {Payload : Type}

/-! ## The participants -/

/-- The participants from `index` on, after the loop. -/
def settled (env : StartEnv Payload) (index : Nat)
    (participants : List (MultiAgentParticipant Payload)) : List (MultiAgentParticipant Payload) :=
  (participants.zipIdx index).map fun (participant, i) =>
    settle env.payloads (env.settledAt i) { participant with status := "RUNNING" } (env.outcome i)

@[simp] theorem settled_cons (env : StartEnv Payload) (index : Nat)
    (participant : MultiAgentParticipant Payload) (rest : List (MultiAgentParticipant Payload)) :
    settled env index (participant :: rest) =
      settle env.payloads (env.settledAt index) { participant with status := "RUNNING" }
        (env.outcome index) :: settled env (index + 1) rest := rfl

/-- A participant that has come to its end. -/
def Settled (participant : MultiAgentParticipant Payload) : Prop :=
  (participant.status = "COMPLETED" ∨ participant.status = "FAILED") ∧
    participant.completedAt.isSome = true

theorem settled_settle (payloads : Payloads Payload) (now : Instant)
    (participant : MultiAgentParticipant Payload) (outcome : GoalOutcome Payload) :
    Settled (settle payloads now participant outcome) := by
  cases outcome with
  | executed goalId executionId status executionContext =>
      refine ⟨?_, rfl⟩
      by_cases hstatus : status = "COMPLETED"
      · exact .inl (if_pos hstatus)
      · exact .inr (if_neg hstatus)
  | raised exc => exact ⟨.inr rfl, rfl⟩

/-- Whether the execution of the goal came back as COMPLETED. -/
def GoalOutcome.completed : GoalOutcome Payload → Bool
  | .executed _ _ status _ => status == "COMPLETED"
  | .raised _ => false

theorem settle_completed_iff (payloads : Payloads Payload) (now : Instant)
    (participant : MultiAgentParticipant Payload) (outcome : GoalOutcome Payload) :
    (settle payloads now participant outcome).status = "COMPLETED" ↔ outcome.completed = true := by
  cases outcome with
  | executed goalId executionId status executionContext =>
      by_cases hstatus : status = "COMPLETED"
      · simp [settle, GoalOutcome.completed, hstatus]
      · simp [settle, GoalOutcome.completed, hstatus]
  | raised exc => simp [settle, GoalOutcome.completed]

theorem settled_completed_iff (env : StartEnv Payload) (index : Nat)
    (participants : List (MultiAgentParticipant Payload)) :
    (∀ participant ∈ settled env index participants, participant.status = "COMPLETED") ↔
      ∀ i < participants.length, (env.outcome (index + i)).completed = true := by
  induction participants generalizing index with
  | nil => exact iff_of_true (fun _ hmem => nomatch hmem) fun _ hi => nomatch hi
  | cons participant rest ih =>
      have hshift : ∀ i, index + 1 + i = index + (i + 1) := by
        intro i
        omega
      rw [settled_cons, List.forall_mem_cons, settle_completed_iff, ih, List.length_cons,
        Nat.forall_lt_succ_left']
      simp only [hshift, Nat.add_zero]

theorem settled_all (env : StartEnv Payload) (index : Nat)
    (participants : List (MultiAgentParticipant Payload)) :
    ∀ participant ∈ settled env index participants, Settled participant := by
  intro participant hmem
  obtain ⟨entry, _, rfl⟩ := List.mem_map.mp hmem
  exact settled_settle _ _ _ _

theorem isSessionComplete_iff {participants : List (MultiAgentParticipant Payload)}
    (h : participants ≠ []) :
    isSessionComplete (participants.map (·.status)) = true ↔
      ∀ p ∈ participants, p.status = "COMPLETED" := by
  simp [isSessionComplete, h]

theorem settled_ne_nil (env : StartEnv Payload) {index : Nat}
    {participants : List (MultiAgentParticipant Payload)} (h : participants ≠ []) :
    settled env index participants ≠ [] := by
  intro hnil
  exact h (List.zipIdx_eq_nil_iff.mp (List.map_eq_nil_iff.mp hnil))

/-! ## One commit that nobody disturbs -/

section Solo

variable [DecidableEq Payload]

@[simp] theorem column_stored {α : Type} [DecidableEq α] (stored assigned : α) :
    column stored assigned stored = assigned := by
  unfold column
  by_cases heq : assigned = stored
  · rw [if_pos heq, heq]
  · exact if_neg heq

@[simp] theorem commitSession_stored (stored : MultiAgentSession Payload)
    (write : SessionWrite Payload) :
    commitSession stored (write.assign stored) stored = write.assign stored := by
  cases write <;> simp [commitSession, SessionWrite.assign]

theorem commitParticipant_running (participant : MultiAgentParticipant Payload) :
    commitParticipant participant { participant with status := "RUNNING" } participant =
      { participant with status := "RUNNING" } := by
  simp [commitParticipant]

theorem commitParticipant_settle (payloads : Payloads Payload) (now : Instant)
    (participant : MultiAgentParticipant Payload) (outcome : GoalOutcome Payload) :
    commitParticipant participant (settle payloads now participant outcome) participant =
      settle payloads now participant outcome := by
  cases outcome <;> simp [commitParticipant, settle]

@[simp] theorem run_updateSession (write : SessionWrite Payload) (rows : SessionRows Payload) :
    (updateSession rows.session write).run Commit.apply rows =
      (write.assign rows.session, { rows with session := write.assign rows.session }) := by
  simp [updateSession, Commit.apply]

theorem modify_middle {α : Type} (before rest : List α) (a : α) (f : α → α) :
    (before ++ a :: rest).modify before.length f = before ++ f a :: rest := by
  induction before with
  | nil => rfl
  | cons b before ih => simp [ih]

variable {before rest : List (MultiAgentParticipant Payload)}
  {participant assigned : MultiAgentParticipant Payload} {rows : SessionRows Payload}

theorem run_updateParticipant (hrows : rows.participants = before ++ participant :: rest)
    (hassigned : commitParticipant participant assigned participant = assigned) :
    (updateParticipant before.length participant assigned).run Commit.apply rows =
      (assigned, { rows with participants := before ++ assigned :: rest }) := by
  have hstored : rows.participants.modify before.length (commitParticipant participant assigned) =
      before ++ assigned :: rest := by
    rw [hrows, modify_middle, hassigned]
  simp [updateParticipant, Commit.apply, hstored]

/-- The loop on a session that nobody disturbs. -/
theorem run_runParticipants (env : StartEnv Payload)
    (before todo : List (MultiAgentParticipant Payload)) (rows : SessionRows Payload)
    (hrows : rows.participants = before ++ todo) :
    (runParticipants env before.length todo).run Commit.apply rows =
      (settled env before.length todo,
        { rows with participants := before ++ settled env before.length todo }) := by
  induction todo generalizing before rows with
  | nil => exact congrArg (Prod.mk []) (by rw [settled, List.zipIdx_nil, List.map_nil, ← hrows])
  | cons participant rest ih =>
      unfold runParticipants
      rw [Prog.run_bind, run_updateParticipant hrows (commitParticipant_running participant),
        Prog.run_bind, run_updateParticipant rfl (commitParticipant_settle _ _ _ _),
        Prog.run_bind]
      have hrest := ih (before ++ [settle env.payloads (env.settledAt before.length)
        { participant with status := "RUNNING" } (env.outcome before.length)])
      simp only [List.length_append, List.length_singleton, List.append_assoc,
        List.singleton_append] at hrest
      rw [hrest _ rfl]
      rfl

theorem run_finishSession (participants : List (MultiAgentParticipant Payload))
    (completedAt : Instant) (rows : SessionRows Payload) :
    ∃ result, (finishSession rows.session participants completedAt).run Commit.apply rows =
      ((SessionWrite.complete completedAt result).assign rows.session,
        { rows with
          session := (SessionWrite.complete completedAt result).assign rows.session }) := by
  unfold finishSession
  rw [run_updateSession]
  exact ⟨_, rfl⟩

/-- What a start returns and leaves. -/
theorem run_startSession (env : StartEnv Payload) (rows : SessionRows Payload)
    (hpending : rows.session.status = .pending) (hsome : rows.participants ≠ []) :
    ∃ result session, (startSession env).run Commit.apply rows =
        (.ok session, { session, participants := settled env 0 rows.participants }) ∧
      session =
        if ∀ i < rows.participants.length, (env.outcome i).completed = true then
          (SessionWrite.complete env.completedAt result).assign
            ((SessionWrite.start env.startedAt).assign rows.session)
        else (SessionWrite.start env.startedAt).assign rows.session := by
  let started : SessionRows Payload :=
    { session := (SessionWrite.start env.startedAt).assign rows.session
      participants := settled env 0 rows.participants }
  obtain ⟨result, hfinish⟩ := run_finishSession started.participants env.completedAt started
  have hloop : (runParticipants env 0 rows.participants).run Commit.apply
      { rows with session := started.session } = (started.participants, started) :=
    run_runParticipants env [] rows.participants { rows with session := started.session } rfl
  have hcomplete : isSessionComplete (started.participants.map (·.status)) = true ↔
      ∀ i < rows.participants.length, (env.outcome i).completed = true := by
    rw [isSessionComplete_iff (settled_ne_nil env hsome), settled_completed_iff]
    simp only [Nat.zero_add]
  refine ⟨result, _, ?_, rfl⟩
  unfold startSession
  rw [Prog.run_bind, Prog.run_get]
  dsimp only
  rw [if_neg (not_not.mpr hpending), Prog.run_bind, run_updateSession, Prog.run_bind, Prog.run_get,
    Prog.run_bind, hloop]
  dsimp only
  by_cases hall : ∀ i < rows.participants.length, (env.outcome i).completed = true
  · rw [if_pos (hcomplete.mpr hall), if_pos hall, Prog.run_bind, hfinish, Prog.run_pure]
  · rw [if_neg (mt hcomplete.mp hall), if_neg hall, Prog.run_pure]

/-- **A session that has been created and is started**: every participant comes to its end; the
    session is COMPLETED if every execution is, and otherwise it stays RUNNING. -/
theorem startSession_settles (id organizationId coordinatorAgentId : Int) (name goal : String)
    (participantAgentIds : List Int) (sharedContext : Option (Dict Json)) (createdBy : Int)
    (env : StartEnv Payload) :
    let created := createSession id organizationId coordinatorAgentId name goal
      participantAgentIds sharedContext createdBy
    ∃ session participants, (startSession env).run Commit.apply created =
        (.ok session, { session, participants }) ∧
      participants.length = created.participants.length ∧
      (∀ p ∈ participants, Settled p) ∧
      (session.status, session.completedAt) =
        if ∀ i < participants.length, (env.outcome i).completed = true then
          (.completed, some env.completedAt)
        else (.running, none) := by
  intro created
  have hsome : created.participants ≠ [] := List.cons_ne_nil _ _
  obtain ⟨result, session, hrun, hsession⟩ := run_startSession env created rfl hsome
  have hlength : (settled env 0 created.participants).length = created.participants.length := by
    simp [settled]
  refine ⟨session, _, hrun, hlength, settled_all env 0 _, ?_⟩
  rw [hlength, hsession]
  by_cases hall : ∀ i < created.participants.length, (env.outcome i).completed = true
  · rw [if_pos hall, if_pos hall]
    rfl
  · rw [if_neg hall, if_neg hall]
    rfl

def pairEnv : StartEnv Unit where
  payloads := { executed := fun _ _ _ _ => (), error := fun _ => () }
  outcome := fun i => if i = 0 then .executed 1 1 "COMPLETED" () else .raised (.valueError "no")
  startedAt := ⟨10, ""⟩
  settledAt := fun _ => ⟨20, ""⟩
  completedAt := ⟨40, ""⟩

/-- The goal of one of two agents raises. -/
theorem not_startSession_terminal :
    ¬ ∀ env : StartEnv Unit,
      let rows := ((startSession env).run Commit.apply
        (createSession 1 1 7 "s" "g" [8] none 1)).2
      (∀ p ∈ rows.participants, p.status = "COMPLETED" ∨ p.status = "FAILED") ∧
        rows.session.status.Terminal ∧ rows.session.completedAt.isSome = true := by
  intro hall
  have h := (hall pairEnv).2.1
  revert h
  decide

end Solo

end AgentCorp.MultiAgent
