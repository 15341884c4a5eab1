/-
  Who takes part in a session, and how often.

  `create_session` keeps the coordinator out of the list of participants, and enrols every other
  id as often as it is listed.

  * `executions_startSession`: a start executes every row, in order.
  * `run_updateParticipantStatus`: a report goes to the first row of the agent.
  * `createSession_enrolsOnce_iff`: the lists that enrol every agent once.
-/
import AgentCorp.MultiAgent.SessionCompletion
import Mathlib.Data.List.Nodup

namespace AgentCorp.MultiAgent

open AgentCorp.Python
open Interleaving

variable {Payload : Type}

/-! ## The rows of a new session -/

/-- The coordinator, and the listed agents other than the coordinator. -/
def allAgentIds (coordinatorAgentId : Int) (participantAgentIds : List Int) : List Int :=
  coordinatorAgentId :: participantAgentIds.filter fun a => a != coordinatorAgentId

theorem mem_allAgentIds {coordinatorAgentId agentId : Int} {participantAgentIds : List Int} :
    agentId ∈ allAgentIds coordinatorAgentId participantAgentIds ↔
      agentId = coordinatorAgentId ∨ agentId ∈ participantAgentIds := by
  unfold allAgentIds
  rw [List.mem_cons, List.mem_filter, bne_iff_ne]
  by_cases h : agentId = coordinatorAgentId
  · simp [h]
  · simp [h]

theorem nodup_allAgentIds_iff {coordinatorAgentId : Int} {participantAgentIds : List Int} :
    (allAgentIds coordinatorAgentId participantAgentIds).Nodup ↔
      ∀ agentId ≠ coordinatorAgentId, participantAgentIds.count agentId ≤ 1 := by
  have hnot : coordinatorAgentId ∉
      participantAgentIds.filter fun a => a != coordinatorAgentId := by
    intro hmem
    exact absurd rfl (bne_iff_ne.mp (List.mem_filter.mp hmem).2)
  unfold allAgentIds
  rw [List.nodup_cons, and_iff_right hnot, List.nodup_iff_count_le_one]
  refine forall_congr' fun agentId => ?_
  by_cases h : agentId = coordinatorAgentId
  · rw [h, List.count_eq_zero_of_not_mem hnot]
    exact iff_of_true (Nat.zero_le 1) fun hne => absurd rfl hne
  · have hcount : (participantAgentIds.filter fun a => a != coordinatorAgentId).count agentId =
        participantAgentIds.count agentId := List.count_filter (bne_iff_ne.mpr h)
    rw [hcount]
    exact ⟨fun hle _ => hle, fun hle => hle h⟩

section Rows

variable {id organizationId coordinatorAgentId : Int} {name goal : String}
  {participantAgentIds : List Int} {sharedContext : Option (Dict Json)} {createdBy : Int}
  {rows : SessionRows Payload}

theorem participants_createSession
    (hrows : rows = createSession id organizationId coordinatorAgentId name goal
      participantAgentIds sharedContext createdBy) :
    rows.participants = (allAgentIds coordinatorAgentId participantAgentIds).zipIdx.map fun entry =>
      { sessionId := id
        agentId := entry.1
        role := if entry.1 = coordinatorAgentId then "coordinator" else "worker"
        subTask := "[Sub-task " ++ toString (entry.2 + 1) ++ "/" ++
          toString (allAgentIds coordinatorAgentId participantAgentIds).length ++ "] " ++ goal
        status := "PENDING" } := by
  rw [hrows]
  exact List.map_map

theorem map_agentId_createSession
    (hrows : rows = createSession id organizationId coordinatorAgentId name goal
      participantAgentIds sharedContext createdBy) :
    rows.participants.map (·.agentId) = allAgentIds coordinatorAgentId participantAgentIds := by
  rw [participants_createSession hrows, List.map_map]
  exact List.zipIdx_map_fst 0 _

/-- Whatever is listed, the coordinator has the one row with its role. -/
theorem coordinator_createSession
    (hrows : rows = createSession id organizationId coordinatorAgentId name goal
      participantAgentIds sharedContext createdBy) :
    (rows.participants.filter (·.role == "coordinator")).map (·.agentId) =
      [coordinatorAgentId] := by
  have hrole : ∀ p ∈ rows.participants,
      (p.role == "coordinator") = (p.agentId == coordinatorAgentId) := by
    rw [participants_createSession hrows]
    intro p hp
    obtain ⟨entry, -, rfl⟩ := List.mem_map.mp hp
    dsimp only
    by_cases h : entry.1 = coordinatorAgentId
    · rw [if_pos h, beq_self_eq_true, beq_iff_eq.mpr h]
    · rw [if_neg h, beq_eq_false_iff_ne.mpr h]
      decide
  have hfilter : (rows.participants.map (·.agentId)).filter (· == coordinatorAgentId) =
      (rows.participants.filter (·.role == "coordinator")).map (·.agentId) := by
    rw [List.filter_map, List.filter_congr hrole]
    rfl
  rw [← hfilter, map_agentId_createSession hrows]
  unfold allAgentIds
  simp

/-- The sub-tasks are numbered, as many as there are rows. -/
theorem numbered_createSession
    (hrows : rows = createSession id organizationId coordinatorAgentId name goal
      participantAgentIds sharedContext createdBy) (i : Nat) (p : MultiAgentParticipant Payload)
    (hp : rows.participants[i]? = some p) :
    p.subTask = "[Sub-task " ++ toString (i + 1) ++ "/" ++ toString rows.participants.length ++
      "] " ++ goal := by
  have hlength := congrArg List.length (map_agentId_createSession hrows)
  rw [List.length_map] at hlength
  rw [participants_createSession hrows, List.getElem?_map, List.getElem?_zipIdx, Option.map_map]
    at hp
  obtain ⟨agentId, -, rfl⟩ := Option.map_eq_some_iff.mp hp
  rw [hlength]
  simp

end Rows

/-! ## What a start executes -/

/-- The agent whose execution this commit stores. -/
def Commit.execution : Commit Payload → Option Int
  | .participant _ _ assigned => assigned.result.map fun _ => assigned.agentId
  | .session _ _ => none

theorem execution_settle (index : Nat) (loaded : MultiAgentParticipant Payload)
    (payloads : Payloads Payload) (now : Instant) (participant : MultiAgentParticipant Payload)
    (outcome : GoalOutcome Payload) :
    (Commit.participant index loaded (settle payloads now participant outcome)).execution =
      some participant.agentId := by
  cases outcome <;> rfl

theorem execution_of_result_none {index : Nat}
    {loaded assigned : MultiAgentParticipant Payload} (h : assigned.result = none) :
    (Commit.participant index loaded assigned).execution = none := by
  show assigned.result.map _ = none
  rw [h]
  rfl

section Executions

variable [DecidableEq Payload]

/-- The agents that a call executes, in order. -/
def executions {α : Type} (call : Service Payload α) (rows : SessionRows Payload) : List Int :=
  (call.commits Commit.apply rows).filterMap Commit.execution

theorem executions_bind {α β : Type} (x : Service Payload α) (f : α → Service Payload β)
    (rows : SessionRows Payload) :
    executions (x >>= f) rows =
      executions x rows ++
        executions (f (x.run Commit.apply rows).1) (x.run Commit.apply rows).2 := by
  unfold executions
  rw [Prog.commits_bind, List.filterMap_append]

theorem executions_get {α : Type} (f : SessionRows Payload → α) (rows : SessionRows Payload) :
    executions (Prog.get f) rows = [] := rfl

theorem executions_pure {α : Type} (a : α) (rows : SessionRows Payload) :
    executions (pure a : Service Payload α) rows = [] := rfl

theorem executions_updateSession (loaded : MultiAgentSession Payload)
    (write : SessionWrite Payload) (rows : SessionRows Payload) :
    executions (updateSession loaded write) rows = [] := rfl

theorem executions_updateParticipant (index : Nat)
    (loaded assigned : MultiAgentParticipant Payload) (rows : SessionRows Payload) :
    executions (updateParticipant index loaded assigned) rows =
      (Commit.participant index loaded assigned).execution.toList := by
  show [Commit.participant index loaded assigned].filterMap Commit.execution = _
  rw [List.filterMap_cons]
  cases (Commit.participant index loaded assigned).execution <;> rfl

/-- Every row that has no result yet is executed, in turn. -/
theorem executions_runParticipants (env : StartEnv Payload)
    (before todo : List (MultiAgentParticipant Payload)) (rows : SessionRows Payload)
    (hrows : rows.participants = before ++ todo) (htodo : ∀ p ∈ todo, p.result = none) :
    executions (runParticipants env before.length todo) rows = todo.map (·.agentId) := by
  induction todo generalizing before rows with
  | nil => rfl
  | cons participant rest ih =>
      have hnone : ({ participant with status := "RUNNING" } :
          MultiAgentParticipant Payload).result = none := htodo participant List.mem_cons_self
      unfold runParticipants
      rw [executions_bind, executions_updateParticipant, execution_of_result_none hnone,
        run_updateParticipant hrows (commitParticipant_running participant), executions_bind,
        executions_updateParticipant, execution_settle,
        run_updateParticipant rfl (commitParticipant_settle _ _ _ _), executions_bind]
      have hrest := ih (before ++ [settle env.payloads (env.settledAt before.length)
        { participant with status := "RUNNING" } (env.outcome before.length)])
      simp only [List.length_append, List.length_singleton, List.append_assoc,
        List.singleton_append] at hrest
      rw [hrest _ rfl fun p hp => htodo p (List.mem_cons_of_mem _ hp)]
      exact congrArg (participant.agentId :: ·) (List.append_nil _)

theorem executions_finishSession (session : MultiAgentSession Payload)
    (participants : List (MultiAgentParticipant Payload)) (completedAt : Instant)
    (rows : SessionRows Payload) :
    executions (finishSession session participants completedAt) rows = [] := rfl

/-- A start executes the agents of the rows, in their order. -/
theorem executions_startSession (env : StartEnv Payload) (rows : SessionRows Payload)
    (hpending : rows.session.status = .pending)
    (hnone : ∀ p ∈ rows.participants, p.result = none) :
    executions (startSession env) rows = rows.participants.map (·.agentId) := by
  let started : SessionRows Payload :=
    { rows with session := (SessionWrite.start env.startedAt).assign rows.session }
  have hloop : executions (runParticipants env 0 rows.participants) started =
      rows.participants.map (·.agentId) :=
    executions_runParticipants env [] rows.participants started rfl hnone
  have hrest : ∀ loaded session participants rows',
      executions (if isSessionComplete (participants.map (·.status)) then do
          let session ← finishSession loaded participants env.completedAt
          return .ok session
        else return .ok session : Service Payload (Except Exn (MultiAgentSession Payload)))
        rows' = [] := by
    intro loaded session participants rows'
    split
    · rw [executions_bind, executions_finishSession, executions_pure]
      rfl
    · rfl
  unfold startSession
  rw [executions_bind, executions_get, Prog.run_get]
  dsimp only
  rw [if_neg (not_not.mpr hpending), executions_bind, executions_updateSession, run_updateSession,
    executions_bind, executions_get, Prog.run_get, executions_bind, hloop, hrest]
  simp only [List.nil_append, List.append_nil]

end Executions

/-! ## Where a report goes -/

section Reports

variable [DecidableEq Payload]

/-- What `update_participant_status` assigns. -/
def reported (status : String) (result : Option Payload) (now : Instant)
    (participant : MultiAgentParticipant Payload) : MultiAgentParticipant Payload :=
  { participant with
    status
    result := result <|> participant.result
    completedAt :=
      if status = "COMPLETED" ∨ status = "FAILED" then some now else participant.completedAt }

theorem commitParticipant_reported (status : String) (result : Option Payload) (now : Instant)
    (participant : MultiAgentParticipant Payload) :
    commitParticipant participant (reported status result now participant) participant =
      reported status result now participant := by
  simp only [commitParticipant, reported, column_stored]

/-- A report goes to the first row of the agent. -/
theorem run_updateParticipantStatus {rows : SessionRows Payload}
    {before rest : List (MultiAgentParticipant Payload)}
    {participant : MultiAgentParticipant Payload} {agentId : Int} (status : String)
    (result : Option Payload) (now : Instant)
    (hrows : rows.participants = before ++ participant :: rest)
    (hagent : participant.agentId = agentId) (hbefore : ∀ p ∈ before, p.agentId ≠ agentId) :
    (updateParticipantStatus agentId status result now).run Commit.apply rows =
      (.ok (reported status result now participant),
        { rows with
          participants := before ++ reported status result now participant :: rest }) := by
  have hindex : rows.participants.findIdx? (·.agentId == agentId) = some before.length := by
    have hnone : before.findIdx? (·.agentId == agentId) = none := by
      refine List.findIdx?_eq_none_iff.mpr fun p hp => ?_
      exact beq_eq_false_iff_ne.mpr (hbefore p hp)
    rw [hrows, List.findIdx?_append, hnone, List.findIdx?_cons, if_pos (beq_iff_eq.mpr hagent)]
    simp
  have hget : rows.participants[before.length]? = some participant := by
    rw [hrows, List.getElem?_append_right (Nat.le_refl _), Nat.sub_self]
    rfl
  have hupdate := run_updateParticipant hrows (commitParticipant_reported status result now
    participant)
  unfold updateParticipantStatus
  rw [Prog.run_bind, Prog.run_get, Prog.run_bind, Prog.run_get]
  simp only [hindex, Option.bind_some, hget, Option.map_some]
  show (updateParticipant before.length participant (reported status result now participant) >>=
    fun p => pure (Except.ok p)).run Commit.apply rows = _
  rw [Prog.run_bind, hupdate]
  rfl

end Reports

/-! ## Enrolment -/

section Enrolment

variable [DecidableEq Payload]

/-- The only row of the agent is this one: it is the one that a report changes. -/
def Addressed (rows : SessionRows Payload) (agentId : Int) : Prop :=
  ∃ before participant rest, rows.participants = before ++ participant :: rest ∧
    participant.agentId = agentId ∧ (∀ p ∈ before ++ rest, p.agentId ≠ agentId) ∧
    ∀ status result now,
      (updateParticipantStatus agentId status result now).run Commit.apply rows =
        (.ok (reported status result now participant),
          { rows with
            participants := before ++ reported status result now participant :: rest })

/-- Every agent of the session is enrolled once. -/
structure EnrolsOnce (goal : String) (coordinatorAgentId : Int) (participantAgentIds : List Int)
    (rows : SessionRows Payload) : Prop where
  one : ∀ agentId, rows.participants.countP (·.agentId == agentId) =
    if agentId = coordinatorAgentId ∨ agentId ∈ participantAgentIds then 1 else 0
  coordinator : (rows.participants.filter (·.role == "coordinator")).map (·.agentId) =
    [coordinatorAgentId]
  numbered : ∀ i p, rows.participants[i]? = some p →
    p.subTask = "[Sub-task " ++ toString (i + 1) ++ "/" ++ toString rows.participants.length ++
      "] " ++ goal
  executed : ∀ (env : StartEnv Payload) (agentId : Int),
    (executions (startSession env) rows).count agentId =
      if agentId = coordinatorAgentId ∨ agentId ∈ participantAgentIds then 1 else 0
  addressed : ∀ agentId, agentId = coordinatorAgentId ∨ agentId ∈ participantAgentIds →
    Addressed rows agentId

theorem addressed_of_nodup {rows : SessionRows Payload} {agentId : Int}
    (hnodup : (rows.participants.map (·.agentId)).Nodup)
    (hmem : agentId ∈ rows.participants.map (·.agentId)) : Addressed rows agentId := by
  obtain ⟨participant, hmem, hagent⟩ := List.mem_map.mp hmem
  obtain ⟨before, rest, hrows⟩ := List.append_of_mem hmem
  rw [hrows, List.map_append, List.map_cons, hagent, List.nodup_middle, List.nodup_cons,
    ← List.map_append] at hnodup
  have hothers : ∀ p ∈ before ++ rest, p.agentId ≠ agentId := fun p hp heq =>
    hnodup.1 (List.mem_map.mpr ⟨p, hp, heq⟩)
  refine ⟨before, participant, rest, hrows, hagent, hothers, fun status result now => ?_⟩
  exact run_updateParticipantStatus status result now hrows hagent fun p hp =>
    hothers p (List.mem_append_left rest hp)

/-- Every agent is enrolled once if none but the coordinator is listed twice. -/
theorem createSession_enrolsOnce_iff (id organizationId coordinatorAgentId : Int)
    (name goal : String) (participantAgentIds : List Int) (sharedContext : Option (Dict Json))
    (createdBy : Int) :
    EnrolsOnce goal coordinatorAgentId participantAgentIds
        (createSession id organizationId coordinatorAgentId name goal participantAgentIds
          sharedContext createdBy : SessionRows Payload) ↔
      ∀ agentId ≠ coordinatorAgentId, participantAgentIds.count agentId ≤ 1 := by
  obtain ⟨rows, hrows⟩ : ∃ rows : SessionRows Payload, rows = createSession id organizationId
    coordinatorAgentId name goal participantAgentIds sharedContext createdBy := ⟨_, rfl⟩
  have hids := map_agentId_createSession hrows
  have hcountP : ∀ agentId, rows.participants.countP (·.agentId == agentId) =
      (allAgentIds coordinatorAgentId participantAgentIds).count agentId := by
    intro agentId
    rw [← hids, List.count, List.countP_map]
    rfl
  rw [← hrows, ← nodup_allAgentIds_iff]
  constructor
  · intro h
    refine List.nodup_iff_count_le_one.mpr fun agentId => ?_
    rw [← hcountP, h.one]
    split <;> omega
  · intro hnodup
    have hcount : ∀ agentId, (allAgentIds coordinatorAgentId participantAgentIds).count agentId =
        if agentId = coordinatorAgentId ∨ agentId ∈ participantAgentIds then 1 else 0 := by
      intro agentId
      rw [hnodup.count]
      exact if_congr mem_allAgentIds rfl rfl
    refine ⟨fun agentId => (hcountP agentId).trans (hcount agentId),
      coordinator_createSession hrows, numbered_createSession hrows, fun env agentId => ?_,
      fun agentId henrolled => ?_⟩
    · rw [executions_startSession env rows, hids]
      · exact hcount agentId
      · rw [hrows]
        rfl
      · intro p hp
        rw [participants_createSession hrows] at hp
        obtain ⟨entry, -, rfl⟩ := List.mem_map.mp hp
        rfl
    · rw [← hids] at hnodup
      refine addressed_of_nodup hnodup ?_
      rw [hids]
      exact mem_allAgentIds.mpr henrolled

end Enrolment

/-- An agent that is listed twice has two rows. -/
theorem not_enrolsOnce_twice :
    ¬ EnrolsOnce "g" 7 [8, 8] (createSession 1 1 7 "s" "g" [8, 8] none 1 : SessionRows Unit) := by
  intro h
  have hone := h.one 8
  revert hone
  decide

end AgentCorp.MultiAgent
