/-
  The calls on one multi-agent session: create, start, complete, cancel, and the report of a
  participant.

  A call is a program over the rows of its session. Every query, commit and refresh is a step of
  its own. A commit writes the columns whose value differs from the one that was loaded, and what
  a request has loaded it sees again until it refreshes the row itself.
-/
import AgentCorp.Lib.Interleaving
import AgentCorp.MultiAgent.Models

namespace AgentCorp.MultiAgent

open AgentCorp.Python
open Interleaving

variable {Payload : Type}

/-! ## Coordinator -/

/-- `Coordinator.decompose_goal`, for agents that are there. -/
def decomposeGoal (goal : String) (agentIds : List Int) : List (Int × String) :=
  agentIds.zipIdx.map fun (agentId, idx) =>
    (agentId,
      "[Sub-task " ++ toString (idx + 1) ++ "/" ++ toString agentIds.length ++ "] " ++ goal)

def isSessionComplete (participantStatuses : List String) : Bool :=
  !participantStatuses.isEmpty && participantStatuses.all (· == "COMPLETED")

def mergeResults (results : List (Int × Payload)) : MergedResult Payload :=
  if results.isEmpty then { results := [], summary := "No results collected." }
  else
    { results
      summary := "Session completed with " ++ toString results.length ++
        " agent(s) contributing results." }

/-! ## Rows and commits -/

/-- A session and its participants, as they are stored. -/
structure SessionRows (Payload : Type) where
  session : MultiAgentSession Payload
  participants : List (MultiAgentParticipant Payload)

/-- What a call sets in the row of the session. -/
inductive SessionWrite (Payload : Type) where
  | start (startedAt : Instant)
  | complete (completedAt : Instant) (result : MergedResult Payload)
  | cancel (completedAt : Instant)
  deriving DecidableEq

def SessionWrite.assign (session : MultiAgentSession Payload) :
    SessionWrite Payload → MultiAgentSession Payload
  | .start startedAt => { session with status := .running, startedAt := some startedAt }
  | .complete completedAt result =>
      { session with
        status := .completed
        completedAt := some completedAt
        result := some result }
  | .cancel completedAt =>
      { session with status := .cancelled, completedAt := some completedAt }

/-- A commit, with the object as it was loaded. -/
inductive Commit (Payload : Type) where
  | session (loaded : MultiAgentSession Payload) (write : SessionWrite Payload)
  | participant (index : Nat) (loaded assigned : MultiAgentParticipant Payload)

/-- A column after a commit. -/
def column {α : Type} [DecidableEq α] (loaded assigned stored : α) : α :=
  if assigned = loaded then stored else assigned

variable [DecidableEq Payload]

def commitSession (loaded assigned stored : MultiAgentSession Payload) :
    MultiAgentSession Payload :=
  { stored with
    status := column loaded.status assigned.status stored.status
    startedAt := column loaded.startedAt assigned.startedAt stored.startedAt
    completedAt := column loaded.completedAt assigned.completedAt stored.completedAt
    result := column loaded.result assigned.result stored.result }

def commitParticipant (loaded assigned stored : MultiAgentParticipant Payload) :
    MultiAgentParticipant Payload :=
  { stored with
    status := column loaded.status assigned.status stored.status
    completedAt := column loaded.completedAt assigned.completedAt stored.completedAt
    result := column loaded.result assigned.result stored.result }

def Commit.apply : Commit Payload → SessionRows Payload → SessionRows Payload
  | .session loaded write, rows =>
      { rows with session := commitSession loaded (write.assign loaded) rows.session }
  | .participant index loaded assigned, rows =>
      { rows with
        participants := rows.participants.modify index (commitParticipant loaded assigned) }

/-! ## Calls -/

/-- The rows that `create_session` stores. -/
def createSession (id organizationId coordinatorAgentId : Int) (name goal : String)
    (participantAgentIds : List Int) (sharedContext : Option (Dict Json)) (createdBy : Int) :
    SessionRows Payload :=
  let session : MultiAgentSession Payload :=
    { id, organizationId, coordinatorAgentId, name, goal
      status := .pending
      sharedContext := sharedContext.getD []
      createdBy }
  let allAgentIds :=
    [coordinatorAgentId] ++ participantAgentIds.filter fun a => a != coordinatorAgentId
  let subTasks := decomposeGoal goal allAgentIds
  { session
    participants := subTasks.map fun (agentId, task) =>
      { sessionId := id
        agentId
        role := if agentId = coordinatorAgentId then "coordinator" else "worker"
        subTask := task
        status := "PENDING" } }

/-- A call on a session. -/
abbrev Service (Payload α : Type) := Prog (SessionRows Payload) (Commit Payload) α

/-- `session_repo.update`: commit and refresh. -/
def updateSession (loaded : MultiAgentSession Payload) (write : SessionWrite Payload) :
    Service Payload (MultiAgentSession Payload) := do
  Prog.emit (.session loaded write)
  Prog.get (·.session)

/-- `participant_repo.update`. -/
def updateParticipant (index : Nat) (loaded assigned : MultiAgentParticipant Payload) :
    Service Payload (MultiAgentParticipant Payload) := do
  Prog.emit (.participant index loaded assigned)
  Prog.get fun rows => rows.participants.getD index assigned

/-- The dictionaries that `start_session` stores as the result of a participant. -/
structure Payloads (Payload : Type) where
  executed (goalId executionId : Int) (status : String) (executionContext : Payload) : Payload
  error (text : String) : Payload

/-- How creating and executing the goal of a participant ends. -/
inductive GoalOutcome (Payload : Type) where
  | executed (goalId executionId : Int) (status : String) (executionContext : Payload)
  | raised (exc : Exn)

/-- What one call of `start_session` meets, by participant. -/
structure StartEnv (Payload : Type) where
  payloads : Payloads Payload
  outcome : Nat → GoalOutcome Payload
  startedAt : Instant
  settledAt : Nat → Instant
  completedAt : Instant

/-- A participant whose goal has come to its end. -/
def settle (payloads : Payloads Payload) (now : Instant)
    (participant : MultiAgentParticipant Payload) :
    GoalOutcome Payload → MultiAgentParticipant Payload
  | .executed goalId executionId status executionContext =>
      { participant with
        status := if status = "COMPLETED" then "COMPLETED" else "FAILED"
        result := some (payloads.executed goalId executionId status executionContext)
        completedAt := some now }
  | .raised exc =>
      { participant with
        status := "FAILED"
        result := some (payloads.error exc.text)
        completedAt := some now }

/-- The loop of `start_session`, from the participant `index` on. -/
def runParticipants (env : StartEnv Payload) (index : Nat) :
    List (MultiAgentParticipant Payload) →
    Service Payload (List (MultiAgentParticipant Payload))
  | [] => pure []
  | participant :: rest => do
      let participant ← updateParticipant index participant
        { participant with status := "RUNNING" }
      let participant ← updateParticipant index participant
        (settle env.payloads (env.settledAt index) participant (env.outcome index))
      let rest ← runParticipants env (index + 1) rest
      return participant :: rest

/-- The rest of `complete_session`, once the rows are loaded. -/
def finishSession (session : MultiAgentSession Payload)
    (participants : List (MultiAgentParticipant Payload)) (completedAt : Instant) :
    Service Payload (MultiAgentSession Payload) :=
  let merged := mergeResults (participants.filterMap fun p => p.result.map fun r => (p.agentId, r))
  updateSession session (.complete completedAt merged)

def cannotBeStarted (status : SessionStatus) : Exn :=
  .valueError ("Session is in state '" ++ status.value ++ "' and cannot be started.")

def startSession (env : StartEnv Payload) :
    Service Payload (Except Exn (MultiAgentSession Payload)) := do
  let session ← Prog.get (·.session)
  if session.status ≠ .pending then return .error (cannotBeStarted session.status)
  let session ← updateSession session (.start env.startedAt)
  let participants ← Prog.get (·.participants)
  let participants ← runParticipants env 0 participants
  if isSessionComplete (participants.map (·.status)) then
    -- `complete_session` gets the objects that this request has loaded.
    let session ← finishSession session participants env.completedAt
    return .ok session
  return .ok session

def completeSession (completedAt : Instant) :
    Service Payload (MultiAgentSession Payload) := do
  let session ← Prog.get (·.session)
  let participants ← Prog.get (·.participants)
  finishSession session participants completedAt

def cancelSession (completedAt : Instant) : Service Payload (MultiAgentSession Payload) := do
  let session ← Prog.get (·.session)
  updateSession session (.cancel completedAt)

def notParticipant (sessionId agentId : Int) : Exn :=
  .other "AgentNotParticipantError"
    ("Agent " ++ toString agentId ++ " is not a participant in session " ++ toString sessionId ++
      ".")

def updateParticipantStatus (agentId : Int) (status : String) (result : Option Payload)
    (now : Instant) : Service Payload (Except Exn (MultiAgentParticipant Payload)) := do
  let session ← Prog.get (·.session)
  let found ← Prog.get fun rows =>
    (rows.participants.findIdx? (·.agentId == agentId)).bind fun index =>
      rows.participants[index]?.map fun participant => (index, participant)
  match found with
  | none => return .error (notParticipant session.id agentId)
  | some (index, participant) =>
      let participant ← updateParticipant index participant
        { participant with
          status
          result := result <|> participant.result
          completedAt :=
            if status = "COMPLETED" ∨ status = "FAILED" then some now
            else participant.completedAt }
      return .ok participant

end AgentCorp.MultiAgent
