/-
  The rows of multi-agent sessions.

  A `Payload` is what a JSON column of results holds, up to `==`. The id of a row other than a
  session is its position in its table.
-/
import AgentCorp.Python.Data

namespace AgentCorp.MultiAgent

open AgentCorp.Python

inductive SessionStatus where
  | pending | running | completed | cancelled
  deriving DecidableEq, Repr

/-- The text of the column. -/
def SessionStatus.value : SessionStatus → String
  | .pending => "PENDING"
  | .running => "RUNNING"
  | .completed => "COMPLETED"
  | .cancelled => "CANCELLED"

def SessionStatus.Terminal (status : SessionStatus) : Prop :=
  status = .completed ∨ status = .cancelled

instance (status : SessionStatus) : Decidable status.Terminal :=
  inferInstanceAs (Decidable (_ ∨ _))

/-- The merged result of a session: the outputs of its agents and a summary. -/
structure MergedResult (Payload : Type) where
  results : List (Int × Payload)
  summary : String
  deriving DecidableEq, Repr

structure MultiAgentSession (Payload : Type) where
  id : Int
  organizationId : Int
  coordinatorAgentId : Int
  name : String
  goal : String
  status : SessionStatus
  sharedContext : Dict Json
  result : Option (MergedResult Payload) := none
  startedAt : Option Instant := none
  completedAt : Option Instant := none
  createdBy : Int

structure MultiAgentParticipant (Payload : Type) where
  sessionId : Int
  agentId : Int
  role : String
  subTask : String
  status : String
  result : Option Payload := none
  completedAt : Option Instant := none

structure AgentDelegation where
  sessionId : Int
  fromAgentId : Int
  toAgentId : Int
  taskDescription : String
  context : Dict Json
  delegationDepth : Nat
  status : String

structure MultiAgentDb (Payload : Type) where
  sessions : List (MultiAgentSession Payload)
  participants : List (MultiAgentParticipant Payload)
  delegations : List AgentDelegation

variable {Payload : Type}

def sessionNotFound (sessionId : Int) : Exn :=
  .other "SessionNotFoundError" ("Session " ++ toString sessionId ++ " not found.")

/-- `get_session`, with the position of the row. -/
def getSession (db : MultiAgentDb Payload) (organizationId sessionId : Int) : Except Exn Nat :=
  match db.sessions.findIdx? fun s => s.organizationId == organizationId && s.id == sessionId with
  | some i => .ok i
  | none => .error (sessionNotFound sessionId)

/-- `MultiAgentParticipantRepository.list_by_session`. -/
def participantsOf (db : MultiAgentDb Payload) (sessionId : Int) :
    List (MultiAgentParticipant Payload) :=
  db.participants.filter (·.sessionId == sessionId)

def participantAgentIds (db : MultiAgentDb Payload) (sessionId : Int) : List Int :=
  (participantsOf db sessionId).map (·.agentId)

/-- `AgentDelegationRepository.list_by_session`. -/
def delegationsOf (db : MultiAgentDb Payload) (sessionId : Int) : List AgentDelegation :=
  db.delegations.filter (·.sessionId == sessionId)

end AgentCorp.MultiAgent
