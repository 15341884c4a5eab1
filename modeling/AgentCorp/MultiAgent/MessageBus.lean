/-
  The message bus of a session, and what is stored of a message that it delivers.

  `publish` starts every callback in one task group and logs what the group raises. The group
  cancels the callbacks that have not ended once one of them has raised.

  * `publish_ok`: `publish` does not raise, however its callbacks end.
  * `publish_isolates_iff`: the subscribers that do not disturb each other.
-/
import AgentCorp.Chat.Messages
import AgentCorp.Lib.Table
import AgentCorp.Lib.TaskGroup
import AgentCorp.MultiAgent.MultiAgentService
import Mathlib.Data.Fintype.Basic

namespace AgentCorp.MultiAgent

open AgentCorp.Python AgentCorp.Chat
open TaskGroup

/-! ## MessageBus -/

/-- A callback, on the message it is given. -/
abbrev Callback := TaskGroup.Task Exn

/-- The registry of the bus, and the task group that it uses. -/
structure MessageBus where
  subscribers : Int → List Callback
  interruptsStart : Bool
  exceptionGroup : List Exn → Exn

namespace MessageBus

variable (bus : MessageBus) (sessionId : Int)

/-- The tasks of one call of `publish`: the callbacks that are registered then. -/
def tasks (i : Fin (bus.subscribers sessionId).length) : Callback :=
  (bus.subscribers sessionId).get i

/-- How the callbacks end. -/
abbrev Delivery := Fin (bus.subscribers sessionId).length → Status Exn

/-- `async with anyio.create_task_group()`, at its end. -/
def leaveTaskGroup (ended : bus.Delivery sessionId) : Except BaseExn Unit :=
  match (List.ofFn ended).filterMap Status.failure with
  | [] => .ok ()
  | exceptions => .error (.exception (bus.exceptionGroup exceptions))

/-- `MessageBus.publish`. -/
def publish (ended : bus.Delivery sessionId) : Except BaseExn Unit :=
  if (bus.subscribers sessionId).isEmpty then .ok ()
  else
    match bus.leaveTaskGroup sessionId ended with
    | .error (.exception _) => .ok ()
    | result => result

/-- The callbacks of this delivery are run to the end. -/
def Delivers (ended : bus.Delivery sessionId) : Prop :=
  Completes (bus.tasks sessionId) bus.interruptsStart ended

end MessageBus

/-! ## send_message -/

structure AgentInterMessage where
  sessionId : Int
  fromAgentId : Int
  toAgentId : Option Int
  messageType : String
  content : Dict Json
  delivered : Bool

/-- The arguments of `send_message`, without the session. -/
structure SendRequest where
  organizationId : Int
  fromAgentId : Int
  toAgentId : Option Int
  messageType : String
  content : Dict Json

def SendRequest.message (request : SendRequest) (sessionId : Int) : AgentInterMessage where
  sessionId
  fromAgentId := request.fromAgentId
  toAgentId := request.toAgentId
  messageType := request.messageType
  content := request.content
  delivered := false

/-- `message_repo.create` and `message_repo.update`. -/
structure MessageWrites where
  create : WriteOutcome
  update : WriteOutcome

variable {Payload : Type}

/-- `send_message`, whose callbacks end like this. -/
def sendMessage (db : MultiAgentDb Payload) (writes : MessageWrites) (bus : MessageBus)
    (sessionId : Int) (request : SendRequest) (ended : bus.Delivery sessionId) :
    Py (Table AgentInterMessage) Nat := do
  let _ ← Py.ofResult (getSession db request.organizationId sessionId)
  if request.fromAgentId ∉ participantAgentIds db sessionId then
    Py.raise (notParticipant sessionId request.fromAgentId)
  let messageId := (← get).next
  Py.ofResult writes.create.commit
  modify (·.insert (request.message sessionId))
  Py.ofResult writes.create.refresh
  Proc.ofExcept (bus.publish sessionId ended)
  Py.ofResult writes.update.commit
  modify (·.modify messageId fun message => { message with delivered := true })
  Py.ofResult writes.update.refresh
  return messageId

/-! ## Isolation -/

namespace MessageBus

variable (bus : MessageBus) (sessionId : Int)

/-- Whatever the callbacks raise is logged. -/
theorem publish_ok (ended : bus.Delivery sessionId) : bus.publish sessionId ended = .ok () := by
  unfold publish leaveTaskGroup
  split
  · rfl
  · cases (List.ofFn ended).filterMap Status.failure <;> rfl

/-- Every callback that does not fail came to its end. -/
def Reached (ended : bus.Delivery sessionId) : Prop :=
  ∀ i, (bus.tasks sessionId i).failure = none → ended i = .returned

/-- A message that this call stores as delivered has reached them. -/
def DeliveredIfReached (Payload : Type) (ended : bus.Delivery sessionId) : Prop :=
  ∀ (db : MultiAgentDb Payload) (writes : MessageWrites) (request : SendRequest)
    (messages : Table AgentInterMessage) (message : AgentInterMessage),
    (Proc.after (sendMessage db writes bus sessionId request ended) messages).get messages.next =
      some message → message.delivered = true → bus.Reached sessionId ended

/-- What the failures of some callbacks leave untouched. -/
structure Isolated (Payload : Type) (ended : bus.Delivery sessionId) : Prop where
  quiet : bus.publish sessionId ended = .ok ()
  reached : bus.Reached sessionId ended
  delivered : bus.DeliveredIfReached sessionId Payload ended

/-- Delivery to the subscribers of a session is isolated, however they are scheduled, if none of
    them fails, or if those that do not fail have no suspension point and the task group lets a
    task take its first step. -/
theorem publish_isolates_iff (Payload : Type) :
    (∀ ended, bus.Delivers sessionId ended → bus.Isolated sessionId Payload ended) ↔
      (∀ callback ∈ bus.subscribers sessionId, callback.failure = none) ∨
        ∀ callback ∈ bus.subscribers sessionId, callback.failure = none →
          callback.suspensions = 0 ∧ bus.interruptsStart = false := by
  have hreached : (∀ ended, bus.Delivers sessionId ended → bus.Isolated sessionId Payload ended) ↔
      ∀ ended, bus.Delivers sessionId ended → bus.Reached sessionId ended := by
    constructor
    · exact fun h ended hended => (h ended hended).reached
    · intro h ended hended
      have hall := h ended hended
      exact ⟨bus.publish_ok sessionId ended, hall, fun _ _ _ _ _ _ _ => hall⟩
  have hfailures : (∀ callback ∈ bus.subscribers sessionId, callback.failure = none) ↔
      ∀ i, (bus.tasks sessionId i).failure = none := List.forall_mem_iff_get
  have hbrief : (∀ callback ∈ bus.subscribers sessionId, callback.failure = none →
      callback.suspensions = 0 ∧ bus.interruptsStart = false) ↔
        Brief (bus.tasks sessionId) bus.interruptsStart := List.forall_mem_iff_get
  rw [hreached, hfailures, hbrief]
  exact all_return_iff

end MessageBus

/-! ## A callback that is cut off -/

/-- If nothing else fails, a message is stored as delivered, however its callbacks end. -/
theorem run_sendMessage {db : MultiAgentDb Payload} {bus : MessageBus} {sessionId : Int}
    {request : SendRequest} {index : Nat}
    (hsession : getSession db request.organizationId sessionId = .ok index)
    (hsender : request.fromAgentId ∈ participantAgentIds db sessionId)
    (ended : bus.Delivery sessionId) (messages : Table AgentInterMessage) :
    (sendMessage db ⟨.succeeds, .succeeds⟩ bus sessionId request ended).run messages =
      .ok messages.next ((messages.insert (request.message sessionId)).modify messages.next
        fun message => { message with delivered := true }) := by
  unfold sendMessage
  rw [hsession, Py.ofResult_ok_bind, if_neg (not_not.mpr hsender), bus.publish_ok]
  rfl

/-- One callback suspends once, the other one raises. -/
def twoSubscribers : MessageBus where
  subscribers := fun _ => [⟨1, none⟩, ⟨0, some (.valueError "no")⟩]
  interruptsStart := false
  exceptionGroup := fun _ => .other "ExceptionGroup" "unhandled errors in a TaskGroup"

def pairSession : SessionRows Unit :=
  createSession 1 1 7 "s" "g" [8] none 1

def pairDb : MultiAgentDb Unit where
  sessions := [pairSession.session]
  participants := pairSession.participants
  delegations := []

def helloRequest : SendRequest where
  organizationId := 1
  fromAgentId := 7
  toAgentId := none
  messageType := "text"
  content := []

/-- The first callback is cancelled where it is suspended, nothing is raised, and the message is
    stored as delivered. -/
theorem twoSubscribers_not_isolated :
    ∃ ended, twoSubscribers.Delivers 1 ended ∧ ended ⟨0, by decide⟩ = .cancelled ∧
      twoSubscribers.publish 1 ended = .ok () ∧
      (∃ message, (Proc.after (sendMessage pairDb ⟨.succeeds, .succeeds⟩ twoSubscribers 1
        helloRequest ended) .empty).get 0 = some message ∧ message.delivered = true) ∧
      ¬ twoSubscribers.Isolated 1 Unit ended := by
  have hslow : (twoSubscribers.tasks 1 ⟨0, by decide⟩).failure = none := rfl
  have hbroken : (twoSubscribers.tasks 1 ⟨1, by decide⟩).failure = some (.valueError "no") := rfl
  obtain ⟨ended, hended, hcancelled⟩ := exists_cancelled hslow hbroken (.inl Nat.one_pos)
  refine ⟨ended, hended, hcancelled, twoSubscribers.publish_ok 1 ended, ?_, ?_⟩
  · rw [Proc.after_of_ok (run_sendMessage rfl (by decide) ended .empty)]
    exact ⟨_, rfl, rfl⟩
  · intro hisolated
    exact nomatch hcancelled.symm.trans (hisolated.reached ⟨0, by decide⟩ rfl)

end AgentCorp.MultiAgent
