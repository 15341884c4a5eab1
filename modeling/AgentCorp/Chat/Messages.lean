/-
  The message table and its repository.

  A `WriteOutcome` says how the commit and the refresh of one `BaseRepository.create` end: a
  row is there once the commit returned, whatever the refresh does.

  * `create_run`: what a write leaves, by its outcome.
-/
import AgentCorp.Python.Effects

namespace AgentCorp.Chat

open AgentCorp.Python

/-- A row of the table, in the order of the identifiers. -/
structure Message where
  conversationId : Int
  role : String
  content : String
  provider : Option String := none
  modelUsed : Option String := none
  finishReason : Option String := none
  promptTokens : Option Int := none
  completionTokens : Option Int := none
  totalTokens : Option Int := none
  deriving DecidableEq, Repr

structure WriteOutcome where
  commit : Except Exn Unit
  refresh : Except Exn Unit

namespace WriteOutcome

def succeeds : WriteOutcome where
  commit := .ok ()
  refresh := .ok ()

/-- What the write raises, if anything. -/
def result (outcome : WriteOutcome) : Except Exn Unit := do
  outcome.commit
  outcome.refresh

/-- Whether the row is stored. -/
def stored (outcome : WriteOutcome) : Bool :=
  outcome.commit.isOk

end WriteOutcome

/-- `get_by_conversation`, of a read that returns. -/
def getByConversation (rows : List Message) (conversationId : Int) : List Message :=
  rows.filter (·.conversationId = conversationId)

/-- `BaseRepository.create`. -/
def create (outcome : WriteOutcome) (message : Message) : Py (List Message) Message := do
  Py.ofResult outcome.commit
  modify (· ++ [message])
  Py.ofResult outcome.refresh
  return message

def userMessage (conversationId : Int) (content : String) : Message where
  conversationId := conversationId
  role := "user"
  content := content

/-- `create_user_message`. -/
def createUserMessage (outcome : WriteOutcome) (conversationId : Int) (content : String) :
    Py (List Message) Message :=
  create outcome (userMessage conversationId content)

/-- Whatever the outcome, a write raises its result and stores its row or not. -/
theorem create_run (outcome : WriteOutcome) (message : Message) (rows : List Message) :
    (create outcome message).run rows =
      match outcome.result with
      | .ok () => .ok message (rows ++ [message])
      | .error exc =>
          .error (.exception exc) (rows ++ if outcome.stored then [message] else []) := by
  obtain ⟨commit, refresh⟩ := outcome
  cases commit with
  | error exc =>
      show EStateM.Result.error _ rows = EStateM.Result.error _ (rows ++ [])
      rw [List.append_nil]
  | ok _ => cases refresh <;> rfl

end AgentCorp.Chat
