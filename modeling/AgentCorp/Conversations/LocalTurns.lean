/-
  A turn keeps to its conversation.

  Once its conversation is validated, a turn of the chat service and a run of the streaming service
  read no messages but those of this conversation, and append none but its own. What they do to the
  tables, send, answer or yield depends on nothing else of them.

  * `local_turn`: a turn of the chat service.
  * `local_executeStream`: a run of the streaming service.
-/
import AgentCorp.Chat.TurnOutcome
import AgentCorp.Lib.KeyedLog
import AgentCorp.Streaming.ChatStreams

namespace AgentCorp.ChatService

open AgentCorp.Python AgentCorp.Chat AgentCorp.Tools KeyedLog
open AgentCorp.Providers (ToolCall ChatResponse)
open AgentCorp.Runtime (User)

/-! ## The chat service -/

/-- What a turn leaves besides rows. -/
structure Traffic where
  requests : List (ChatRequest × Option String) := []
  responses : List ChatResponse := []
  executed : List ToolCallRequest := []
  deriving DecidableEq, Repr

/-- The state with these conversations, messages and traffic. -/
def ChatState.of (conversations : List Conversation) (messages : List Message)
    (traffic : Traffic) : ChatState where
  conversations := conversations
  messages := messages
  requests := traffic.requests
  responses := traffic.responses
  executed := traffic.executed

/-- The procedure keeps to the messages of a conversation. -/
abbrev KeepsTo {α : Type} (conversationId : Int) (p : Py ChatState α) : Prop :=
  Local ChatState.of Message.conversationId conversationId p

section Turn

variable {env : ChatEnv} {service : ToolService} {conversationId : Int}

theorem local_ofResult {α : Type} (r : Except Exn α) :
    KeepsTo conversationId (Py.ofResult r) :=
  Local.ofExcept _

theorem local_create (outcome : WriteOutcome) {message : Message}
    (h : message.conversationId = conversationId) :
    KeepsTo conversationId (onMessages (create outcome message)) := by
  refine Local.ofRun fun traffic => ?_
  have hrun := fun conversations messages =>
    onMessages_create_run (.of conversations messages traffic) outcome message
  cases hresult : outcome.result with
  | ok _ =>
      refine ⟨.ok message, [message], traffic, by simpa using h, fun conversations messages => ?_⟩
      rw [hrun, hresult]
      rfl
  | error exc =>
      refine ⟨.error (.exception exc), if outcome.stored then [message] else [], traffic,
        fun row hrow => ?_, fun conversations messages => ?_⟩
      · split at hrow
        · rw [List.mem_singleton.mp hrow, h]
        · cases hrow
      · rw [hrun, hresult]
        rfl

theorem local_providerChat (request : ChatRequest) (providerName : Option String) :
    KeepsTo conversationId (providerChat env request providerName) := by
  refine Local.ofRest fun traffic => ?_
  have hrun := fun conversations messages =>
    providerChat_run env (.of conversations messages traffic) request providerName
  cases hchat : env.chat traffic.requests.length request providerName with
  | ok response =>
      refine ⟨.ok response, { traffic with
        requests := traffic.requests ++ [(request, providerName)]
        responses := traffic.responses ++ [response] }, fun conversations messages => ?_⟩
      rw [hrun]
      dsimp only [ChatState.of]
      rw [hchat]
      rfl
  | error raised =>
      refine ⟨.error raised, { traffic with
        requests := traffic.requests ++ [(request, providerName)] },
        fun conversations messages => ?_⟩
      rw [hrun]
      dsimp only [ChatState.of]
      rw [hchat]
      rfl

theorem local_executeProvider (request : ChatRequest) (providerName : Option String) :
    KeepsTo conversationId (executeProvider env request providerName) := by
  refine (local_providerChat request providerName).tryCatch fun raised => ?_
  cases raised <;> exact Local.throw _

theorem local_prepareRequest (conversation : Conversation) (agent : Agent) (userMessage : String)
    (overrides : Overrides) (persistUserMessage : Bool) :
    KeepsTo conversation.id
      (prepareRequest env conversation agent userMessage overrides persistUserMessage) := by
  have hstore : KeepsTo conversation.id
      (storeUserMessage env conversation userMessage persistUserMessage) := by
    unfold storeUserMessage
    cases persistUserMessage with
    | false => exact Local.pure ()
    | true => exact Local.bind (local_create env.userWrite rfl) fun _ => Local.pure ()
  unfold prepareRequest
  refine (local_ofResult _).bind fun _ => Local.getBind
    (g := fun own _ => do
      let context := buildContext env.L own
      let runtimeContext ← Proc.ofExcept (buildRuntimeContext env.collaborators
        conversation.organizationId agent.id userMessage)
      storeUserMessage env conversation userMessage persistUserMessage
      let promptMessages := buildPrompt agent.systemPrompt context userMessage
        runtimeContext.memoryContext runtimeContext.knowledgeContext runtimeContext.toolContext
      Py.ofResult (chatRequest overrides agent promptMessages runtimeContext.tools).checked)
    (fun _ _ _ => rfl) fun own _ => ?_
  exact (Local.ofExcept _).bind fun _ => hstore.bind fun _ => local_ofResult _

/-- **A turn** keeps to its conversation, whatever the tool service is. -/
theorem local_turn (turn : Turn) :
    KeepsTo turn.conversation.id (turn.run env service) := by
  unfold Turn.run
  refine (local_prepareRequest _ _ _ _ _).bind fun request => ?_
  refine (local_executeProvider _ _).bind fun response => ?_
  have hresolve : KeepsTo turn.conversation.id (turn.resolve env service request response) := by
    unfold Turn.resolve
    split
    · refine (Local.ofExcept _).bind fun batch => Local.bind ?_ fun _ => local_providerChat _ _
      exact Local.ofRest fun traffic => ⟨.ok (), { traffic with
        executed := traffic.executed ++ response.toolCalls.map toolRequest }, fun _ _ => rfl⟩
    · exact Local.pure response
  exact hresolve.bind fun response =>
    Local.bind (local_create env.assistantWrite rfl) fun _ => Local.pure _

end Turn

end AgentCorp.ChatService

namespace AgentCorp.Streaming

open AgentCorp.Python AgentCorp.Chat KeyedLog
open AgentCorp.Runtime (StreamingChatRequest)

/-! ## The streaming service -/

/-- The state with these conversations and messages, and what was counted and yielded. -/
def StreamState.of (_ : Unit) (rows : List Message) (rest : List CounterOp × List StreamEvent) :
    StreamState where
  rows := rows
  counterOps := rest.1
  yielded := rest.2

abbrev KeepsTo {α : Type} (conversationId : Int) (p : Py StreamState α) : Prop :=
  Local StreamState.of Message.conversationId conversationId p

section Stream

variable {env : StreamEnv} {conversationId : Int}

theorem local_create (outcome : WriteOutcome) {message : Message}
    (h : message.conversationId = conversationId) :
    KeepsTo conversationId (onRows (create outcome message)) := by
  refine Local.ofRun fun rest => ?_
  have hrun := fun rows => onRows_create_run outcome message (.of () rows rest)
  cases hresult : outcome.result with
  | ok _ =>
      refine ⟨.ok message, [message], rest, by simpa using h, fun _ rows => ?_⟩
      rw [hrun, hresult]
      rfl
  | error exc =>
      refine ⟨.error (.exception exc), if outcome.stored then [message] else [], rest,
        fun row hrow => ?_, fun _ rows => ?_⟩
      · split at hrow
        · rw [List.mem_singleton.mp hrow, h]
        · cases hrow
      · rw [hrun, hresult]
        rfl

theorem local_count (op : CounterOp) : KeepsTo conversationId (count op) :=
  Local.ofRest fun rest => ⟨.ok (), (rest.1 ++ [op], rest.2), fun _ _ => rfl⟩

theorem local_yieldEvent (event : Instant → StreamEvent) :
    KeepsTo conversationId (yieldEvent env event) := by
  refine Local.ofRest fun rest => ?_
  have hrun := fun rows => yieldEvent_run env event (.of () rows rest)
  refine ⟨if env.closes rest.2.length then .error .generatorExit else .ok (),
    (rest.1, rest.2 ++ [event (env.now rest.2.length)]), fun _ rows => ?_⟩
  rw [hrun]
  show (if env.closes rest.2.length = true then _ else _) = _
  split <;> rfl

theorem local_consume (l : StreamLocals) (chunks : List StreamChunk) :
    KeepsTo conversationId (consume env l chunks) := by
  induction chunks generalizing l with
  | nil => exact Local.pure l
  | cons chunk rest ih =>
      unfold consume forwardChunk
      refine Local.bind ?_ fun l => ih l
      dsimp only
      split
      · exact (local_yieldEvent _).bind fun _ => Local.pure _
      · exact (Local.pure ()).bind fun _ => Local.pure _

theorem local_receiveTokens (l : StreamLocals) (stream : ChunkStream) :
    KeepsTo conversationId (receiveTokens env l stream) := by
  have hconsume : KeepsTo conversationId (consumeStream env l stream) :=
    (local_consume l stream.chunks).bind fun _ => (Local.ofExcept _).bind fun _ => Local.pure _
  have hsome : KeepsTo conversationId (some <$> consumeStream env l stream) := by
    rw [map_eq_pure_bind]
    exact hconsume.bind fun _ => Local.pure _
  refine hsome.tryCatch fun raised => ?_
  cases raised with
  | exception exc =>
      exact (local_count _).bind fun _ => (local_count _).bind fun _ =>
        (local_yieldEvent _).bind fun _ => Local.pure none
  | generatorExit =>
      exact (local_count _).bind fun _ => (local_count _).bind fun _ => Local.pure none
  | _ => exact Local.throw _

theorem local_prepareRequest (payload : StreamingChatRequest) (conversation : Conversation)
    (agent : Agent) : KeepsTo conversation.id (prepareRequest env payload conversation agent) := by
  unfold prepareRequest
  refine (Local.ofExcept _).bind fun _ => Local.getBind
    (g := fun own _ => do
      let context := buildContext env.L own
      let runtimeContext ← Proc.ofExcept (buildRuntimeContext env.collaborators
        conversation.organizationId agent.id payload.message)
      let _ ← onRows (createUserMessage env.userWrite conversation.id payload.message)
      Py.ofResult (streamRequest payload agent context runtimeContext).checked)
    (fun _ _ _ => rfl) fun own _ => ?_
  exact (Local.ofExcept _).bind fun _ => Local.bind (local_create env.userWrite rfl) fun _ =>
    Local.ofExcept _

/-- **A run of the streaming service** keeps to its conversation. -/
theorem local_executeStream (payload : StreamingChatRequest) (conversation : Conversation)
    (agent : Agent) : KeepsTo conversation.id (executeStream env payload conversation agent) := by
  unfold executeStream
  refine (local_count _).bind fun _ => Local.tryCatch ?_ fun raised => ?_
  · refine (local_prepareRequest payload conversation agent).bind fun request => ?_
    refine (local_receiveTokens _ _).bind fun received => ?_
    cases received with
    | none => exact Local.pure ()
    | some l =>
        exact Local.bind (local_create env.assistantWrite rfl) fun _ =>
          (local_count _).bind fun _ => (local_count _).bind fun _ => local_yieldEvent _
  · cases raised with
    | exception exc =>
        cases exc with
        | http statusCode detail => exact (local_count _).bind fun _ => Local.throw _
        | _ =>
            exact (local_count _).bind fun _ => (local_count _).bind fun _ => local_yieldEvent _
    | _ => exact Local.throw _

end Stream

end AgentCorp.Streaming
