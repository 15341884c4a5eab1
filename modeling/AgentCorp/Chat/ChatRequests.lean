/-
  Which request a turn sends: against the streaming service, and against the turn that it
  replays.

  The streaming service has a pipeline of its own, and builds the same request. Regenerating and
  retrying go through the pipeline of a new turn, but the history that it reads has the user's
  message already, so that they never send what was sent first.

  * `prepareRequest_stream`: chat and streaming build the same request.
  * `continueChat_messages`, `replay_messages`: the messages of a first turn and of a replay.
  * `replay_never_faithful`: no replay sends the messages of the first turn.
-/
import AgentCorp.Chat.ChatService

namespace AgentCorp.ChatService

open AgentCorp.Python AgentCorp.Chat
open AgentCorp.Streaming (StreamEnv StreamState)
open AgentCorp.Runtime (User StreamingChatRequest ChatContinueRequest ChatRegenerateRequest
  ChatRetryRequest)

/-! ## Chat and streaming -/

/-- The overrides of a streaming request. -/
def Overrides.ofStream (payload : StreamingChatRequest) : Overrides :=
  ⟨payload.provider, payload.model, payload.temperature, payload.topP, payload.maxTokens⟩

/-- A stream that meets the services and the table that a turn meets. -/
def ChatEnv.meeting (env : ChatEnv) (stream : StreamEnv) : StreamEnv :=
  { stream with
    L := env.L
    collaborators := env.collaborators
    readHistory := env.readHistory
    userWrite := env.userWrite }

/-- The proxies of the two services differ, and discovery looks at neither. -/
theorem discoverToolMetadata_eq (services : Collaborators) (agentId organizationId : Int) :
    discoverToolMetadata services agentId organizationId =
      Streaming.discoverToolMetadata services agentId organizationId := by
  unfold discoverToolMetadata Streaming.discoverToolMetadata toolMetadataFor
  cases services.toolExecutionService with
  | none => rfl
  | some service =>
      dsimp only
      rw [service.discoverAgentTools_user agentId organizationId serviceUserProxy
        Streaming.serviceUserProxy]

/-- The order in which the services are asked does not matter. -/
theorem buildRuntimeContext_eq (services : Collaborators) (organizationId agentId : Int)
    (userMessage : String) :
    buildRuntimeContext services organizationId agentId userMessage =
      Streaming.buildRuntimeContext services organizationId agentId userMessage := by
  unfold buildRuntimeContext Streaming.buildRuntimeContext
  rw [discoverToolMetadata_eq]
  rfl

/-- The stream flag is not checked. -/
theorem checked_stream (request : ChatRequest) (stream : Bool) :
    ({ request with stream := stream } : ChatRequest).checked =
      request.checked.map fun request => { request with stream := stream } := by
  unfold ChatRequest.checked
  dsimp only
  split <;> rfl

section Stream

variable (env : ChatEnv) (stream : StreamEnv) (payload : StreamingChatRequest)
  (conversation : Conversation) (agent : Agent)

theorem prepared_stream (messages : List Message) :
    prepared env conversation agent payload.message (.ofStream payload) true messages =
      (Streaming.prepared (env.meeting stream) payload conversation.toConversation agent.toAgent
        messages).map fun request => { request with stream := false } := by
  unfold prepared Streaming.prepared ChatEnv.meeting
  dsimp only
  cases env.readHistory with
  | error exc => rfl
  | ok _ =>
      rw [buildRuntimeContext_eq]
      cases Streaming.buildRuntimeContext env.collaborators conversation.organizationId agent.id
          payload.message with
      | error raised => rfl
      | ok runtimeContext =>
          cases env.userWrite.result with
          | error exc => rfl
          | ok _ =>
              let context := buildContext env.L (getByConversation messages conversation.id)
              have hchecked := checked_stream
                (Streaming.streamRequest payload agent.toAgent context runtimeContext) false
              show ({ Streaming.streamRequest payload agent.toAgent context runtimeContext with
                stream := false } : ChatRequest).checked.mapError BaseExn.exception = _
              rw [hchecked]
              show _ = ((Streaming.streamRequest payload agent.toAgent context
                runtimeContext).checked.mapError BaseExn.exception).map _
              cases (Streaming.streamRequest payload agent.toAgent context
                runtimeContext).checked <;> rfl

/-- **One request.** Whatever the history, the overrides and the answers of the services are,
    chat and streaming build the same request but for the stream flag, or fail alike. -/
theorem prepareRequest_stream (s : ChatState) (t : StreamState) :
    Proc.outcome (prepareRequest env conversation agent payload.message (.ofStream payload) true)
        s =
      (Proc.outcome (Streaming.prepareRequest (env.meeting stream) payload
        conversation.toConversation agent.toAgent) { t with rows := s.messages }).map
          fun request => { request with stream := false } := by
  have hchat : Proc.outcome (prepareRequest env conversation agent payload.message
      (.ofStream payload) true) s =
      prepared env conversation agent payload.message (.ofStream payload) true s.messages := by
    obtain ⟨added, -, hrun⟩ := prepareRequest_run env conversation agent payload.message
      (.ofStream payload) true s
    unfold Proc.outcome
    rw [hrun]
    cases prepared env conversation agent payload.message (.ofStream payload) true s.messages <;>
      rfl
  have hstream : Proc.outcome (Streaming.prepareRequest (env.meeting stream) payload
      conversation.toConversation agent.toAgent) { t with rows := s.messages } =
      Streaming.prepared (env.meeting stream) payload conversation.toConversation agent.toAgent
        s.messages := by
    obtain ⟨added, -, hrun⟩ := Streaming.prepareRequest_run (env.meeting stream) payload
      conversation.toConversation agent.toAgent { t with rows := s.messages }
    unfold Proc.outcome
    cases hprepared : Streaming.prepared (env.meeting stream) payload conversation.toConversation
        agent.toAgent s.messages with
    | ok request =>
        simp only [hprepared] at hrun
        rw [hrun.2]
    | error raised =>
        simp only [hprepared] at hrun
        rw [hrun]
  rw [hchat, hstream]
  exact prepared_stream env stream payload conversation agent s.messages

end Stream

/-! ## First turns and replays -/

/-- The system messages of a turn. -/
def systemMessages (agent : Agent) (runtimeContext : RuntimeContext) : List ChatMessage :=
  systemMessage agent.systemPrompt ++
    systemMessage (formatSupplementalContext runtimeContext.memoryContext
      runtimeContext.knowledgeContext runtimeContext.toolContext)

/-- The messages of a turn whose history is read as `messages`. -/
def turnMessages (L : Lower) (conversation : Conversation) (agent : Agent)
    (runtimeContext : RuntimeContext) (messages : List Message) (userMessage : String) :
    List ChatMessage :=
  systemMessages agent runtimeContext ++
    buildContext L (getByConversation messages conversation.id) ++
    [{ role := .user, content := userMessage }]

/-- What a turn is about: its conversation, its agent, and what the services answer for the
    user's message. -/
def TurnOf (services : ChatServices) (conversations : List Conversation) (conversationId : Int)
    (user : User) (organizationId : Int) (userMessage : String) (conversation : Conversation)
    (agent : Agent) (runtimeContext : RuntimeContext) : Prop :=
  validateConversation conversations conversationId user organizationId = .ok conversation ∧
    validateAgent services.agents conversation.agentId organizationId = .ok agent ∧
    buildRuntimeContext services.collaborators conversation.organizationId agent.id userMessage =
      .ok runtimeContext

theorem validateConversation_ok {conversations : List Conversation} {conversationId : Int}
    {user : User} {organizationId : Int} {conversation : Conversation}
    (h : validateConversation conversations conversationId user organizationId =
      .ok conversation) :
    conversations.find? (fun conversation =>
      conversation.id = conversationId ∧ conversation.organizationId = organizationId) =
      some conversation := by
  unfold validateConversation at h
  split at h
  · cases h
  · next found hfound =>
      split at h
      · cases h
      · rw [hfound, Except.ok.inj h]

/-- Whoever asks, a turn is about one conversation, one agent and one context. -/
theorem TurnOf.unique {services : ChatServices} {conversations : List Conversation}
    {conversationId : Int} {user user' : User} {organizationId : Int} {userMessage : String}
    {conversation conversation' : Conversation} {agent agent' : Agent}
    {runtimeContext runtimeContext' : RuntimeContext}
    (h : TurnOf services conversations conversationId user organizationId userMessage conversation
      agent runtimeContext)
    (h' : TurnOf services conversations conversationId user' organizationId userMessage
      conversation' agent' runtimeContext') :
    conversation' = conversation ∧ agent' = agent ∧ runtimeContext' = runtimeContext := by
  obtain ⟨hconversation, hagent, hcontext⟩ := h
  obtain ⟨hconversation', hagent', hcontext'⟩ := h'
  obtain rfl := Option.some.inj ((validateConversation_ok hconversation).symm.trans
    (validateConversation_ok hconversation'))
  obtain rfl := Except.ok.inj (hagent.symm.trans hagent')
  exact ⟨rfl, rfl, Except.ok.inj (hcontext'.symm.trans hcontext)⟩

section Turns

variable {env : ChatEnv} {conversationId : Int} {user : User} {organizationId : Int}
  {s : ChatState} {request : ChatRequest}

theorem prepared_messages {conversation : Conversation} {agent : Agent} {userMessage : String}
    {overrides : Overrides} {persistUserMessage : Bool} {messages : List Message}
    (h : prepared env conversation agent userMessage overrides persistUserMessage messages =
      .ok request) :
    ∃ runtimeContext,
      buildRuntimeContext env.collaborators conversation.organizationId agent.id userMessage =
        .ok runtimeContext ∧
      request.messages =
        turnMessages env.L conversation agent runtimeContext messages userMessage := by
  unfold prepared at h
  obtain ⟨_, -, h⟩ := Proc.bind_ok h
  obtain ⟨runtimeContext, hcontext, h⟩ := Proc.bind_ok h
  refine ⟨runtimeContext, hcontext, ?_⟩
  have hchecked : ∀ {unchecked : ChatRequest},
      unchecked.checked.mapError BaseExn.exception = .ok request → request = unchecked := by
    intro unchecked hchecked
    unfold ChatRequest.checked at hchecked
    split at hchecked
    · exact (Except.ok.inj hchecked).symm
    · cases hchecked
  cases persistUserMessage with
  | false => rw [hchecked h, turnMessages, systemMessages]; rfl
  | true =>
      obtain ⟨_, -, h⟩ := Proc.bind_ok h
      rw [hchecked h, turnMessages, systemMessages]
      rfl

/-- The messages that a validated turn sends first. -/
theorem executeAndPersist_messages {conversation : Conversation} {agent : Agent}
    {userMessage : String} {overrides : Overrides} {persistUserMessage : Bool}
    (h : sent (executeAndPersist env conversation agent userMessage overrides persistUserMessage)
      s = some request) :
    ∃ runtimeContext,
      buildRuntimeContext env.collaborators conversation.organizationId agent.id userMessage =
        .ok runtimeContext ∧
      request.messages =
        turnMessages env.L conversation agent runtimeContext s.messages userMessage := by
  have houtcome := executeAndPersist_sent env conversation agent h
  obtain ⟨added, -, hrun⟩ := prepareRequest_run env conversation agent userMessage overrides
    persistUserMessage s
  have hprepared : prepared env conversation agent userMessage overrides persistUserMessage
      s.messages = .ok request := by
    unfold Proc.outcome at houtcome
    rw [hrun] at houtcome
    cases hprepared : prepared env conversation agent userMessage overrides persistUserMessage
        s.messages with
    | error raised => simp [hprepared] at houtcome
    | ok prepared => simpa [hprepared] using houtcome
  exact prepared_messages hprepared

/-- Validation only reads. -/
theorem validateTurn_run :
    (validateTurn env conversationId user organizationId).run s =
      match (do
        let conversation ←
          validateConversation s.conversations conversationId user organizationId
        let agent ← validateAgent env.agents conversation.agentId organizationId
        return (conversation, agent) : Except Exn (Conversation × Agent)) with
      | .ok turn => .ok turn s
      | .error exc => .error (.exception exc) s := by
  unfold validateTurn
  rw [EStateM.run_bind, EStateM.run_get]
  dsimp only
  cases validateConversation s.conversations conversationId user organizationId with
  | error exc => rfl
  | ok conversation =>
      show (Py.ofResult (validateAgent env.agents conversation.agentId organizationId) >>=
        fun agent => pure (conversation, agent)).run s = _
      cases hagent : validateAgent env.agents conversation.agentId organizationId with
      | error exc =>
          simp only [bind, Except.bind, hagent]
          rfl
      | ok agent =>
          simp only [bind, Except.bind, hagent]
          rfl

/-- A turn that sends something was validated. -/
theorem validateTurn_sent {f : Conversation × Agent → Py ChatState ChatReply}
    (h : sent (validateTurn env conversationId user organizationId >>= f) s = some request) :
    ∃ conversation agent,
      validateConversation s.conversations conversationId user organizationId =
        .ok conversation ∧
      validateAgent env.agents conversation.agentId organizationId = .ok agent ∧
      sent (f (conversation, agent)) s = some request := by
  unfold sent at h
  rw [Proc.after_bind, validateTurn_run] at h
  cases hconversation : validateConversation s.conversations conversationId user
      organizationId with
  | error exc => simp [hconversation, bind, Except.bind] at h
  | ok conversation =>
      cases hagent : validateAgent env.agents conversation.agentId organizationId with
      | error exc => simp [hconversation, hagent, bind, Except.bind] at h
      | ok agent =>
          simp only [hconversation, hagent, bind, Except.bind, pure, Except.pure] at h
          exact ⟨conversation, agent, rfl, hagent, h⟩

/-- What continuing a conversation sends first. -/
theorem continueChat_messages {payload : ChatContinueRequest}
    (h : sent (continueChat env conversationId payload user organizationId) s = some request) :
    ∃ conversation agent runtimeContext,
      TurnOf env.toChatServices s.conversations conversationId user organizationId
        payload.message conversation agent runtimeContext ∧
      request.messages =
        turnMessages env.L conversation agent runtimeContext s.messages payload.message := by
  obtain ⟨conversation, agent, hconversation, hagent, h⟩ := validateTurn_sent h
  obtain ⟨runtimeContext, hcontext, hmessages⟩ := executeAndPersist_messages h
  exact ⟨conversation, agent, runtimeContext, ⟨hconversation, hagent, hcontext⟩, hmessages⟩

/-- What a replay sends first: the whole history, and the last user message again. -/
theorem replay_messages {overrides : Overrides} {missing : String}
    (h : sent (replay env conversationId user organizationId overrides missing) s =
      some request) :
    ∃ message conversation agent runtimeContext,
      getLastUserMessage s.messages conversationId = some message ∧
      TurnOf env.toChatServices s.conversations conversationId user organizationId
        message.content conversation agent runtimeContext ∧
      request.messages =
        turnMessages env.L conversation agent runtimeContext s.messages message.content := by
  obtain ⟨conversation, agent, hconversation, hagent, h⟩ := validateTurn_sent h
  unfold sent at h
  rw [Proc.after_bind, EStateM.run_get] at h
  dsimp only at h
  cases hlast : getLastUserMessage s.messages conversationId with
  | none => simp [hlast, Py.raise] at h
  | some message =>
      simp only [hlast] at h
      obtain ⟨runtimeContext, hcontext, hmessages⟩ := executeAndPersist_messages h
      exact ⟨message, conversation, agent, runtimeContext, rfl,
        ⟨hconversation, hagent, hcontext⟩, hmessages⟩

end Turns

/-! ## No replay is faithful -/

/-- `message` is the last user message of its conversation: a user's, with none after it. -/
def LastOfUser (conversationId : Int) (message : Message) (later : List Message) : Prop :=
  message.conversationId = conversationId ∧ message.role = "user" ∧
    ∀ other ∈ later, other.conversationId = conversationId → other.role ≠ "user"

theorem getLastUserMessage_of {conversationId : Int} {before later : List Message}
    {message : Message} (h : LastOfUser conversationId message later) :
    getLastUserMessage (before ++ message :: later) conversationId = some message := by
  obtain ⟨hid, hrole, hlater⟩ := h
  have hnone : later.reverse.find? (fun other =>
      other.conversationId = conversationId ∧ other.role = "user") = none := by
    refine List.find?_eq_none.mpr fun other hother hboth => ?_
    obtain ⟨hid', hrole'⟩ := of_decide_eq_true hboth
    exact hlater other (List.mem_reverse.mp hother) hid' hrole'
  unfold getLastUserMessage
  rw [List.reverse_append, List.reverse_cons, List.append_assoc, List.find?_append, hnone,
    Option.none_or, List.singleton_append, List.find?_cons_of_pos (by simp [hid, hrole])]

/-- The replayed history is longer by the message itself, and by what came after it. -/
theorem turnMessages_ne (L : Lower) (conversation : Conversation) (agent : Agent)
    (runtimeContext : RuntimeContext) (before later : List Message) {message : Message}
    (h : message.conversationId = conversation.id) (userMessage : String) :
    turnMessages L conversation agent runtimeContext (before ++ message :: later) userMessage ≠
      turnMessages L conversation agent runtimeContext before userMessage := by
  intro heq
  have hlength := congrArg List.length heq
  simp only [turnMessages, buildContext, getByConversation, List.length_append, List.length_map,
    List.filter_append, List.filter_cons, h, decide_true, if_true, List.length_cons] at hlength
  omega

/-- A replay does not send what the first turn sent. -/
theorem replay_ne {first env : ChatEnv} (hsame : first.toChatServices = env.toChatServices)
    {conversationId : Int} {message : Message} {later : List Message}
    (hlast : LastOfUser conversationId message later) {s : ChatState}
    {payload : ChatContinueRequest} (hpayload : payload.message = message.content)
    {user user' : User} {organizationId : Int} {firstRequest request : ChatRequest}
    (hfirst : sent (continueChat first conversationId payload user organizationId) s =
      some firstRequest) {overrides : Overrides} {missing : String}
    (h : sent (replay env conversationId user' organizationId overrides missing)
      { s with messages := s.messages ++ message :: later } = some request) :
    request.messages ≠ firstRequest.messages := by
  obtain ⟨conversation, agent, runtimeContext, hturn, hmessages⟩ := continueChat_messages hfirst
  obtain ⟨last, conversation', agent', runtimeContext', hlast', hturn', hmessages'⟩ :=
    replay_messages h
  obtain rfl := Option.some.inj ((getLastUserMessage_of hlast).symm.trans hlast')
  rw [hsame, hpayload] at hturn
  obtain ⟨rfl, rfl, rfl⟩ := hturn.unique hturn'
  have hid : conversation'.id = conversationId := by
    have hfound := List.find?_some (validateConversation_ok hturn'.1)
    exact (of_decide_eq_true hfound).1
  have hL : first.L = env.L := congrArg ChatServices.L hsame
  rw [hmessages, hmessages', hpayload, hL]
  exact turnMessages_ne env.L conversation' agent' runtimeContext' s.messages later
    (hlast.1.trans hid.symm) message.content

/-! ## A turn that failed -/

def quietAgent : Agent where
  id := 1
  systemPrompt := ""
  modelName := "llama"
  temperature := 7 / 10
  maxTokens := 100
  organizationId := 1
  isActive := true

/-- Services without memory, knowledge and tools, and writes that succeed. -/
def quietChat : ChatEnv where
  L := Lower.asciiOnly
  collaborators := ⟨none, none, none, none⟩
  agents := [quietAgent]
  readHistory := .ok ()
  conversationWrite := .succeeds
  userWrite := .succeeds
  assistantWrite := .succeeds
  newConversationId := 2
  chat := fun _ _ _ => .error (.exception (.other "ProviderError" "rate limit"))
  tools := fun _ => ⟨fun _ => .ok ⟨true, none, none⟩, fun _ => .ok 1, fun _ _ => .ok ""⟩

def quietConversation : Conversation where
  id := 1
  organizationId := 1
  agentId := 1
  userId := 9
  title := "Hi"
  runtimeVersion := "AgentCorp V1"

/-- A conversation without messages. -/
def emptyConversation : ChatState where
  conversations := [quietConversation]
  messages := []
  requests := []
  responses := []
  executed := []

/-- The first turn failed after its message was stored. Both replays send the message twice. -/
theorem failedTurn_not_replayed :
    (Proc.after (continueChat quietChat 1 { message := "Hi" } ⟨9, true, false⟩ 1)
      emptyConversation).messages = [userMessage 1 "Hi"] ∧
    (sent (continueChat quietChat 1 { message := "Hi" } ⟨9, true, false⟩ 1)
        emptyConversation).map ChatRequest.messages =
      some [{ role := .user, content := "Hi" }] ∧
    (sent (regenerateResponse quietChat 1 {} ⟨9, true, false⟩ 1)
        { emptyConversation with messages := [userMessage 1 "Hi"] }).map ChatRequest.messages =
      some [{ role := .user, content := "Hi" }, { role := .user, content := "Hi" }] ∧
    (sent (retryFailedMessage quietChat 1 {} ⟨9, true, false⟩ 1)
        { emptyConversation with messages := [userMessage 1 "Hi"] }).map ChatRequest.messages =
      some [{ role := .user, content := "Hi" }, { role := .user, content := "Hi" }] := by
  refine ⟨?_, ?_, ?_, ?_⟩ <;> decide +kernel

/-- **Replays.** Whatever the history is, what regenerating or retrying the last user message
    sends is not what continuing the conversation with it has sent, given the same agents,
    memory, knowledge and tools. -/
theorem replay_never_faithful {first env : ChatEnv}
    (hsame : first.toChatServices = env.toChatServices) {conversationId : Int}
    {message : Message} {later : List Message} (hlast : LastOfUser conversationId message later)
    {s : ChatState} {payload : ChatContinueRequest} (hpayload : payload.message = message.content)
    {user user' : User} {organizationId : Int} {firstRequest : ChatRequest}
    (hfirst : sent (continueChat first conversationId payload user organizationId) s =
      some firstRequest) :
    (∀ regenerate request,
      sent (regenerateResponse env conversationId regenerate user' organizationId)
        { s with messages := s.messages ++ message :: later } = some request →
      request.messages ≠ firstRequest.messages) ∧
    (∀ retry request,
      sent (retryFailedMessage env conversationId retry user' organizationId)
        { s with messages := s.messages ++ message :: later } = some request →
      request.messages ≠ firstRequest.messages) :=
  ⟨fun _ _ h => replay_ne hsame hlast hpayload hfirst h,
    fun _ _ h => replay_ne hsame hlast hpayload hfirst h⟩

/-- The request of the failed turn. -/
def hiRequest (messages : List ChatMessage) : ChatRequest where
  model := "llama"
  messages := messages
  temperature := 7 / 10
  maxTokens := some 100

theorem failedTurn_replays_ne :
    [({ role := .user, content := "Hi" } : ChatMessage), { role := .user, content := "Hi" }] ≠
      [{ role := .user, content := "Hi" }] :=
  (@replay_never_faithful quietChat quietChat rfl 1 (userMessage 1 "Hi") [] ⟨rfl, rfl, by simp⟩
    emptyConversation { message := "Hi" } rfl ⟨9, true, false⟩ ⟨9, true, false⟩ 1
    (hiRequest [{ role := .user, content := "Hi" }]) (by decide +kernel)).1 {}
    (hiRequest [{ role := .user, content := "Hi" }, { role := .user, content := "Hi" }])
    (by decide +kernel)

end AgentCorp.ChatService
