/-
  `ChatService`: the four chat calls and the pipeline that they share.

  `ChatServices` is what the pipeline reads besides the tables, and a `ChatEnv` says how the
  reads, the writes, the provider's answers and the tools of one turn turn out. A `ChatState`
  keeps, next to the tables, what the provider service was sent, what it answered, and which
  tool calls were executed. `_run_async` hands on what a coroutine returns or raises.

  * `executeAndPersist_sent`: the first request of a turn is the prepared one.
-/
import AgentCorp.Providers.ProviderManager
import AgentCorp.Tools.ToolExecution

namespace AgentCorp.ChatService

open AgentCorp.Python AgentCorp.Chat AgentCorp.Tools
open AgentCorp.Providers (ToolCall ChatResponse)
open AgentCorp.Runtime (User ChatCreateRequest ChatContinueRequest ChatRegenerateRequest
  ChatRetryRequest)

/-! ## Tables and services -/

structure Conversation extends Streaming.Conversation where
  agentId : Int
  userId : Int
  title : String
  runtimeVersion : String
  deriving DecidableEq, Repr

structure Agent extends Streaming.Agent where
  organizationId : Int
  isActive : Bool
  deriving DecidableEq, Repr

/-- What a turn reads besides the tables of conversations and messages. -/
structure ChatServices where
  L : Lower
  collaborators : Collaborators
  agents : List Agent

/-- How a turn turns out. `chat` is the provider service, for its `n`-th call of the turn, and
    `tools` what the `i`-th tool call meets. -/
structure ChatEnv extends ChatServices where
  readHistory : Except Exn Unit
  conversationWrite : WriteOutcome
  userWrite : WriteOutcome
  assistantWrite : WriteOutcome
  newConversationId : Int
  chat : Nat → ChatRequest → Option String → Except BaseExn ChatResponse
  tools : Nat → ToolEnv

structure ChatState where
  conversations : List Conversation
  messages : List Message
  requests : List (ChatRequest × Option String)
  responses : List ChatResponse
  executed : List ToolCallRequest

/-- The tool service is configured. -/
def ChatServices.hasTools (services : ChatServices) : Bool :=
  services.collaborators.toolExecutionService.isSome

/-- The overrides of a request. -/
structure Overrides where
  provider : Option String := none
  model : Option String := none
  temperature : Option Rat := none
  topP : Option Rat := none
  maxTokens : Option Nat := none
  deriving DecidableEq, Repr

/-- A call of the message repository. -/
def onMessages {α : Type} (p : Py (List Message) α) : Py ChatState α := fun s =>
  match p.run s.messages with
  | .ok a messages => .ok a { s with messages := messages }
  | .error raised messages => .error raised { s with messages := messages }

/-! ## Validation -/

/-- `_validate_conversation`. -/
def validateConversation (conversations : List Conversation) (conversationId : Int) (user : User)
    (organizationId : Int) : Except Exn Conversation :=
  match conversations.find? fun conversation =>
      conversation.id = conversationId ∧ conversation.organizationId = organizationId with
  | none => .error (.http 404 "Conversation not found.")
  | some conversation =>
      if ¬ user.isSuperuser ∧ conversation.userId ≠ user.id then
        .error (.http 403 "You do not have access to this conversation.")
      else .ok conversation

/-- `_validate_agent`. -/
def validateAgent (agents : List Agent) (agentId organizationId : Int) : Except Exn Agent :=
  match agents.find? fun agent => agent.id = agentId with
  | none => .error (.http 404 "Agent not found.")
  | some agent =>
      if agent.organizationId ≠ organizationId then
        .error (.http 403 "Agent does not belong to your organisation.")
      else if ¬ agent.isActive then
        .error (.http 422 "Agent is disabled and cannot process requests.")
      else .ok agent

/-! ## The runtime context -/

/-- `_ServiceUserProxy()`: the `id` is there, and is `None`. -/
def serviceUserProxy : ServiceUserProxy where
  id := some none
  isSuperuser := true

/-- `_discover_tool_metadata`. -/
def discoverToolMetadata (services : Collaborators) (agentId organizationId : Int) :
    List Chat.ToolMetadata :=
  toolMetadataFor serviceUserProxy services agentId organizationId

/-- `_retrieve_memory_context`. -/
def retrieveMemoryContext (services : Collaborators) (organizationId agentId : Int)
    (query : String) : Except BaseExn (Option String) :=
  memoryContextOf 5 services organizationId agentId query

/-- `_retrieve_knowledge_context`. -/
def retrieveKnowledgeContext (services : Collaborators) (organizationId : Int) (query : String) :
    Except BaseExn (Option String) :=
  knowledgeContextOf 5 2000 services organizationId query

/-- `_format_tool_context`. -/
def formatToolContext (toolMetadata : List Chat.ToolMetadata) : Option String :=
  toolContextOf toolMetadata

/-- `_to_provider_tool_definitions`. -/
def toProviderToolDefinitions (toolMetadata : List Chat.ToolMetadata) : List ToolDefinition :=
  toolDefinitionsOf toolMetadata

/-- `_build_runtime_context`: the tools are discovered last. -/
def buildRuntimeContext (services : Collaborators) (organizationId agentId : Int)
    (userMessage : String) : Except BaseExn RuntimeContext := do
  let memoryContext ← retrieveMemoryContext services organizationId agentId userMessage
  let knowledgeContext ← retrieveKnowledgeContext services organizationId userMessage
  let toolMetadata := discoverToolMetadata services agentId organizationId
  return {
    memoryContext := memoryContext
    knowledgeContext := knowledgeContext
    toolContext := formatToolContext toolMetadata
    tools := toProviderToolDefinitions toolMetadata }

/-! ## The request -/

/-- Step 4: the resolved parameters. -/
def chatRequest (overrides : Overrides) (agent : Agent) (promptMessages : List ChatMessage)
    (tools : List ToolDefinition) : ChatRequest where
  model := Streaming.textOr overrides.model agent.modelName
  messages := promptMessages
  temperature := overrides.temperature.getD agent.temperature
  maxTokens := some (((overrides.maxTokens.filter (· ≠ 0)).map Int.ofNat).getD agent.maxTokens)
  topP := overrides.topP
  tools := tools

/-- Step 2: the user's message is stored, unless the turn is a replay. -/
def storeUserMessage (env : ChatEnv) (conversation : Conversation) (userMessage : String)
    (persistUserMessage : Bool) : Py ChatState Unit :=
  if persistUserMessage then do
    let _ ← onMessages (createUserMessage env.userWrite conversation.id userMessage)
  else return ()

/-- Steps 1 to 4 of `_execute_and_persist`. The history is read before the user's message is
    stored, if it is. -/
def prepareRequest (env : ChatEnv) (conversation : Conversation) (agent : Agent)
    (userMessage : String) (overrides : Overrides) (persistUserMessage : Bool) :
    Py ChatState ChatRequest := do
  Py.ofResult env.readHistory
  let s ← get
  let context := buildContext env.L (getByConversation s.messages conversation.id)
  let runtimeContext ← Proc.ofExcept
    (buildRuntimeContext env.collaborators conversation.organizationId agent.id userMessage)
  storeUserMessage env conversation userMessage persistUserMessage
  let promptMessages := buildPrompt agent.systemPrompt context userMessage
    runtimeContext.memoryContext runtimeContext.knowledgeContext runtimeContext.toolContext
  Py.ofResult (chatRequest overrides agent promptMessages runtimeContext.tools).checked

/-! ## The provider and the tools -/

/-- `ProviderService.chat`. -/
def providerChat (env : ChatEnv) (request : ChatRequest) (providerName : Option String) :
    Py ChatState ChatResponse := do
  let s ← get
  set { s with requests := s.requests ++ [(request, providerName)] }
  let response ← Proc.ofExcept (env.chat s.requests.length request providerName)
  modify fun s => { s with responses := s.responses ++ [response] }
  return response

/-- Step 5: an exception of the provider becomes a `502`. -/
def executeProvider (env : ChatEnv) (request : ChatRequest) (providerName : Option String) :
    Py ChatState ChatResponse :=
  tryCatch (providerChat env request providerName) fun
    | .exception exc => Py.raise (.http 502 ("AI provider execution failed: " ++ exc.text))
    | raised => throw raised

/-- The request for one call of a response. -/
def toolRequest (toolCall : ToolCall) : ToolCallRequest where
  callId := toolCall.id
  toolName := toolCall.name
  arguments := toolCall.arguments

/-- The message with the result of one call. -/
def toolMessage (result : ToolCallResult) : ChatMessage where
  role := .tool
  content := result.content
  name := some result.toolName
  toolCallId := some result.callId

/-- The request that hands the results back. -/
def followupRequest (initialRequest : ChatRequest) (initialResponse : ChatResponse)
    (results : List ToolCallResult) : ChatRequest :=
  { initialRequest with
    messages := initialRequest.messages ++
      (if initialResponse.message.content = "" then [] else [initialResponse.message]) ++
      results.map toolMessage }

/-- `ToolExecutionService.execute_batch`. -/
def executeTools (env : ChatEnv) (conversation : Conversation) (agent : Agent)
    (toolRequests : List ToolCallRequest) : Py ChatState ToolExecutionResult := do
  let batch ← Proc.ofExcept
    (executeBatch env.tools toolRequests conversation.organizationId agent.id conversation.id)
  modify fun s => { s with executed := s.executed ++ toolRequests }
  return batch

/-- `_execute_tool_loop`: a single round. -/
def executeToolLoop (env : ChatEnv) (conversation : Conversation) (agent : Agent)
    (initialRequest : ChatRequest) (initialResponse : ChatResponse)
    (providerOverride : Option String) : Py ChatState ChatResponse :=
  match initialResponse.toolCalls.map toolRequest with
  | [] => return initialResponse
  | toolRequests => do
      let batch ← executeTools env conversation agent toolRequests
      providerChat env (followupRequest initialRequest initialResponse batch.results)
        providerOverride

/-- The response that the turn is answered with. -/
def resolveTools (env : ChatEnv) (conversation : Conversation) (agent : Agent)
    (request : ChatRequest) (response : ChatResponse) (providerOverride : Option String) :
    Py ChatState ChatResponse :=
  if response.toolCalls ≠ [] ∧ env.hasTools then
    executeToolLoop env conversation agent request response providerOverride
  else return response

/-! ## The answer -/

/-- The fields of `ChatResponseSchema`, without identifiers and dates. -/
structure ChatReply where
  conversationId : Int
  runtimeVersion : String
  content : String
  provider : String
  model : String
  finishReason : String
  usage : Streaming.Usage
  deriving DecidableEq, Repr

/-- The provider that a model's name starts with, or the one that was asked for. -/
def providerUsed (model : String) (providerOverride : Option String) : String :=
  if '/' ∈ model.toList then String.ofList (model.toList.takeWhile (· ≠ '/'))
  else Streaming.textOr providerOverride "unknown"

/-- Steps 6 and 8: what is returned for a response. -/
def reply (conversation : Conversation) (response : ChatResponse)
    (providerOverride : Option String) : ChatReply where
  conversationId := conversation.id
  runtimeVersion := conversation.runtimeVersion
  content := response.message.content
  provider := providerUsed response.model providerOverride
  model := response.model
  finishReason := Streaming.textOr response.finishReason "stop"
  usage := response.usage.getD {}

/-- The assistant's message. -/
def ChatReply.message (reply : ChatReply) : Message where
  conversationId := reply.conversationId
  role := "assistant"
  content := reply.content
  provider := some reply.provider
  modelUsed := some reply.model
  finishReason := some reply.finishReason
  promptTokens := some reply.usage.promptTokens
  completionTokens := some reply.usage.completionTokens
  totalTokens := some reply.usage.totalTokens

/-- Steps 6 to 8. -/
def persistAnswer (env : ChatEnv) (conversation : Conversation) (response : ChatResponse)
    (providerOverride : Option String) : Py ChatState ChatReply := do
  let answer := reply conversation response providerOverride
  let _ ← onMessages (create env.assistantWrite answer.message)
  return answer

/-- What a turn does with the provider's response. -/
def finishTurn (env : ChatEnv) (conversation : Conversation) (agent : Agent)
    (providerOverride : Option String) (request : ChatRequest) (response : ChatResponse) :
    Py ChatState ChatReply := do
  let response ← resolveTools env conversation agent request response providerOverride
  persistAnswer env conversation response providerOverride

/-- What a turn does with its request. -/
def answerRequest (env : ChatEnv) (conversation : Conversation) (agent : Agent)
    (providerOverride : Option String) (request : ChatRequest) : Py ChatState ChatReply := do
  let response ← executeProvider env request providerOverride
  finishTurn env conversation agent providerOverride request response

/-- `ChatService._execute_and_persist`. -/
def executeAndPersist (env : ChatEnv) (conversation : Conversation) (agent : Agent)
    (userMessage : String) (overrides : Overrides) (persistUserMessage : Bool) :
    Py ChatState ChatReply := do
  let request ← prepareRequest env conversation agent userMessage overrides persistUserMessage
  answerRequest env conversation agent overrides.provider request

/-! ## The four calls -/

/-- `ConversationRepository.create`. -/
def createConversation (env : ChatEnv) (conversation : Conversation) :
    Py ChatState Conversation := do
  Py.ofResult env.conversationWrite.commit
  modify fun s => { s with conversations := s.conversations ++ [conversation] }
  Py.ofResult env.conversationWrite.refresh
  return conversation

/-- `ChatService.create_chat`. -/
def createChat (env : ChatEnv) (payload : ChatCreateRequest) (user : User)
    (organizationId : Int) : Py ChatState ChatReply := do
  let agent ← Py.ofResult (validateAgent env.agents payload.agentId organizationId)
  let conversation ← createConversation env
    { id := env.newConversationId
      organizationId := organizationId
      agentId := agent.id
      userId := user.id
      title := String.ofList (payload.message.toList.take 100)
      runtimeVersion := payload.runtimeVersion }
  executeAndPersist env conversation agent payload.message
    ⟨payload.provider, payload.model, payload.temperature, payload.topP, payload.maxTokens⟩ true

/-- The conversation and the agent of a turn. -/
def validateTurn (env : ChatEnv) (conversationId : Int) (user : User) (organizationId : Int) :
    Py ChatState (Conversation × Agent) := do
  let s ← get
  let conversation ← Py.ofResult
    (validateConversation s.conversations conversationId user organizationId)
  let agent ← Py.ofResult (validateAgent env.agents conversation.agentId organizationId)
  return (conversation, agent)

/-- `ChatService.continue_chat`. -/
def continueChat (env : ChatEnv) (conversationId : Int) (payload : ChatContinueRequest)
    (user : User) (organizationId : Int) : Py ChatState ChatReply := do
  let (conversation, agent) ← validateTurn env conversationId user organizationId
  executeAndPersist env conversation agent payload.message
    ⟨payload.provider, payload.model, payload.temperature, payload.topP, payload.maxTokens⟩ true

/-- `MessageRepository.get_last_user_message`. -/
def getLastUserMessage (messages : List Message) (conversationId : Int) : Option Message :=
  messages.reverse.find? fun message =>
    message.conversationId = conversationId ∧ message.role = "user"

/-- A turn for the last user message, which is not stored again. -/
def replay (env : ChatEnv) (conversationId : Int) (user : User) (organizationId : Int)
    (overrides : Overrides) (missing : String) : Py ChatState ChatReply := do
  let (conversation, agent) ← validateTurn env conversationId user organizationId
  let s ← get
  match getLastUserMessage s.messages conversationId with
  | none => Py.raise (.http 422 missing)
  | some message =>
      executeAndPersist env conversation agent message.content overrides false

/-- `ChatService.regenerate_response`. -/
def regenerateResponse (env : ChatEnv) (conversationId : Int) (payload : ChatRegenerateRequest)
    (user : User) (organizationId : Int) : Py ChatState ChatReply :=
  replay env conversationId user organizationId
    ⟨payload.provider, payload.model, payload.temperature, payload.topP, payload.maxTokens⟩
    "No user message found in this conversation to regenerate a response for."

/-- `ChatService.retry_failed_message`. -/
def retryFailedMessage (env : ChatEnv) (conversationId : Int) (payload : ChatRetryRequest)
    (user : User) (organizationId : Int) : Py ChatState ChatReply :=
  replay env conversationId user organizationId
    { provider := payload.provider, model := payload.model }
    "No user message found in this conversation to retry."

/-! ## What the provider service is sent -/

/-- Nothing that was sent or answered is forgotten. -/
def Remembers (s t : ChatState) : Prop :=
  s.requests <+: t.requests ∧ s.responses <+: t.responses

theorem Remembers.refl (s : ChatState) : Remembers s s :=
  ⟨List.prefix_refl _, List.prefix_refl _⟩

instance : IsPreorder ChatState Remembers where
  refl := Remembers.refl
  trans _ _ _ h₁ h₂ := ⟨h₁.1.trans h₂.1, h₁.2.trans h₂.2⟩

/-- The first request that a procedure sends. -/
def sent {α : Type} (p : Py ChatState α) (s : ChatState) : Option ChatRequest :=
  ((Proc.after p s).requests.drop s.requests.length).head?.map Prod.fst

section Effects

variable (env : ChatEnv) (s : ChatState)

theorem onMessages_run {α : Type} (p : Py (List Message) α) :
    (onMessages p).run s =
      match p.run s.messages with
      | .ok a messages => .ok a { s with messages := messages }
      | .error raised messages => .error raised { s with messages := messages } := rfl

theorem onMessages_create_run (outcome : WriteOutcome) (message : Message) :
    (onMessages (create outcome message)).run s =
      match outcome.result with
      | .ok () => .ok message { s with messages := s.messages ++ [message] }
      | .error exc => .error (.exception exc)
          { s with messages := s.messages ++ if outcome.stored then [message] else [] } := by
  rw [onMessages_run, create_run]
  cases outcome.result <;> rfl

theorem onMessages_create_after (outcome : WriteOutcome) (message : Message) :
    Proc.after (onMessages (create outcome message)) s =
      { s with messages := s.messages ++ if outcome.stored then [message] else [] } := by
  obtain ⟨commit, refresh⟩ := outcome
  unfold Proc.after
  rw [onMessages_run, create_run]
  cases commit with
  | error exc => rfl
  | ok _ => cases refresh <;> rfl

theorem providerChat_run (request : ChatRequest) (providerName : Option String) :
    (providerChat env request providerName).run s =
      let s' := { s with requests := s.requests ++ [(request, providerName)] }
      match env.chat s.requests.length request providerName with
      | .ok response => .ok response { s' with responses := s.responses ++ [response] }
      | .error raised => .error raised s' := by
  unfold providerChat
  rw [EStateM.run_bind, EStateM.run_get]
  dsimp only
  rw [EStateM.run_bind, EStateM.run_set]
  dsimp only
  rw [EStateM.run_bind]
  cases env.chat s.requests.length request providerName <;> rfl

theorem executeProvider_requests (request : ChatRequest) (providerName : Option String) :
    (Proc.after (executeProvider env request providerName) s).requests =
      s.requests ++ [(request, providerName)] := by
  unfold executeProvider
  rw [Proc.after_tryCatch, providerChat_run]
  cases env.chat s.requests.length request providerName with
  | ok response => rfl
  | error raised => cases raised <;> rfl

theorem executeProvider_ok {request : ChatRequest} {providerName : Option String}
    {response : ChatResponse} {t : ChatState}
    (h : (executeProvider env request providerName).run s = .ok response t) :
    t = { s with
      requests := s.requests ++ [(request, providerName)]
      responses := s.responses ++ [response] } := by
  unfold executeProvider at h
  rw [Proc.run_tryCatch, providerChat_run] at h
  cases hchat : env.chat s.requests.length request providerName with
  | ok response' =>
      simp only [hchat] at h
      obtain ⟨rfl, rfl⟩ := EStateM.Result.ok.inj h
      rfl
  | error raised =>
      simp only [hchat] at h
      cases raised <;> cases h

end Effects

section Turn

variable (env : ChatEnv) (conversation : Conversation) (agent : Agent)

/-- How the steps before the provider turn out. -/
def prepared (userMessage : String) (overrides : Overrides) (persistUserMessage : Bool)
    (messages : List Message) : Except BaseExn ChatRequest := do
  env.readHistory.mapError .exception
  let runtimeContext ←
    buildRuntimeContext env.collaborators conversation.organizationId agent.id userMessage
  if persistUserMessage then env.userWrite.result.mapError .exception
  let context := buildContext env.L (getByConversation messages conversation.id)
  (chatRequest overrides agent
    (buildPrompt agent.systemPrompt context userMessage runtimeContext.memoryContext
      runtimeContext.knowledgeContext runtimeContext.toolContext)
    runtimeContext.tools).checked.mapError .exception

/-- The write, and what is computed after it. -/
theorem storeThen_run (userMessage : String) (persistUserMessage : Bool)
    (checked : Except Exn ChatRequest) (s : ChatState) :
    ∃ added, (∀ message ∈ added, message = Chat.userMessage conversation.id userMessage) ∧
      (storeUserMessage env conversation userMessage persistUserMessage >>= fun _ =>
        Py.ofResult checked).run s =
      match (do
        if persistUserMessage then env.userWrite.result.mapError BaseExn.exception
        checked.mapError BaseExn.exception : Except BaseExn ChatRequest) with
      | .ok request => .ok request { s with messages := s.messages ++ added }
      | .error raised => .error raised { s with messages := s.messages ++ added } := by
  cases persistUserMessage with
  | false =>
      refine ⟨[], by simp, ?_⟩
      rw [List.append_nil]
      cases checked <;> rfl
  | true =>
      have hwrite : (storeUserMessage env conversation userMessage true).run s =
          match env.userWrite.result with
          | .ok () => .ok ()
              { s with messages := s.messages ++ [Chat.userMessage conversation.id userMessage] }
          | .error exc => .error (.exception exc)
              { s with messages := s.messages ++
                if env.userWrite.stored then
                  [Chat.userMessage conversation.id userMessage] else [] } := by
        show (onMessages (create env.userWrite _) >>= fun _ => pure ()).run s = _
        rw [EStateM.run_bind, onMessages_create_run]
        cases env.userWrite.result <;> rfl
      rw [EStateM.run_bind, hwrite]
      cases env.userWrite.result with
      | error exc =>
          refine ⟨_, fun message hmessage => ?_, rfl⟩
          split at hmessage
          · exact List.mem_singleton.mp hmessage
          · exact absurd hmessage List.not_mem_nil
      | ok _ =>
          refine ⟨[Chat.userMessage conversation.id userMessage], by simp, ?_⟩
          cases checked <;> rfl

/-- They store no message but the user's. -/
theorem prepareRequest_run (userMessage : String) (overrides : Overrides)
    (persistUserMessage : Bool) (s : ChatState) :
    ∃ added, (∀ message ∈ added, message = Chat.userMessage conversation.id userMessage) ∧
      (prepareRequest env conversation agent userMessage overrides persistUserMessage).run s =
        match prepared env conversation agent userMessage overrides persistUserMessage
            s.messages with
        | .ok request => .ok request { s with messages := s.messages ++ added }
        | .error raised => .error raised { s with messages := s.messages ++ added } := by
  unfold prepared prepareRequest
  cases env.readHistory with
  | error exc =>
      refine ⟨[], by simp, ?_⟩
      rw [List.append_nil]
      rfl
  | ok _ =>
      simp only [Py.ofResult_ok_bind]
      cases buildRuntimeContext env.collaborators conversation.organizationId agent.id
          userMessage with
      | error raised =>
          refine ⟨[], by simp, ?_⟩
          rw [List.append_nil]
          rfl
      | ok runtimeContext => exact storeThen_run env conversation userMessage persistUserMessage _ s

theorem resolveTools_remembers (request : ChatRequest) (response : ChatResponse)
    (providerOverride : Option String) :
    Proc.Within Remembers
      (resolveTools env conversation agent request response providerOverride) := by
  have hsend : ∀ followup, Proc.Within Remembers
      (providerChat env followup providerOverride) := by
    intro followup s
    unfold Proc.after
    rw [providerChat_run]
    cases env.chat s.requests.length followup providerOverride with
    | ok response => exact ⟨List.prefix_append _ _, List.prefix_append _ _⟩
    | error raised => exact ⟨List.prefix_append _ _, List.prefix_refl _⟩
  have hbatch : ∀ requests, Proc.Within Remembers
      (executeTools env conversation agent requests) := by
    intro requests
    unfold executeTools
    refine Proc.Within.bind (fun s => ?_) fun batch => Proc.Within.bind
      (Proc.Within.modify fun s => Remembers.refl _) fun _ => Proc.Within.pure _
    cases executeBatch env.tools requests conversation.organizationId agent.id conversation.id <;>
      exact Remembers.refl _
  unfold resolveTools
  split
  · unfold executeToolLoop
    split
    · exact Proc.Within.pure _
    · exact Proc.Within.bind (hbatch _) fun batch => hsend _
  · exact Proc.Within.pure _

theorem persistAnswer_remembers (response : ChatResponse) (providerOverride : Option String) :
    Proc.Within Remembers (persistAnswer env conversation response providerOverride) := by
  refine Proc.Within.bind (fun s => ?_) fun _ => Proc.Within.pure _
  rw [onMessages_create_after]
  exact Remembers.refl _

theorem finishTurn_remembers (providerOverride : Option String) (request : ChatRequest)
    (response : ChatResponse) :
    Proc.Within Remembers
      (finishTurn env conversation agent providerOverride request response) :=
  Proc.Within.bind
    (resolveTools_remembers env conversation agent request response providerOverride)
    fun response => persistAnswer_remembers env conversation response providerOverride

/-- A request that is answered is the next one that the provider service is sent. -/
theorem answerRequest_requests (providerOverride : Option String) (request : ChatRequest)
    (s : ChatState) :
    s.requests ++ [(request, providerOverride)] <+:
      (Proc.after (answerRequest env conversation agent providerOverride request) s).requests := by
  have hsent := executeProvider_requests env s request providerOverride
  unfold answerRequest
  rw [Proc.after_bind]
  cases hrun : (executeProvider env request providerOverride).run s with
  | ok response t =>
      rw [Proc.after_of_ok hrun] at hsent
      rw [← hsent]
      exact (finishTurn_remembers env conversation agent providerOverride request response t).1
  | error raised t =>
      rw [Proc.after_of_error hrun] at hsent
      rw [← hsent]

theorem prepareRequest_requests (userMessage : String) (overrides : Overrides)
    (persistUserMessage : Bool) (s : ChatState) :
    (Proc.after (prepareRequest env conversation agent userMessage overrides persistUserMessage)
      s).requests = s.requests := by
  obtain ⟨added, -, hrun⟩ := prepareRequest_run env conversation agent userMessage overrides
    persistUserMessage s
  unfold Proc.after
  rw [hrun]
  cases prepared env conversation agent userMessage overrides persistUserMessage s.messages <;> rfl

/-- The first request of a turn is the prepared one. -/
theorem executeAndPersist_sent {userMessage : String} {overrides : Overrides}
    {persistUserMessage : Bool} {s : ChatState} {request : ChatRequest}
    (h : sent (executeAndPersist env conversation agent userMessage overrides persistUserMessage)
      s = some request) :
    Proc.outcome (prepareRequest env conversation agent userMessage overrides persistUserMessage)
      s = .ok request := by
  have hprepare := prepareRequest_requests env conversation agent userMessage overrides
    persistUserMessage s
  unfold sent executeAndPersist at h
  rw [Proc.after_bind] at h
  unfold Proc.outcome
  cases hrun : (prepareRequest env conversation agent userMessage overrides
      persistUserMessage).run s with
  | error raised t =>
      rw [Proc.after_of_error hrun] at hprepare
      simp [hrun, hprepare] at h
  | ok prepared t =>
      rw [Proc.after_of_ok hrun] at hprepare
      obtain ⟨rest, hrest⟩ :=
        answerRequest_requests env conversation agent overrides.provider prepared t
      simp only [hrun, ← hrest, hprepare] at h
      simpa using h

end Turn

end AgentCorp.ChatService
