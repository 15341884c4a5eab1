/-
  How a chat turn ends, and what it has stored by then.

  The first call of the provider is guarded: whatever it raises becomes a `502`. The round of
  tools is not, so that what the batch or the follow-up call raises leaves the service as it is.
  The tool service is arbitrary here; with that of the code, the calls are those of `ChatService`.

  * `ChatCall.run_code`: the calls are those of the chat service.
  * `executeBatch_returns`: the batch of the code raises nothing.
  * `settled_round_iff`: the turns with a round of tools that end as they should.
  * `turnOutcome_iff`: all turns that do.
-/
import AgentCorp.Chat.ToolTranscript

namespace AgentCorp.ChatService

open AgentCorp.Python AgentCorp.Chat AgentCorp.Tools
open AgentCorp.Providers (ToolCall ChatResponse)
open AgentCorp.Runtime (User ChatCreateRequest ChatContinueRequest ChatRegenerateRequest
  ChatRetryRequest)

/-! ## Nothing but exceptions -/

/-- What is raised, if anything, is an `Exception`. -/
def Ordinary {α : Type} (r : Except BaseExn α) : Prop :=
  ∀ raised, r = .error raised → ∃ exc, raised = .exception exc

section Ordinary

variable {α β : Type}

theorem Ordinary.ok (a : α) : Ordinary (.ok a) := nofun

theorem Ordinary.exception (exc : Exn) : Ordinary (.error (.exception exc) : Except BaseExn α) :=
  fun _ h => ⟨exc, (Except.error.inj h).symm⟩

theorem Ordinary.bind {r : Except BaseExn α} {f : α → Except BaseExn β} (hr : Ordinary r)
    (hf : ∀ a, Ordinary (f a)) : Ordinary (r >>= f) := by
  intro raised h
  rcases Proc.bind_error h with hraised | ⟨a, -, hraised⟩
  · exact hr raised hraised
  · exact hf a raised hraised

theorem Ordinary.mapM {f : α → Except BaseExn β} (hf : ∀ a, Ordinary (f a)) (l : List α) :
    Ordinary (l.mapM f) := by
  intro raised h
  obtain ⟨a, -, hraised⟩ := Proc.mapM_error h
  exact hf a raised hraised

/-- What raises neither an `Exception` nor anything else returns. -/
theorem Ordinary.returns {r : Except BaseExn α} (hr : Ordinary r)
    (hnot : ∀ raised, r = .error raised → ∀ exc, raised ≠ .exception exc) :
    ∃ a, r = .ok a := by
  cases hcase : r with
  | ok a => exact ⟨a, rfl⟩
  | error raised =>
      obtain ⟨exc, hexc⟩ := hr raised hcase
      exact absurd hexc (hnot raised hcase exc)

theorem Ordinary.orElse {r : Except BaseExn α} (hr : Ordinary r) (default : α) :
    Ordinary (Chat.orElse r default) := by
  intro raised h
  unfold Chat.orElse at h
  split at h
  · cases h
  · exact hr raised h

end Ordinary

/-- `execute_batch` of a tool service, for an organisation, an agent and a conversation. -/
abbrev ToolService :=
  List ToolCallRequest → (organizationId agentId conversationId : Int) →
    Except BaseExn ToolExecutionResult

/-- The repositories succeed, and the services raise nothing but exceptions. -/
structure ChatEnv.Quiet (env : ChatEnv) (service : ToolService) : Prop where
  readHistory : env.readHistory = .ok ()
  conversationWrite : env.conversationWrite.result = .ok ()
  userWrite : env.userWrite.result = .ok ()
  assistantWrite : env.assistantWrite.result = .ok ()
  memories : ∀ retrieve, env.collaborators.retrieveMemories = some retrieve →
    ∀ organizationId agentId query topK, Ordinary (retrieve organizationId agentId query topK)
  contexts : ∀ retrieve, env.collaborators.retrieveContext = some retrieve →
    ∀ kbId query topK maxTokens, Ordinary (retrieve kbId query topK maxTokens)
  chat : ∀ n request providerName, Ordinary (env.chat n request providerName)
  executeBatch : ∀ requests organizationId agentId conversationId,
    Ordinary (service requests organizationId agentId conversationId)

/-- Exceptions of the services are caught, so only a cancellation gets through. -/
theorem buildRuntimeContext_error {services : Collaborators} {organizationId agentId : Int}
    {userMessage : String} {raised : BaseExn}
    (h : buildRuntimeContext services organizationId agentId userMessage = .error raised) :
    ∀ exc, raised ≠ .exception exc := by
  unfold buildRuntimeContext at h
  rcases Proc.bind_error h with hmemory | ⟨memory, -, h⟩
  · exact memoryContextOf_error hmemory
  · rcases Proc.bind_error h with hknowledge | ⟨_, -, hpure⟩
    · exact knowledgeContextOf_error hknowledge
    · cases hpure

/-- The runtime context is built: what the services raise is skipped. -/
theorem ChatEnv.Quiet.buildRuntimeContext {env : ChatEnv} {service : ToolService}
    (hquiet : env.Quiet service) (organizationId agentId : Int) (userMessage : String) :
    ∃ runtimeContext, buildRuntimeContext env.collaborators organizationId agentId userMessage =
      .ok runtimeContext := by
  have hmemory : Ordinary (retrieveMemoryContext env.collaborators organizationId agentId
      userMessage) := by
    unfold retrieveMemoryContext memoryContextOf
    split
    · exact Ordinary.ok _
    · next retrieve hretrieve =>
        exact Ordinary.bind (Ordinary.orElse (hquiet.memories retrieve hretrieve _ _ _ _) _)
          fun _ => Ordinary.ok _
  have hknowledge : Ordinary (retrieveKnowledgeContext env.collaborators organizationId
      userMessage) := by
    unfold retrieveKnowledgeContext knowledgeContextOf
    split
    · next list retrieve hlist hretrieve =>
        split
        · exact Ordinary.ok _
        · refine Ordinary.bind (Ordinary.mapM (fun knowledgeBase => ?_) _) fun _ => Ordinary.ok _
          exact Ordinary.bind (Ordinary.orElse (hquiet.contexts retrieve hretrieve _ _ _ _) _)
            fun _ => Ordinary.ok _
    · exact Ordinary.ok _
  have hordinary : Ordinary (ChatService.buildRuntimeContext env.collaborators organizationId
      agentId userMessage) :=
    Ordinary.bind hmemory fun _ => Ordinary.bind hknowledge fun _ => Ordinary.ok _
  exact hordinary.returns fun raised => buildRuntimeContext_error

/-! ## The tool service of the code -/

section Tools

variable {tools : Nat → ToolEnv}
  (hvalidate : ∀ i request, Ordinary ((tools i).validate request))
  (hattempt : ∀ i request used raised,
    (tools i).attempt request used = .error (.other raised) → ∃ exc, raised = .exception exc)

include hattempt

theorem ordinary_executeFrom (i : Nat) (request : ToolCallRequest) (remaining used : Nat) :
    Ordinary (executeFrom (tools i) request remaining used) := by
  have hreport : ∀ used raised, (tools i).attempt request used = .error raised →
      Ordinary raised.report := by
    intro used raised hraised
    cases raised with
    | executionError cls message retryable => exact Ordinary.ok _
    | other raised =>
        obtain ⟨exc, rfl⟩ := hattempt i request used raised hraised
        exact Ordinary.ok _
  induction remaining generalizing used with
  | zero =>
      unfold Tools.executeFrom
      cases hraised : (tools i).attempt request used with
      | ok content => exact Ordinary.ok _
      | error raised =>
          exact Ordinary.bind (hreport used raised hraised) fun _ => Ordinary.ok _
  | succ remaining ih =>
      unfold Tools.executeFrom
      cases hraised : (tools i).attempt request used with
      | ok content => exact Ordinary.ok _
      | error raised =>
          refine Ordinary.bind (hreport used raised hraised) fun reported => ?_
          obtain ⟨cls, message, retryable⟩ := reported
          cases retryable with
          | true => exact ih (used + 1)
          | false => exact Ordinary.ok _

include hvalidate

theorem dispatch_returns (i : Nat) (request : ToolCallRequest) :
    ∃ result, dispatch (tools i) request = .ok result := by
  have hsteps : Ordinary (dispatchSteps (tools i) request) := by
    have hdepth : Ordinary
        ((checkRecursionDepth request.recursionDepth request.toolName).mapError
          BaseExn.exception) := by
      unfold checkRecursionDepth
      split
      · exact Ordinary.exception _
      · exact Ordinary.ok _
    refine Ordinary.bind hdepth fun _ =>
      Ordinary.bind (hvalidate i request) fun validation => ?_
    split
    · unfold execute
      split
      · exact Ordinary.exception _
      · exact ordinary_executeFrom hattempt i request _ 0
    · exact Ordinary.ok _
  have hdispatch : Ordinary (Tools.dispatch (tools i) request) := by
    unfold Tools.dispatch
    split
    · exact Ordinary.ok _
    · exact hsteps
  exact hdispatch.returns fun raised => dispatch_error

/-- A batch has results: the dispatcher turns every exception into a failed result. -/
theorem executeBatch_returns (requests : List ToolCallRequest)
    (organizationId agentId conversationId : Int) :
    ∃ batch, executeBatch tools requests organizationId agentId conversationId =
      .ok batch := by
  obtain ⟨results, hresults⟩ := Proc.mapM_ok_iff.mpr fun entry (_ : entry ∈ requests.zipIdx) =>
    dispatch_returns hvalidate hattempt entry.2
      (entry.1.inContext organizationId agentId conversationId)
  exact ⟨_, congrArg (· >>= _) hresults⟩

end Tools

/-! ## Calls and turns -/

/-- A turn of a conversation, after the validations of a call. -/
structure Turn where
  conversation : Conversation
  agent : Agent
  userMessage : String
  overrides : Overrides
  persistUserMessage : Bool

/-- The row that a turn stores before the provider is called. -/
def Turn.userRows (turn : Turn) : List Message :=
  if turn.persistUserMessage then [Chat.userMessage turn.conversation.id turn.userMessage]
  else []

inductive ChatCall where
  | createChat (payload : ChatCreateRequest)
  | continueChat (conversationId : Int) (payload : ChatContinueRequest)
  | regenerateResponse (conversationId : Int) (payload : ChatRegenerateRequest)
  | retryFailedMessage (conversationId : Int) (payload : ChatRetryRequest)

/-- `payload.runtime_version`. -/
def ChatCall.runtimeVersion : ChatCall → String
  | createChat payload => payload.runtimeVersion
  | continueChat _ payload => payload.runtimeVersion
  | regenerateResponse _ payload => payload.runtimeVersion
  | retryFailedMessage _ payload => payload.runtimeVersion

/-- The row of a new conversation. -/
def newConversation (env : ChatEnv) (user : User) (organizationId : Int) (agent : Agent)
    (payload : ChatCreateRequest) : Conversation where
  id := env.newConversationId
  organizationId := organizationId
  agentId := agent.id
  userId := user.id
  title := String.ofList (payload.message.toList.take 100)
  runtimeVersion := payload.runtimeVersion

/-! ## Any tool service -/

section Services

variable (env : ChatEnv) (service : ToolService)

/-- The round of tools: what the batch and the follow-up call raise is not handled. -/
def Turn.resolve (turn : Turn) (request : ChatRequest) (response : ChatResponse) :
    Py ChatState ChatResponse :=
  if response.toolCalls ≠ [] ∧ env.hasTools then do
    let toolRequests := response.toolCalls.map toolRequest
    let batch ← Proc.ofExcept (service toolRequests turn.conversation.organizationId turn.agent.id
      turn.conversation.id)
    modify fun s => { s with executed := s.executed ++ toolRequests }
    providerChat env (followupRequest request response batch.results) turn.overrides.provider
  else return response

def Turn.finish (turn : Turn) (request : ChatRequest) (response : ChatResponse) :
    Py ChatState ChatReply := do
  let response ← turn.resolve env service request response
  persistAnswer env turn.conversation response turn.overrides.provider

/-- `_execute_and_persist`. -/
def Turn.run (turn : Turn) : Py ChatState ChatReply := do
  let request ← prepareRequest env turn.conversation turn.agent turn.userMessage turn.overrides
    turn.persistUserMessage
  let response ← executeProvider env request turn.overrides.provider
  turn.finish env service request response

/-- A turn for the last user message. -/
def replayTurn (conversationId : Int) (user : User) (organizationId : Int) (overrides : Overrides)
    (missing : String) : Py ChatState ChatReply := do
  let (conversation, agent) ← validateTurn env conversationId user organizationId
  let s ← get
  match getLastUserMessage s.messages conversationId with
  | none => Py.raise (.http 422 missing)
  | some message => Turn.run env service ⟨conversation, agent, message.content, overrides, false⟩

def ChatCall.run (user : User) (organizationId : Int) : ChatCall → Py ChatState ChatReply
  | .createChat payload => do
      let agent ← Py.ofResult (validateAgent env.agents payload.agentId organizationId)
      let conversation ← createConversation env
        (newConversation env user organizationId agent payload)
      Turn.run env service ⟨conversation, agent, payload.message,
        ⟨payload.provider, payload.model, payload.temperature, payload.topP, payload.maxTokens⟩,
        true⟩
  | .continueChat conversationId payload => do
      let (conversation, agent) ← validateTurn env conversationId user organizationId
      Turn.run env service ⟨conversation, agent, payload.message,
        ⟨payload.provider, payload.model, payload.temperature, payload.topP, payload.maxTokens⟩,
        true⟩
  | .regenerateResponse conversationId payload =>
      replayTurn env service conversationId user organizationId
        ⟨payload.provider, payload.model, payload.temperature, payload.topP, payload.maxTokens⟩
        "No user message found in this conversation to regenerate a response for."
  | .retryFailedMessage conversationId payload =>
      replayTurn env service conversationId user organizationId
        { provider := payload.provider, model := payload.model }
        "No user message found in this conversation to retry."

end Services

section Code

variable (env : ChatEnv) (user : User) (organizationId : Int)

/-- With the tool service of the code, a turn is `_execute_and_persist`. -/
theorem Turn.run_code (turn : Turn) :
    turn.run env (executeBatch env.tools) = executeAndPersist env turn.conversation turn.agent
      turn.userMessage turn.overrides turn.persistUserMessage := by
  have hfinish : ∀ request response, turn.finish env (executeBatch env.tools) request response =
      finishTurn env turn.conversation turn.agent turn.overrides.provider request response := by
    intro request response
    by_cases htools : response.toolCalls ≠ [] ∧ env.hasTools
    · rw [finishTurn_tools env turn.conversation turn.agent htools]
      unfold Turn.finish Turn.resolve executeTools
      rw [if_pos htools]
      simp only [bind_assoc, pure_bind]
    · unfold Turn.finish Turn.resolve finishTurn resolveTools
      rw [if_neg htools, if_neg htools]
  unfold Turn.run executeAndPersist answerRequest
  simp only [hfinish]

theorem replayTurn_code (conversationId : Int) (overrides : Overrides) (missing : String) :
    replayTurn env (executeBatch env.tools) conversationId user organizationId overrides missing =
      replay env conversationId user organizationId overrides missing := by
  unfold replayTurn replay
  refine bind_congr fun turn => bind_congr fun s => ?_
  cases getLastUserMessage s.messages conversationId with
  | none => rfl
  | some message => exact Turn.run_code env _

/-- With the tool service of the code, the calls are those of the chat service. -/
theorem ChatCall.run_code (call : ChatCall) :
    call.run env (executeBatch env.tools) user organizationId =
      match call with
      | .createChat payload => ChatService.createChat env payload user organizationId
      | .continueChat conversationId payload =>
          ChatService.continueChat env conversationId payload user organizationId
      | .regenerateResponse conversationId payload =>
          ChatService.regenerateResponse env conversationId payload user organizationId
      | .retryFailedMessage conversationId payload =>
          ChatService.retryFailedMessage env conversationId payload user organizationId := by
  cases call with
  | createChat payload =>
      unfold ChatCall.run ChatService.createChat
      simp only [Turn.run_code]
      rfl
  | continueChat conversationId payload =>
      unfold ChatCall.run ChatService.continueChat
      simp only [Turn.run_code]
  | regenerateResponse conversationId payload =>
      exact replayTurn_code env user organizationId conversationId _ _
  | retryFailedMessage conversationId payload =>
      exact replayTurn_code env user organizationId conversationId _ _

end Code

/-! ## Validations -/

section Validations

variable (env : ChatEnv) (user : User) (organizationId : Int)

/-- The validations of a turn in a conversation that is there. -/
def validated (s : ChatState) (conversationId : Int) : Except Exn (Conversation × Agent) := do
  let conversation ← validateConversation s.conversations conversationId user organizationId
  let agent ← validateAgent env.agents conversation.agentId organizationId
  return (conversation, agent)

/-- The validations of a replay: there has to be a user message. -/
def validatedReplay (s : ChatState) (conversationId : Int) (overrides : Overrides)
    (missing : String) : Except Exn Turn := do
  let (conversation, agent) ← validated env user organizationId s conversationId
  match getLastUserMessage s.messages conversationId with
  | none => .error (.http 422 missing)
  | some message => return ⟨conversation, agent, message.content, overrides, false⟩

/-- The turn of a call, if its validations pass. -/
def ChatCall.turn (s : ChatState) : ChatCall → Except Exn Turn
  | .createChat payload => do
      let agent ← validateAgent env.agents payload.agentId organizationId
      return ⟨newConversation env user organizationId agent payload, agent, payload.message,
        ⟨payload.provider, payload.model, payload.temperature, payload.topP, payload.maxTokens⟩,
        true⟩
  | .continueChat conversationId payload => do
      let (conversation, agent) ← validated env user organizationId s conversationId
      return ⟨conversation, agent, payload.message,
        ⟨payload.provider, payload.model, payload.temperature, payload.topP, payload.maxTokens⟩,
        true⟩
  | .regenerateResponse conversationId payload =>
      validatedReplay env user organizationId s conversationId
        ⟨payload.provider, payload.model, payload.temperature, payload.topP, payload.maxTokens⟩
        "No user message found in this conversation to regenerate a response for."
  | .retryFailedMessage conversationId payload =>
      validatedReplay env user organizationId s conversationId
        { provider := payload.provider, model := payload.model }
        "No user message found in this conversation to retry."

end Validations

section Run

variable {env : ChatEnv} {service : ToolService} {user : User} {organizationId : Int}

theorem validateTurn_ok {s : ChatState} {conversationId : Int} {turn : Conversation × Agent}
    (h : validated env user organizationId s conversationId = .ok turn) :
    (validateTurn env conversationId user organizationId).run s = .ok turn s := by
  rw [validateTurn_run]
  unfold validated at h
  rw [h]

theorem replayTurn_run {s : ChatState} {conversationId : Int} {overrides : Overrides}
    {missing : String} {turn : Turn}
    (h : validatedReplay env user organizationId s conversationId overrides missing = .ok turn) :
    (replayTurn env service conversationId user organizationId overrides missing).run s =
      (turn.run env service).run s := by
  obtain ⟨⟨conversation, agent⟩, hvalidated, h⟩ := Proc.bind_ok h
  unfold replayTurn
  rw [EStateM.run_bind, validateTurn_ok hvalidated]
  dsimp only
  rw [EStateM.run_bind, EStateM.run_get]
  dsimp only at h ⊢
  cases hmessage : getLastUserMessage s.messages conversationId with
  | none =>
      rw [hmessage] at h
      cases h
  | some message =>
      rw [hmessage] at h
      obtain rfl := Except.ok.inj h
      rfl

/-- A call whose validations pass is a turn, from the same rows. -/
theorem ChatCall.run_eq (hquiet : env.Quiet service) {call : ChatCall} {s : ChatState}
    {turn : Turn} (h : call.turn env user organizationId s = .ok turn) :
    ∃ s', s'.messages = s.messages ∧ s'.requests = s.requests ∧
      (call.run env service user organizationId).run s = (turn.run env service).run s' := by
  cases call with
  | createChat payload =>
      obtain ⟨agent, hagent, h⟩ := Proc.bind_ok h
      obtain rfl := Except.ok.inj h
      obtain ⟨_, hcommit, hrefresh⟩ := Proc.bind_ok hquiet.conversationWrite
      refine ⟨{ s with conversations := s.conversations ++
        [newConversation env user organizationId agent payload] }, rfl, rfl, ?_⟩
      rw [ChatCall.run]
      unfold createConversation
      rw [hagent, hcommit, hrefresh]
      rfl
  | continueChat conversationId payload =>
      obtain ⟨⟨conversation, agent⟩, hvalidated, h⟩ := Proc.bind_ok h
      obtain rfl := Except.ok.inj h
      refine ⟨s, rfl, rfl, ?_⟩
      rw [ChatCall.run, EStateM.run_bind, validateTurn_ok hvalidated]
  | regenerateResponse conversationId payload => exact ⟨s, rfl, rfl, replayTurn_run h⟩
  | retryFailedMessage conversationId payload => exact ⟨s, rfl, rfl, replayTurn_run h⟩

end Run

/-! ## How a turn ends -/

/-- A reply was returned, and its message is stored after the user's; or an `HTTPException` was
    raised, and only the user's message is stored. -/
def Settled (userRows : List Message) (p : Py ChatState ChatReply) (s : ChatState) : Prop :=
  match p.run s with
  | .ok answer t => t.messages = s.messages ++ userRows ++ [answer.message]
  | .error raised t =>
      (∃ statusCode detail, raised = .exception (.http statusCode detail)) ∧
        t.messages = s.messages ++ userRows

/-- The request of the turn is within the bounds of `ChatRequest`: its temperature, its number of
    tokens and its `top_p`. -/
def Turn.InBounds (turn : Turn) : Prop :=
  (chatRequest turn.overrides turn.agent [] []).checked.isOk

/-- A response asks for tools, and the batch or the follow-up call raises something that is no
    `HTTPException`. -/
def Turn.RoundFails (env : ChatEnv) (service : ToolService) (turn : Turn) (n : Nat)
    (request : ChatRequest) : Prop :=
  ∃ response, env.chat n request turn.overrides.provider = .ok response ∧
    (response.toolCalls ≠ [] ∧ env.hasTools) ∧
    ∃ exc, (service (response.toolCalls.map toolRequest) turn.conversation.organizationId
        turn.agent.id turn.conversation.id >>= fun batch =>
          env.chat (n + 1) (followupRequest request response batch.results)
            turn.overrides.provider) = .error (.exception exc) ∧ exc.isHttp = false

/-- The turn does not come to an exception that nothing handles. -/
def Turn.Guarded (env : ChatEnv) (service : ToolService) (turn : Turn) (s : ChatState) : Prop :=
  turn.InBounds ∧ ∀ request,
    prepared env turn.conversation turn.agent turn.userMessage turn.overrides
        turn.persistUserMessage s.messages = .ok request →
      ¬ turn.RoundFails env service s.requests.length request

section Turn

variable {env : ChatEnv} {service : ToolService} (hquiet : env.Quiet service) (turn : Turn)
include hquiet

theorem storeUserMessage_quiet (s : ChatState) :
    (storeUserMessage env turn.conversation turn.userMessage turn.persistUserMessage).run s =
      .ok () { s with messages := s.messages ++ turn.userRows } := by
  unfold storeUserMessage Turn.userRows
  cases turn.persistUserMessage with
  | false =>
      show EStateM.Result.ok () s = .ok () { s with messages := s.messages ++ [] }
      rw [List.append_nil]
  | true =>
      show (onMessages (create env.userWrite _) >>= fun _ => pure ()).run s = _
      rw [EStateM.run_bind, onMessages_create_run, hquiet.userWrite]
      rfl

/-- The steps before the provider store the user's row, and fail only on the bounds. -/
theorem prepareRequest_quiet (s : ChatState) :
    ∃ checked, prepared env turn.conversation turn.agent turn.userMessage turn.overrides
        turn.persistUserMessage s.messages = checked.mapError .exception ∧
      (checked.isOk ↔ turn.InBounds) ∧
      (∀ exc, checked = .error exc → exc.isHttp = false) ∧
      (prepareRequest env turn.conversation turn.agent turn.userMessage turn.overrides
          turn.persistUserMessage).run s =
        (Py.ofResult checked).run { s with messages := s.messages ++ turn.userRows } := by
  obtain ⟨runtimeContext, hcontext⟩ := hquiet.buildRuntimeContext
    turn.conversation.organizationId turn.agent.id turn.userMessage
  refine ⟨(chatRequest turn.overrides turn.agent
    (buildPrompt turn.agent.systemPrompt
      (buildContext env.L (getByConversation s.messages turn.conversation.id)) turn.userMessage
      runtimeContext.memoryContext runtimeContext.knowledgeContext runtimeContext.toolContext)
    runtimeContext.tools).checked, ?_, ?_, ?_, ?_⟩
  · unfold prepared
    rw [hquiet.readHistory, hcontext, hquiet.userWrite]
    cases turn.persistUserMessage <;> rfl
  · unfold Turn.InBounds ChatRequest.checked chatRequest
    dsimp only
    split <;> rfl
  · intro exc hexc
    unfold ChatRequest.checked at hexc
    split at hexc
    · cases hexc
    · rw [← Except.error.inj hexc]
      rfl
  · unfold prepareRequest
    rw [hquiet.readHistory, Py.ofResult_ok_bind, EStateM.run_bind, EStateM.run_get]
    dsimp only
    rw [hcontext]
    show (storeUserMessage env turn.conversation turn.userMessage turn.persistUserMessage >>=
      fun _ => Py.ofResult _).run s = _
    rw [EStateM.run_bind, storeUserMessage_quiet hquiet]

theorem persistAnswer_quiet (conversation : Conversation) (response : ChatResponse)
    (providerOverride : Option String) (s : ChatState) :
    (persistAnswer env conversation response providerOverride).run s =
      .ok (reply conversation response providerOverride)
        { s with messages := s.messages ++
          [(reply conversation response providerOverride).message] } := by
  unfold persistAnswer
  dsimp only
  rw [EStateM.run_bind, onMessages_create_run, hquiet.assistantWrite]
  rfl

omit hquiet in
theorem settled_congr {rows : List Message} {p q : Py ChatState ChatReply} {s s' : ChatState}
    (hrun : p.run s = q.run s') (hmessages : s'.messages = s.messages ++ rows) :
    Settled rows p s ↔ Settled [] q s' := by
  unfold Settled
  rw [hrun, hmessages, List.append_nil]

theorem persistAnswer_settled (conversation : Conversation) (response : ChatResponse)
    (providerOverride : Option String) (s : ChatState) :
    Settled [] (persistAnswer env conversation response providerOverride) s := by
  unfold Settled
  rw [persistAnswer_quiet hquiet]
  dsimp only
  rw [List.append_nil]

omit hquiet in
theorem http_of_isHttp {exc : Exn} (h : exc.isHttp = true) :
    ∃ statusCode detail, BaseExn.exception exc = .exception (.http statusCode detail) := by
  cases exc with
  | http statusCode detail => exact ⟨statusCode, detail, rfl⟩
  | policyViolation | notImplemented | valueError | typeError | attributeError | other => cases h

omit hquiet in
/-- A turn that raises an exception and has stored nothing more ends as it should if it is an
    `HTTPException`. -/
theorem settled_raised_iff {p : Py ChatState ChatReply} {s t : ChatState} {exc : Exn}
    (hrun : p.run s = .error (.exception exc) t) (hmessages : t.messages = s.messages) :
    Settled [] p s ↔ exc.isHttp = true := by
  unfold Settled
  rw [hrun]
  constructor
  · rintro ⟨⟨statusCode, detail, hexc⟩, -⟩
    rw [BaseExn.exception.inj hexc]
    rfl
  · intro hhttp
    exact ⟨http_of_isHttp hhttp, hmessages.trans (List.append_nil _).symm⟩

omit hquiet in
theorem forall_raised_iff {α : Type} (exc : Exn) :
    (∀ exc', (.error (.exception exc) : Except BaseExn α) = .error (.exception exc') →
      exc'.isHttp = true) ↔ exc.isHttp = true := by
  constructor
  · exact fun h => h exc rfl
  · intro h exc' hexc
    rwa [← BaseExn.exception.inj (Except.error.inj hexc)]

/-- The follow-up call is not guarded. -/
theorem settled_followup_iff (conversation : Conversation) (request : ChatRequest)
    (providerOverride : Option String) (s : ChatState) :
    Settled [] (do
        let response ← providerChat env request providerOverride
        persistAnswer env conversation response providerOverride) s ↔
      ∀ exc, env.chat s.requests.length request providerOverride = .error (.exception exc) →
        exc.isHttp = true := by
  cases hchat : env.chat s.requests.length request providerOverride with
  | ok response =>
      have hanswered : Settled [] (persistAnswer env conversation response providerOverride)
          { s with
            requests := s.requests ++ [(request, providerOverride)]
            responses := s.responses ++ [response] } :=
        persistAnswer_settled hquiet conversation response providerOverride _
      refine iff_of_true ((settled_congr ?_ ?_).mpr hanswered) nofun
      · rw [EStateM.run_bind, providerChat_run, hchat]
      · exact (List.append_nil _).symm
  | error raised =>
      obtain ⟨exc, rfl⟩ := hquiet.chat _ _ _ raised hchat
      rw [forall_raised_iff]
      refine settled_raised_iff (t := { s with
        requests := s.requests ++ [(request, providerOverride)] }) ?_ rfl
      rw [EStateM.run_bind, providerChat_run, hchat]

/-- Neither the batch nor the follow-up call is guarded. -/
theorem settled_round_iff {request : ChatRequest} {response : ChatResponse}
    (htools : response.toolCalls ≠ [] ∧ env.hasTools) (s : ChatState) :
    Settled [] (turn.finish env service request response) s ↔
      ∀ exc, (service (response.toolCalls.map toolRequest) turn.conversation.organizationId
        turn.agent.id turn.conversation.id >>= fun batch =>
          env.chat s.requests.length (followupRequest request response batch.results)
            turn.overrides.provider) = .error (.exception exc) → exc.isHttp = true := by
  have hbatch := hquiet.executeBatch (response.toolCalls.map toolRequest)
    turn.conversation.organizationId turn.agent.id turn.conversation.id
  have hfinish : turn.finish env service request response = (do
      let batch ← Proc.ofExcept (service (response.toolCalls.map toolRequest)
        turn.conversation.organizationId turn.agent.id turn.conversation.id)
      modify fun s => { s with executed := s.executed ++ response.toolCalls.map toolRequest }
      let response ← providerChat env (followupRequest request response batch.results)
        turn.overrides.provider
      persistAnswer env turn.conversation response turn.overrides.provider) := by
    unfold Turn.finish Turn.resolve
    rw [if_pos htools]
    simp only [bind_assoc]
  rw [hfinish]
  cases hservice : service (response.toolCalls.map toolRequest) turn.conversation.organizationId
      turn.agent.id turn.conversation.id with
  | error raised =>
      obtain ⟨exc, rfl⟩ := hbatch raised hservice
      exact (settled_raised_iff rfl rfl).trans (forall_raised_iff exc).symm
  | ok batch =>
      have hfollowup := settled_followup_iff hquiet turn.conversation
        (followupRequest request response batch.results) turn.overrides.provider
        { s with executed := s.executed ++ response.toolCalls.map toolRequest }
      exact (settled_congr rfl (List.append_nil _).symm).trans hfollowup

/-- What a turn does with the first response. -/
theorem finish_settled_iff (request : ChatRequest) {response : ChatResponse} {n : Nat}
    (s : ChatState) (hrequests : s.requests.length = n + 1)
    (hchat : env.chat n request turn.overrides.provider = .ok response) :
    Settled [] (turn.finish env service request response) s ↔
      ¬ turn.RoundFails env service n request := by
  by_cases htools : response.toolCalls ≠ [] ∧ env.hasTools
  · rw [settled_round_iff hquiet turn htools, hrequests]
    constructor
    · rintro hhttp ⟨response', hchat', -, exc, hexc, hnot⟩
      obtain rfl := Except.ok.inj (hchat.symm.trans hchat')
      rw [hhttp exc hexc] at hnot
      cases hnot
    · intro hguarded exc hexc
      by_contra hnot
      exact hguarded ⟨response, hchat, htools, exc, hexc, Bool.eq_false_iff.mpr hnot⟩
  · refine iff_of_true ?_ ?_
    · unfold Turn.finish Turn.resolve
      rw [if_neg htools]
      exact persistAnswer_settled hquiet turn.conversation response turn.overrides.provider s
    · rintro ⟨response', hchat', htools', -⟩
      obtain rfl := Except.ok.inj (hchat.symm.trans hchat')
      exact htools htools'

/-- What a turn does with its request: the first call is guarded. -/
theorem answered_settled_iff (request : ChatRequest) (s : ChatState) :
    Settled [] (do
        let response ← executeProvider env request turn.overrides.provider
        turn.finish env service request response) s ↔
      ¬ turn.RoundFails env service s.requests.length request := by
  cases hchat : env.chat s.requests.length request turn.overrides.provider with
  | ok response =>
      rw [← finish_settled_iff hquiet turn request { s with
        requests := s.requests ++ [(request, turn.overrides.provider)]
        responses := s.responses ++ [response] } (by simp) hchat]
      refine settled_congr ?_ (List.append_nil _).symm
      unfold executeProvider
      rw [EStateM.run_bind, Proc.run_tryCatch, providerChat_run, hchat]
  | error raised =>
      obtain ⟨exc, rfl⟩ := hquiet.chat _ _ _ raised hchat
      refine iff_of_true ?_ ?_
      · unfold Settled executeProvider
        rw [EStateM.run_bind, Proc.run_tryCatch, providerChat_run, hchat]
        exact ⟨⟨502, _, rfl⟩, (List.append_nil _).symm⟩
      · rintro ⟨response, hresponse, -⟩
        rw [hchat] at hresponse
        cases hresponse

theorem turn_settled_iff (s : ChatState) :
    Settled turn.userRows (turn.run env service) s ↔ turn.Guarded env service s := by
  obtain ⟨checked, hprepared, hbounds, hexc, hrun⟩ := prepareRequest_quiet hquiet turn s
  have hturn : (turn.run env service).run s =
      (Py.ofResult checked >>= fun request => do
        let response ← executeProvider env request turn.overrides.provider
        turn.finish env service request response).run
          { s with messages := s.messages ++ turn.userRows } := by
    unfold Turn.run
    rw [EStateM.run_bind, hrun, EStateM.run_bind]
  rw [settled_congr hturn rfl]
  unfold Turn.Guarded
  rw [hprepared, ← hbounds]
  cases checked with
  | error exc =>
      refine iff_of_false ?_ fun hguarded => Bool.false_ne_true hguarded.1
      rintro ⟨⟨statusCode, detail, hhttp⟩, -⟩
      have hnot := hexc exc rfl
      rw [BaseExn.exception.inj hhttp] at hnot
      cases hnot
  | ok request =>
      rw [Py.ofResult_ok_bind, answered_settled_iff hquiet]
      constructor
      · intro hguarded
        refine ⟨rfl, fun request' hrequest => ?_⟩
        obtain rfl := Except.ok.inj hrequest
        exact hguarded
      · intro hguarded
        exact hguarded.2 request rfl

end Turn

theorem echoChat_quiet {chat : Nat → ChatRequest → Option String → Except BaseExn ChatResponse}
    (h : ∀ n request providerName, Ordinary (chat n request providerName)) :
    ({ echoChat with chat := chat } : ChatEnv).Quiet (executeBatch echoChat.tools) where
  readHistory := rfl
  conversationWrite := rfl
  userWrite := rfl
  assistantWrite := rfl
  memories := by
    intro retrieve hretrieve
    cases hretrieve
  contexts := by
    intro retrieve hretrieve
    cases hretrieve
  chat := h
  executeBatch := by
    intro requests organizationId agentId conversationId
    have hvalidate : ∀ i request, Ordinary ((echoChat.tools i).validate request) :=
      fun _ _ => Ordinary.ok _
    have hattempt : ∀ i request used raised,
        (echoChat.tools i).attempt request used = .error (.other raised) →
          ∃ exc, raised = .exception exc := by
      intro i request used raised hraised
      cases hraised
    obtain ⟨batch, hbatch⟩ := executeBatch_returns hvalidate hattempt requests organizationId
      agentId conversationId
    rw [hbatch]
    exact Ordinary.ok batch

/-- The provider asks for a tool, and is down when it is handed the result. -/
def droppedChat : ChatEnv :=
  { echoChat with
    chat := fun n _ _ =>
      if n = 0 then .ok echoResponse else .error (.exception (.other "ProviderError" "down")) }

def hiCall : ChatCall := .continueChat 1 { message := "Hi" }

def hiTurn : Turn := ⟨quietConversation, quietAgent, "Hi", {}, true⟩

/-- The exception of the follow-up call leaves the service as it is. -/
theorem droppedChat_not_settled :
    droppedChat.Quiet (executeBatch droppedChat.tools) ∧
      hiCall.turn droppedChat ⟨9, true, false⟩ 1 emptyConversation = .ok hiTurn ∧
      ¬ Settled hiTurn.userRows
        (hiCall.run droppedChat (executeBatch droppedChat.tools) ⟨9, true, false⟩ 1)
        emptyConversation := by
  refine ⟨echoChat_quiet fun n _ _ => ?_, rfl, ?_⟩
  · split
    · exact Ordinary.ok _
    · exact Ordinary.exception _
  have hraised : Proc.outcome
      (hiCall.run droppedChat (executeBatch droppedChat.tools) ⟨9, true, false⟩ 1)
      emptyConversation = .error (.exception (.other "ProviderError" "down")) := by
    decide +kernel
  unfold Settled
  rw [Proc.run_of_outcome_error hraised]
  rintro ⟨⟨statusCode, detail, hhttp⟩, -⟩
  cases hhttp

/-- **Turn outcomes.** A call whose validations pass ends as it should exactly if its turn does not
    come to an unguarded exception. -/
theorem turnOutcome_iff {env : ChatEnv} {service : ToolService} (hquiet : env.Quiet service)
    {user : User} {organizationId : Int} {call : ChatCall} {s : ChatState} {turn : Turn}
    (hturn : call.turn env user organizationId s = .ok turn) :
    Settled turn.userRows (call.run env service user organizationId) s ↔
      turn.Guarded env service s := by
  obtain ⟨s', hmessages, hrequests, hrun⟩ := ChatCall.run_eq hquiet hturn
  have hsettled : Settled turn.userRows (call.run env service user organizationId) s ↔
      Settled turn.userRows (turn.run env service) s' := by
    unfold Settled
    rw [hrun, hmessages]
  rw [hsettled, turn_settled_iff hquiet]
  unfold Turn.Guarded
  rw [hmessages, hrequests]

/-- With a provider that fails at once, the turn ends with a `502`. -/
theorem quietChat_settled :
    Settled hiTurn.userRows
        (hiCall.run { echoChat with chat := quietChat.chat } (executeBatch echoChat.tools)
          ⟨9, true, false⟩ 1)
        emptyConversation ↔
      hiTurn.Guarded { echoChat with chat := quietChat.chat } (executeBatch echoChat.tools)
        emptyConversation :=
  turnOutcome_iff (echoChat_quiet fun _ _ _ => Ordinary.exception _) rfl

end AgentCorp.ChatService
