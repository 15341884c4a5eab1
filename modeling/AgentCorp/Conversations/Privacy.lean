/-
  Conversations are private.

  The requests of a history, to the chat and to the streaming endpoints, are taken one after the
  other. Whatever a user is answered, and whatever their chats send to providers and tools, is the
  same as if nobody else had ever used the system. Only that a conversation of somebody else is
  there can be told from the refusal, which is a 403 and not a 404.

  A request is one for the first runtime, which writes to no table but these two. The second one
  is left out: after a chat it stores memories for the organization's agent, which later chats
  with that agent read, whoever's they are. What the first runtime only reads, the agents, the
  memories and the knowledge, comes with each request, and so do the id of a new conversation and
  what the providers and tools answer; nothing is said of what these make of an earlier request.

  * `shape`: what a request does, read off the code once.
  * `step_effect`: a request writes to one conversation of its user, if it writes.
  * `conversations_private`: in the first runtime, nobody else makes a difference.
-/
import AgentCorp.Conversations.LocalTurns
import AgentCorp.Lib.Noninterference

namespace AgentCorp.Conversations

open AgentCorp.Python AgentCorp.Chat AgentCorp.ChatService KeyedLog Noninterference
open AgentCorp.Runtime (ChatBaseRequest StreamingChatRequest User)
open AgentCorp.Streaming (ChatStreamEnv ChatStreamState StreamEvent assertOrgMembership
  endpointEvents eventGenerator onStream routeStream)
open AgentCorp.Tools (executeBatch)

/-! ## Requests -/

structure ChatTables where
  conversations : List Conversation
  messages : List Message
  deriving DecidableEq, Repr

def ChatTables.empty : ChatTables where
  conversations := []
  messages := []

/-- `RuntimeRouter.resolve` takes a version to the first runtime, unless it is that of the
    second. -/
def RunsOnV1 (runtimeVersion : String) : Prop :=
  runtimeVersion ≠ "AgentCorp V2"

instance : DecidablePred RunsOnV1 :=
  fun _ => inferInstanceAs (Decidable (_ ≠ _))

/-- What a request asks for, and what it meets. It is for the first runtime. -/
inductive Action where
  | chat (env : ChatEnv) (call : ChatCall) (version : RunsOnV1 call.runtimeVersion)
  | stream (env : ChatStreamEnv) (payload : StreamingChatRequest) (conversationId : Option Int)
      (version : RunsOnV1 payload.runtimeVersion)

structure Request where
  user : User
  memberships : List Int
  organizationId : Int
  action : Action

/-- What leaves the system for a request: an answer, and what is sent to providers and tools. -/
inductive Outcome where
  | turnedAway (exc : Exn)
  | chat (result : Except BaseExn ChatReply) (traffic : Traffic)
  | stream (events : List StreamEvent)

def ChatState.traffic (s : ChatState) : Traffic where
  requests := s.requests
  responses := s.responses
  executed := s.executed

/-- The outcome of a call of the chat service. -/
def chatOutcome : EStateM.Result BaseExn ChatState ChatReply → Outcome × ChatTables
  | .ok reply s => (.chat (.ok reply) (ChatState.traffic s), ⟨s.conversations, s.messages⟩)
  | .error raised s => (.chat (.error raised) (ChatState.traffic s), ⟨s.conversations, s.messages⟩)

namespace Request

variable (r : Request)

/-- A request behind its endpoint, which checks the membership first. -/
def step (t : ChatTables) : Outcome × ChatTables :=
  match assertOrgMembership r.user r.memberships r.organizationId with
  | .error exc => (.turnedAway exc, t)
  | .ok _ =>
      match r.action with
      | .chat env call _ =>
          chatOutcome ((call.run env (executeBatch env.tools) r.user r.organizationId).run
            (.of t.conversations t.messages {}))
      | .stream env payload conversationId _ =>
          let response := eventGenerator env payload r.user r.organizationId conversationId
            ⟨t.conversations, ⟨t.messages, [], []⟩⟩
          (.stream response.1, ⟨response.2.conversations, response.2.stream.rows⟩)

/-- The id that a new conversation of the request gets. -/
def opens : Option Int :=
  match r.action with
  | .chat env (.createChat _) _ => some env.newConversationId
  | .stream env _ none _ => some env.newConversationId
  | _ => none

/-- The outcome of an exception before anything is sent or yielded. -/
def refusal (exc : Exn) : Outcome :=
  match r.action with
  | .chat .. => .chat (.error (.exception exc)) {}
  | .stream env .. => .stream (endpointEvents env 0 (.exception exc))

end Request

/-! ## What a request does -/

/-- The rest of a request keeps to the messages of a conversation. -/
def KeepsIn (conversationId : Int) (rest : ChatTables → Outcome × ChatTables) : Prop :=
  ∀ own, ∃ o added, (∀ message ∈ added, message.conversationId = conversationId) ∧
    ∀ t, rowsOf Message.conversationId conversationId t.messages = own →
      rest t = (o, { t with messages := t.messages ++ added })

theorem keepsIn_const (conversationId : Int) (o : Outcome) :
    KeepsIn conversationId fun t => (o, t) := by
  refine fun _ => ⟨o, [], by simp, fun t _ => ?_⟩
  rw [List.append_nil]

theorem keepsIn_chat {conversationId : Int} {p : Py ChatState ChatReply}
    (hp : ChatService.KeepsTo conversationId p) :
    KeepsIn conversationId fun t => chatOutcome (p.run (.of t.conversations t.messages {})) := by
  intro own
  obtain ⟨r, added, traffic, hadded, hrun⟩ := hp own {}
  refine ⟨.chat r traffic, added, hadded, fun t ht => ?_⟩
  dsimp only
  rw [hrun t.conversations t.messages ht]
  cases r <;> rfl

/-- The outcome of a response. -/
def streamOutcome (env : ChatStreamEnv) :
    EStateM.Result BaseExn ChatStreamState Unit → Outcome × ChatTables
  | .ok _ s => (.stream (Streaming.forward env.disconnected 0 s.stream.yielded),
      ⟨s.conversations, s.stream.rows⟩)
  | .error raised s => (.stream (Streaming.forward env.disconnected 0 s.stream.yielded ++
      endpointEvents env s.stream.yielded.length raised), ⟨s.conversations, s.stream.rows⟩)

theorem step_stream (env : ChatStreamEnv) (payload : StreamingChatRequest) (user : User)
    (organizationId : Int) (conversationId : Option Int) (t : ChatTables) :
    (let response := eventGenerator env payload user organizationId conversationId
      ⟨t.conversations, ⟨t.messages, [], []⟩⟩
    ((.stream response.1 : Outcome),
      (⟨response.2.conversations, response.2.stream.rows⟩ : ChatTables))) =
      streamOutcome env ((routeStream env payload user organizationId conversationId).run
        ⟨t.conversations, ⟨t.messages, [], []⟩⟩) := by
  unfold eventGenerator
  cases (routeStream env payload user organizationId conversationId).run
    ⟨t.conversations, ⟨t.messages, [], []⟩⟩ <;> rfl

theorem keepsIn_stream (env : ChatStreamEnv) {conversationId : Int}
    {p : Py Streaming.StreamState Unit} (hp : Streaming.KeepsTo conversationId p) :
    KeepsIn conversationId fun t =>
      streamOutcome env ((onStream p).run ⟨t.conversations, ⟨t.messages, [], []⟩⟩) := by
  intro own
  obtain ⟨r, added, rest, hadded, hrun⟩ := hp own ([], [])
  have hstream : ∀ t : ChatTables,
      rowsOf Message.conversationId conversationId t.messages = own →
      (onStream p).run ⟨t.conversations, ⟨t.messages, [], []⟩⟩ =
        ended ⟨t.conversations, ⟨t.messages ++ added, rest.1, rest.2⟩⟩ r := by
    intro t ht
    have hp : p.run ⟨t.messages, [], []⟩ = ended ⟨t.messages ++ added, rest.1, rest.2⟩ r :=
      hrun () t.messages ht
    rw [Streaming.onStream_run, hp]
    cases r <;> rfl
  cases r with
  | ok _ =>
      refine ⟨.stream (Streaming.forward env.disconnected 0 rest.2), added, hadded,
        fun t ht => ?_⟩
      dsimp only
      rw [hstream t ht]
      rfl
  | error raised =>
      refine ⟨.stream (Streaming.forward env.disconnected 0 rest.2 ++
        endpointEvents env rest.2.length raised), added, hadded, fun t ht => ?_⟩
      dsimp only
      rw [hstream t ht]
      rfl

/-- A request is turned away whatever the tables are, or it opens a conversation, or it goes on
    with one that it has to find. -/
inductive Shape (r : Request) : Prop where
  | away (o : Outcome) (h : ∀ t, r.step t = (o, t))
  | opens (conversation : Conversation) (rest : ChatTables → Outcome × ChatTables)
      (hid : r.opens = some conversation.id) (huser : conversation.userId = r.user.id)
      (hkeeps : KeepsIn conversation.id rest)
      (h : ∀ t, r.step t = rest { t with conversations := t.conversations ++ [conversation] })
  | continues (conversationId : Int) (rest : Conversation → ChatTables → Outcome × ChatTables)
      (hkeeps : ∀ conversation, conversation.id = conversationId →
        KeepsIn conversation.id (rest conversation))
      (h : ∀ t, r.step t =
        match validateConversation t.conversations conversationId r.user r.organizationId with
        | .error exc => (r.refusal exc, t)
        | .ok conversation => rest conversation t)

section Shape

variable {user : User} {memberships : List Int} {organizationId : Int}

/-- A turn in a conversation that is there, after the validation of its agent. -/
def turnIn (env : ChatEnv) (organizationId : Int)
    (turn : Conversation → Agent → Py ChatState ChatReply) (conversation : Conversation)
    (t : ChatTables) : Outcome × ChatTables :=
  match validateAgent env.agents conversation.agentId organizationId with
  | .error exc => (.chat (.error (.exception exc)) {}, t)
  | .ok agent => chatOutcome ((turn conversation agent).run (.of t.conversations t.messages {}))

theorem keepsIn_turnIn {env : ChatEnv} {turn : Conversation → Agent → Py ChatState ChatReply}
    {conversation : Conversation}
    (hturn : ∀ agent, ChatService.KeepsTo conversation.id (turn conversation agent)) :
    KeepsIn conversation.id (turnIn env organizationId turn conversation) := by
  unfold turnIn
  cases validateAgent env.agents conversation.agentId organizationId with
  | error exc => exact keepsIn_const _ _
  | ok agent => exact keepsIn_chat (hturn agent)

theorem chatOutcome_validateTurn (env : ChatEnv) (conversationId : Int)
    (turn : Conversation → Agent → Py ChatState ChatReply) (t : ChatTables) :
    chatOutcome ((validateTurn env conversationId user organizationId >>= fun found =>
        turn found.1 found.2).run (.of t.conversations t.messages {})) =
      match validateConversation t.conversations conversationId user organizationId with
      | .error exc => (.chat (.error (.exception exc)) {}, t)
      | .ok conversation => turnIn env organizationId turn conversation t := by
  rw [EStateM.run_bind, validateTurn_run]
  dsimp only [ChatState.of]
  cases validateConversation t.conversations conversationId user organizationId with
  | error exc => rfl
  | ok conversation =>
      unfold turnIn
      cases hagent : validateAgent env.agents conversation.agentId organizationId with
      | error exc =>
          simp only [bind, Except.bind, hagent]
          rfl
      | ok agent =>
          simp only [bind, Except.bind, hagent]
          rfl

/-- A turn for the last user message of these. -/
def replayOf (env : ChatEnv) (overrides : Overrides) (missing : String)
    (conversation : Conversation) (agent : Agent) : Option Message → Py ChatState ChatReply
  | none => Py.raise (.http 422 missing)
  | some message => Turn.run env (executeBatch env.tools)
      ⟨conversation, agent, message.content, overrides, false⟩

/-- A replay in a conversation that is there. -/
def replayIn (env : ChatEnv) (conversationId : Int) (overrides : Overrides) (missing : String)
    (conversation : Conversation) (agent : Agent) : Py ChatState ChatReply := do
  let s ← get
  replayOf env overrides missing conversation agent (getLastUserMessage s.messages conversationId)

theorem keepsTo_replayIn (env : ChatEnv) {conversation : Conversation} (agent : Agent)
    {conversationId : Int} (hid : conversation.id = conversationId) (overrides : Overrides)
    (missing : String) :
    ChatService.KeepsTo conversation.id
      (replayIn env conversationId overrides missing conversation agent) := by
  refine Local.getBind (g := fun own _ => replayOf env overrides missing conversation agent
    (own.reverse.find? fun message => message.role = "user")) ?_ ?_
  · intro conversations rows traffic
    have hlast : getLastUserMessage rows conversationId =
        (rowsOf Message.conversationId conversation.id rows).reverse.find?
          fun message => message.role = "user" := by
      unfold getLastUserMessage rowsOf
      rw [hid, ← List.filter_reverse, List.find?_filter]
      simp
    exact congrArg (replayOf env overrides missing conversation agent) hlast
  · intro own traffic
    cases own.reverse.find? (fun message => message.role = "user") with
    | none => exact Local.throw _
    | some message => exact local_turn ⟨conversation, agent, message.content, overrides, false⟩

/-- The turn for a new message. -/
def turnFor (payload : ChatBaseRequest) (conversation : Conversation) (agent : Agent) : Turn where
  conversation := conversation
  agent := agent
  userMessage := payload.message
  overrides := ⟨payload.provider, payload.model, payload.temperature, payload.topP,
    payload.maxTokens⟩
  persistUserMessage := true

/-- A call of the chat service, behind the check of the membership. -/
theorem shape_chat (env : ChatEnv) (call : ChatCall) (version : RunsOnV1 call.runtimeVersion)
    (hmember : assertOrgMembership user memberships organizationId = .ok ()) :
    Shape ⟨user, memberships, organizationId, .chat env call version⟩ := by
  have hstep : ∀ t, Request.step ⟨user, memberships, organizationId, .chat env call version⟩ t =
      chatOutcome ((call.run env (executeBatch env.tools) user organizationId).run
        (.of t.conversations t.messages {})) := by
    intro t
    unfold Request.step
    rw [hmember]
  have hturn : ∀ turn : Turn, ChatService.KeepsTo turn.conversation.id
      (turn.run env (executeBatch env.tools)) := fun turn => local_turn turn
  have hreplay : ∀ conversationId overrides missing,
      (∀ t, Request.step ⟨user, memberships, organizationId, .chat env call version⟩ t =
        chatOutcome ((replayTurn env (executeBatch env.tools) conversationId user organizationId
          overrides missing).run (.of t.conversations t.messages {}))) →
      Shape ⟨user, memberships, organizationId, .chat env call version⟩ := by
    intro conversationId overrides missing hstep
    refine .continues conversationId
      (turnIn env organizationId (replayIn env conversationId overrides missing))
      (fun conversation hid => keepsIn_turnIn fun agent =>
        keepsTo_replayIn env agent hid overrides missing) fun t => ?_
    rw [hstep]
    exact chatOutcome_validateTurn env conversationId
      (replayIn env conversationId overrides missing) t
  cases call with
  | createChat payload =>
      cases hagent : validateAgent env.agents payload.agentId organizationId with
      | error exc =>
          refine .away (.chat (.error (.exception exc)) {}) fun t => ?_
          rw [hstep, ChatCall.run, hagent]
          rfl
      | ok agent =>
          cases hcommit : env.conversationWrite.commit with
          | error exc =>
              refine .away (.chat (.error (.exception exc)) {}) fun t => ?_
              rw [hstep, ChatCall.run, hagent]
              simp only [createConversation, hcommit]
              rfl
          | ok _ =>
              cases hrefresh : env.conversationWrite.refresh with
              | error exc =>
                  refine .opens (newConversation env user organizationId agent payload)
                    (fun t => (.chat (.error (.exception exc)) {}, t)) rfl rfl
                    (keepsIn_const _ _) fun t => ?_
                  rw [hstep, ChatCall.run, hagent]
                  simp only [createConversation, hcommit, hrefresh]
                  rfl
              | ok _ =>
                  refine .opens (newConversation env user organizationId agent payload) _ rfl rfl
                    (keepsIn_chat (hturn (turnFor payload.toChatBaseRequest
                      (newConversation env user organizationId agent payload) agent))) fun t => ?_
                  rw [hstep, ChatCall.run, hagent]
                  simp only [createConversation, hcommit, hrefresh]
                  rfl
  | continueChat conversationId payload =>
      refine .continues conversationId (turnIn env organizationId fun conversation agent =>
          (turnFor payload.toChatBaseRequest conversation agent).run env (executeBatch env.tools))
        (fun conversation _ => keepsIn_turnIn fun agent =>
          hturn (turnFor payload.toChatBaseRequest conversation agent)) fun t => ?_
      rw [hstep, ChatCall.run]
      exact chatOutcome_validateTurn env conversationId (fun conversation agent =>
        (turnFor payload.toChatBaseRequest conversation agent).run env (executeBatch env.tools)) t
  | regenerateResponse conversationId payload => exact hreplay conversationId _ _ hstep
  | retryFailedMessage conversationId payload => exact hreplay conversationId _ _ hstep

/-- In the first runtime, a request for a stream goes to the streaming service. -/
theorem routeStream_eq (env : ChatStreamEnv) {payload : StreamingChatRequest} (user : User)
    (organizationId : Int) (version : RunsOnV1 payload.runtimeVersion)
    (conversationId : Option Int) :
    routeStream env payload user organizationId conversationId =
      match conversationId with
      | none => Streaming.streamNewChat env payload user organizationId
      | some conversationId =>
          Streaming.streamContinueChat env payload user organizationId conversationId := by
  unfold routeStream
  exact (if_neg version).trans rfl

theorem streamOutcome_raised (env : ChatStreamEnv) (raised : BaseExn) (t : ChatTables) :
    streamOutcome env (.error raised ⟨t.conversations, ⟨t.messages, [], []⟩⟩) =
      (.stream (endpointEvents env 0 raised), t) := rfl

theorem shape_streamNewChat (env : ChatStreamEnv) (payload : StreamingChatRequest) {r : Request}
    (hopens : r.opens = some env.newConversationId) (huser : r.user = user)
    (hstep : ∀ t, r.step t = streamOutcome env
      ((Streaming.streamNewChat env payload user organizationId).run
        ⟨t.conversations, ⟨t.messages, [], []⟩⟩)) : Shape r := by
  unfold Streaming.streamNewChat at hstep
  cases hagentId : payload.agentId with
  | none =>
      simp only [hagentId] at hstep
      exact .away _ fun t => (hstep t).trans (streamOutcome_raised env _ t)
  | some agentId =>
      simp only [hagentId] at hstep
      cases hagent : validateAgent env.agents agentId organizationId with
      | error exc =>
          simp only [hagent] at hstep
          exact .away _ fun t => (hstep t).trans (streamOutcome_raised env _ t)
      | ok agent =>
          simp only [hagent, Py.ofResult_ok_bind] at hstep
          let conversation : Conversation :=
            { id := env.newConversationId
              organizationId := organizationId
              agentId := agent.id
              userId := user.id
              title := String.ofList (payload.message.toList.take 100)
              runtimeVersion := payload.runtimeVersion }
          cases hcommit : env.conversationWrite.commit with
          | error exc =>
              simp only [Streaming.createConversation, hcommit] at hstep
              exact .away _ fun t => (hstep t).trans (streamOutcome_raised env (.exception exc) t)
          | ok _ =>
              cases hrefresh : env.conversationWrite.refresh with
              | error exc =>
                  simp only [Streaming.createConversation, hcommit, hrefresh] at hstep
                  exact .opens conversation _ hopens (congrArg User.id huser.symm)
                    (keepsIn_const _ _) fun t => (hstep t).trans
                      (streamOutcome_raised env (.exception exc)
                        { t with conversations := t.conversations ++ [conversation] })
              | ok _ =>
                  simp only [Streaming.createConversation, hcommit, hrefresh] at hstep
                  exact .opens conversation _ hopens (congrArg User.id huser.symm)
                    (keepsIn_stream env (Streaming.local_executeStream payload
                      conversation.toConversation agent.toAgent)) hstep

/-- A run of the streaming service in a conversation that is there. -/
def streamIn (env : ChatStreamEnv) (payload : StreamingChatRequest) (organizationId : Int)
    (conversation : Conversation) (t : ChatTables) : Outcome × ChatTables :=
  match validateAgent env.agents conversation.agentId organizationId with
  | .error exc => (.stream (endpointEvents env 0 (.exception exc)), t)
  | .ok agent => streamOutcome env ((onStream (Streaming.executeStream env.toStreamEnv payload
      conversation.toConversation agent.toAgent)).run ⟨t.conversations, ⟨t.messages, [], []⟩⟩)

theorem keepsIn_streamIn (env : ChatStreamEnv) (payload : StreamingChatRequest)
    (conversation : Conversation) :
    KeepsIn conversation.id (streamIn env payload organizationId conversation) := by
  unfold streamIn
  cases validateAgent env.agents conversation.agentId organizationId with
  | error exc => exact keepsIn_const _ _
  | ok agent => exact keepsIn_stream env (Streaming.local_executeStream payload
      conversation.toConversation agent.toAgent)

theorem streamOutcome_continue (env : ChatStreamEnv) (payload : StreamingChatRequest)
    (conversationId : Int) (t : ChatTables) :
    streamOutcome env ((Streaming.streamContinueChat env payload user organizationId
        conversationId).run ⟨t.conversations, ⟨t.messages, [], []⟩⟩) =
      match validateConversation t.conversations conversationId user organizationId with
      | .error exc => (.stream (endpointEvents env 0 (.exception exc)), t)
      | .ok conversation => streamIn env payload organizationId conversation t := by
  unfold Streaming.streamContinueChat
  rw [EStateM.run_bind, EStateM.run_get]
  dsimp only
  cases validateConversation t.conversations conversationId user organizationId with
  | error exc => rfl
  | ok conversation =>
      unfold streamIn
      simp only [Py.ofResult_ok_bind]
      cases hagent : validateAgent env.agents conversation.agentId organizationId with
      | error exc => rfl
      | ok agent => simp only [Py.ofResult_ok_bind]

/-- A request for a stream, behind the check of the membership. -/
theorem shape_stream (env : ChatStreamEnv) (payload : StreamingChatRequest)
    (conversationId : Option Int) (version : RunsOnV1 payload.runtimeVersion)
    (hmember : assertOrgMembership user memberships organizationId = .ok ()) :
    Shape ⟨user, memberships, organizationId, .stream env payload conversationId version⟩ := by
  have hstep : ∀ t, Request.step
      ⟨user, memberships, organizationId, .stream env payload conversationId version⟩ t =
      streamOutcome env ((routeStream env payload user organizationId conversationId).run
        ⟨t.conversations, ⟨t.messages, [], []⟩⟩) := by
    intro t
    unfold Request.step
    rw [hmember]
    exact step_stream env payload user organizationId conversationId t
  have hroute := routeStream_eq env user organizationId version conversationId
  cases conversationId with
  | none =>
      dsimp only at hroute
      exact shape_streamNewChat env payload rfl rfl fun t => (hstep t).trans (by rw [hroute])
  | some conversationId =>
      dsimp only at hroute
      refine .continues conversationId (streamIn env payload organizationId)
        (fun conversation _ => keepsIn_streamIn env payload conversation) fun t => ?_
      rw [hstep, hroute]
      exact streamOutcome_continue env payload conversationId t

/-- **Every request** has one of the three shapes. -/
theorem shape (r : Request) : Shape r := by
  obtain ⟨user, memberships, organizationId, action⟩ := r
  cases hmember : assertOrgMembership user memberships organizationId with
  | error exc =>
      refine .away (.turnedAway exc) fun t => ?_
      unfold Request.step
      rw [hmember]
  | ok _ =>
      cases action with
      | chat env call version => exact shape_chat env call version hmember
      | stream env payload conversationId version =>
          exact shape_stream env payload conversationId version hmember

end Shape

/-! ## What a user has -/

namespace ChatTables

def ids (t : ChatTables) : List Int :=
  t.conversations.map fun c => c.id

/-- The id is that of a conversation of the user. -/
def owns (t : ChatTables) (userId conversationId : Int) : Bool :=
  t.conversations.any fun c => c.userId = userId ∧ c.id = conversationId

/-- The conversations of a user, with their messages. -/
def of (t : ChatTables) (userId : Int) : ChatTables where
  conversations := t.conversations.filter fun c => c.userId = userId
  messages := t.messages.filter fun message => t.owns userId message.conversationId

/-- No two conversations have one id, and every message is in a conversation. -/
structure Consistent (t : ChatTables) : Prop where
  nodup : t.ids.Nodup
  filed : ∀ message ∈ t.messages, message.conversationId ∈ t.ids

def said (t : ChatTables) (added : List Message) : ChatTables :=
  { t with messages := t.messages ++ added }

def opened (t : ChatTables) (conversation : Conversation) : ChatTables :=
  { t with conversations := t.conversations ++ [conversation] }

variable {t : ChatTables} {userId : Int} {conversation : Conversation} {added : List Message}

theorem owns_iff {conversationId : Int} : t.owns userId conversationId = true ↔
    ∃ c ∈ t.conversations, c.userId = userId ∧ c.id = conversationId := by
  simp [owns]

theorem owns_of_mem (hmem : conversation ∈ t.conversations) (huser : conversation.userId = userId) :
    t.owns userId conversation.id = true :=
  owns_iff.mpr ⟨conversation, hmem, huser, rfl⟩

/-- Two conversations with one id are one. -/
theorem Consistent.unique (h : t.Consistent) {c c' : Conversation} (hc : c ∈ t.conversations)
    (hc' : c' ∈ t.conversations) (hid : c.id = c'.id) : c = c' :=
  List.inj_on_of_nodup_map h.nodup hc hc' hid

theorem Consistent.not_owns (h : t.Consistent) (hmem : conversation ∈ t.conversations)
    (huser : conversation.userId ≠ userId) : t.owns userId conversation.id = false := by
  refine Bool.eq_false_iff.mpr fun howns => ?_
  obtain ⟨c, hc, huser', hid⟩ := owns_iff.mp howns
  exact huser (h.unique hc hmem hid ▸ huser')

/-! Messages are added to a conversation. -/

theorem Consistent.said (h : t.Consistent) (hmem : conversation ∈ t.conversations)
    (hadded : ∀ message ∈ added, message.conversationId = conversation.id) :
    (t.said added).Consistent where
  nodup := h.nodup
  filed := by
    intro message hmessage
    rcases List.mem_append.mp hmessage with hold | hnew
    · exact h.filed message hold
    · rw [hadded message hnew]
      exact List.mem_map_of_mem hmem

theorem of_said (howns : t.owns userId conversation.id = true)
    (hadded : ∀ message ∈ added, message.conversationId = conversation.id) :
    (t.said added).of userId = (t.of userId).said added := by
  have hall : added.filter (fun message => t.owns userId message.conversationId) = added :=
    List.filter_eq_self.mpr fun message hmessage => by rw [hadded message hmessage, howns]
  show ChatTables.mk _ ((t.messages ++ added).filter _) = ChatTables.mk _ _
  rw [List.filter_append]
  exact congrArg (fun rows => ChatTables.mk _ (_ ++ rows)) hall

theorem of_said_of_not_owns (howns : t.owns userId conversation.id = false)
    (hadded : ∀ message ∈ added, message.conversationId = conversation.id) :
    (t.said added).of userId = t.of userId := by
  have hnone : added.filter (fun message => t.owns userId message.conversationId) = [] :=
    List.filter_eq_nil_iff.mpr fun message hmessage => by rw [hadded message hmessage, howns]; simp
  show ChatTables.mk _ ((t.messages ++ added).filter _) = ChatTables.mk _ _
  rw [List.filter_append]
  refine congrArg (ChatTables.mk _) ?_
  exact (congrArg _ hnone).trans (List.append_nil _)

/-! A conversation is opened. -/

theorem ids_opened : (t.opened conversation).ids = t.ids ++ [conversation.id] :=
  List.map_append

theorem Consistent.opened (h : t.Consistent)
    (hfresh : conversation.id ∉ t.ids) :
    (t.opened conversation).Consistent where
  nodup := by
    rw [ids_opened]
    refine List.nodup_append.mpr ⟨h.nodup, List.nodup_singleton _, fun id hid id' hid' => ?_⟩
    rintro rfl
    exact hfresh (List.mem_singleton.mp hid' ▸ hid)
  filed := by
    intro message hmessage
    rw [ids_opened]
    exact List.mem_append_left _ (h.filed message hmessage)

theorem owns_opened (conversationId : Int) : (t.opened conversation).owns userId conversationId =
    (t.owns userId conversationId ||
      (decide (conversation.userId = userId) && decide (conversation.id = conversationId))) := by
  simp [owns, ChatTables.opened]

/-- No message is in a conversation that is not there. -/
theorem Consistent.messages_opened (h : t.Consistent)
    (hfresh : conversation.id ∉ t.ids) :
    t.messages.filter (fun message => (t.opened conversation).owns userId message.conversationId) =
      t.messages.filter fun message => t.owns userId message.conversationId := by
  refine List.filter_congr fun message hmessage => ?_
  have hne : conversation.id ≠ message.conversationId := fun heq =>
    hfresh (heq ▸ h.filed message hmessage)
  rw [owns_opened]
  simp [hne]

theorem of_opened (h : t.Consistent)
    (hfresh : conversation.id ∉ t.ids)
    (huser : conversation.userId = userId) :
    (t.opened conversation).of userId = (t.of userId).opened conversation := by
  show ChatTables.mk ((t.conversations ++ [conversation]).filter _) (t.messages.filter _) =
    ChatTables.mk _ _
  rw [h.messages_opened hfresh, List.filter_append]
  simp [huser, of]

theorem of_opened_of_ne (h : t.Consistent)
    (hfresh : conversation.id ∉ t.ids)
    (huser : conversation.userId ≠ userId) :
    (t.opened conversation).of userId = t.of userId := by
  show ChatTables.mk ((t.conversations ++ [conversation]).filter _) (t.messages.filter _) =
    ChatTables.mk _ _
  rw [h.messages_opened hfresh, List.filter_append]
  simp [huser]

/-- What a user has of a conversation of theirs is all of it. -/
theorem rowsOf_of {conversationId : Int} (h : ∀ message ∈ t.messages,
    message.conversationId = conversationId → t.owns userId conversationId = true) :
    rowsOf Message.conversationId conversationId (t.of userId).messages =
      rowsOf Message.conversationId conversationId t.messages := by
  unfold rowsOf of
  rw [List.filter_filter]
  refine List.filter_congr fun message hmessage => ?_
  by_cases hid : message.conversationId = conversationId
  · simp [hid, h message hmessage hid]
  · simp [hid]

end ChatTables

/-! ## One request -/

section Step

variable {t : ChatTables} {r : Request}

/-- A conversation that is found is found among those of the user as well, and every other one is
    refused. -/
theorem validateConversation_of {user : User} (hplain : user.isSuperuser = false)
    (h : t.Consistent) (conversationId organizationId : Int) :
    (∃ conversation ∈ t.conversations, conversation.userId = user.id ∧
      conversation.id = conversationId ∧
      validateConversation t.conversations conversationId user organizationId =
        .ok conversation ∧
      validateConversation (t.of user.id).conversations conversationId user organizationId =
        .ok conversation) ∨
    (∃ exc, exc ∈ [.http 404 "Conversation not found.",
        .http 403 "You do not have access to this conversation."] ∧
      validateConversation t.conversations conversationId user organizationId = .error exc ∧
      validateConversation (t.of user.id).conversations conversationId user organizationId =
        .error (.http 404 "Conversation not found.")) := by
  let isAsked := fun conversation : Conversation =>
    decide (conversation.id = conversationId ∧ conversation.organizationId = organizationId)
  let isTheirs := fun conversation : Conversation => decide (conversation.userId = user.id)
  have hmissing : ∀ {conversations : List Conversation}, conversations.find? isAsked = none →
      validateConversation conversations conversationId user organizationId =
        .error (.http 404 "Conversation not found.") := by
    intro conversations hfind
    unfold validateConversation
    rw [hfind]
  have hthere : ∀ {conversations : List Conversation} {conversation : Conversation},
      conversations.find? isAsked = some conversation →
      validateConversation conversations conversationId user organizationId =
        if conversation.userId ≠ user.id then
          .error (.http 403 "You do not have access to this conversation.")
        else .ok conversation := by
    intro conversations conversation hfind
    unfold validateConversation
    rw [hfind]
    simp [hplain]
  have hview : (t.of user.id).conversations.find? isAsked = t.conversations.find? fun c =>
      isTheirs c ∧ isAsked c :=
    List.find?_filter
  cases hfind : t.conversations.find? isAsked with
  | none =>
      have hnone : t.conversations.find? (fun c => isTheirs c ∧ isAsked c) = none := by
        refine List.find?_eq_none.mpr fun c hmem hboth => ?_
        exact List.find?_eq_none.mp hfind c hmem (of_decide_eq_true hboth).2
      exact .inr ⟨_, by simp, hmissing hfind, hmissing (hview.trans hnone)⟩
  | some conversation =>
      have hasked := List.find?_some hfind
      have hmem := List.mem_of_find?_eq_some hfind
      by_cases huser : conversation.userId = user.id
      · obtain ⟨_, before, after, hsplit, hbefore⟩ := List.find?_eq_some_iff_append.mp hfind
        have hfirst : t.conversations.find? (fun c => isTheirs c ∧ isAsked c) =
            some conversation := by
          refine List.find?_eq_some_iff_append.mpr
            ⟨decide_eq_true ⟨decide_eq_true huser, hasked⟩, before, after, hsplit, ?_⟩
          intro other hother
          have hnot : isAsked other = false := by simpa using hbefore other hother
          simp [hnot]
        rw [hthere hfind, hthere (hview.trans hfirst), if_neg (not_not_intro huser)]
        exact .inl ⟨conversation, hmem, huser, (of_decide_eq_true hasked).1, rfl, rfl⟩
      · have hnone : t.conversations.find? (fun c => isTheirs c ∧ isAsked c) = none := by
          refine List.find?_eq_none.mpr fun other hother hboth => ?_
          obtain ⟨hown, hother'⟩ := of_decide_eq_true hboth
          have hid := (of_decide_eq_true hother').1.trans (of_decide_eq_true hasked).1.symm
          exact huser (h.unique hother hmem hid ▸ of_decide_eq_true hown)
        rw [hthere hfind, hmissing (hview.trans hnone), if_pos huser]
        exact .inr ⟨_, by simp, rfl, rfl⟩

/-- What a request writes. -/
inductive Effect (r : Request) (t t' : ChatTables) : Prop where
  | nothing (h : t' = t)
  | opened (conversation : Conversation) (added : List Message)
      (hid : r.opens = some conversation.id) (huser : conversation.userId = r.user.id)
      (hadded : ∀ message ∈ added, message.conversationId = conversation.id)
      (h : t' = (t.opened conversation).said added)
  | continued (conversation : Conversation) (added : List Message)
      (hmem : conversation ∈ t.conversations) (huser : conversation.userId = r.user.id)
      (hadded : ∀ message ∈ added, message.conversationId = conversation.id)
      (h : t' = t.said added)

/-- A request writes to one conversation of its user, if it writes. -/
theorem step_effect (hplain : r.user.isSuperuser = false) (h : t.Consistent) :
    Effect r t (r.step t).2 := by
  cases shape r with
  | away o hstep => exact .nothing (by rw [hstep])
  | opens conversation rest hid huser hkeeps hstep =>
      obtain ⟨o, added, hadded, hrest⟩ := hkeeps
        (rowsOf Message.conversationId conversation.id (t.opened conversation).messages)
      exact .opened conversation added hid huser hadded
        (congrArg Prod.snd ((hstep t).trans (hrest (t.opened conversation) rfl)))
  | continues conversationId rest hkeeps hstep =>
      rcases validateConversation_of hplain h conversationId r.organizationId with
        ⟨conversation, hmem, huser, hid, hfound, _⟩ | ⟨exc, _, hrefused, _⟩
      · obtain ⟨o, added, hadded, hrest⟩ := hkeeps conversation hid
          (rowsOf Message.conversationId conversation.id t.messages)
        refine .continued conversation added hmem huser hadded ?_
        rw [hstep, hfound]
        exact congrArg Prod.snd (hrest t rfl)
      · exact .nothing (by rw [hstep, hrefused])

/-- The same answer, up to how a conversation that is not theirs is refused. -/
def SameAnswer (r : Request) (o o' : Outcome) : Prop :=
  o = o' ∨ (o = r.refusal (.http 403 "You do not have access to this conversation.") ∧
    o' = r.refusal (.http 404 "Conversation not found."))

/-- A request needs nothing but what its user has. -/
theorem step_of (hplain : r.user.isSuperuser = false) (h : t.Consistent)
    (hfresh : ∀ id, r.opens = some id → id ∉ t.ids) :
    SameAnswer r (r.step t).1 (r.step (t.of r.user.id)).1 ∧
      (r.step (t.of r.user.id)).2 = (r.step t).2.of r.user.id := by
  cases shape r with
  | away o hstep =>
      rw [hstep, hstep]
      exact ⟨.inl rfl, rfl⟩
  | opens conversation rest hid huser hkeeps hstep =>
      have hunused := hfresh _ hid
      have hrows : rowsOf Message.conversationId conversation.id (t.of r.user.id).messages =
          rowsOf Message.conversationId conversation.id t.messages := by
        refine ChatTables.rowsOf_of fun message hmessage heq => ?_
        exact absurd (heq ▸ h.filed message hmessage) hunused
      obtain ⟨o, added, hadded, hrest⟩ := hkeeps
        (rowsOf Message.conversationId conversation.id t.messages)
      have hall : r.step t = (o, (t.opened conversation).said added) :=
        (hstep t).trans (hrest (t.opened conversation) rfl)
      have halone : r.step (t.of r.user.id) =
          (o, ((t.of r.user.id).opened conversation).said added) :=
        (hstep _).trans (hrest ((t.of r.user.id).opened conversation) hrows)
      have howns : (t.opened conversation).owns r.user.id conversation.id = true :=
        ChatTables.owns_of_mem (List.mem_append_right _ (List.mem_singleton_self _)) huser
      rw [hall, halone]
      refine ⟨.inl rfl, ?_⟩
      dsimp only
      rw [ChatTables.of_said howns hadded, ChatTables.of_opened h hunused huser]
  | continues conversationId rest hkeeps hstep =>
      rcases validateConversation_of hplain h conversationId r.organizationId with
        ⟨conversation, hmem, huser, hid, hfound, hfound'⟩ | ⟨exc, hexc, hrefused, hrefused'⟩
      · have howns : t.owns r.user.id conversation.id = true := ChatTables.owns_of_mem hmem huser
        obtain ⟨o, added, hadded, hrest⟩ := hkeeps conversation hid
          (rowsOf Message.conversationId conversation.id t.messages)
        have hall : r.step t = (o, t.said added) := by
          rw [hstep, hfound]
          exact hrest t rfl
        have halone : r.step (t.of r.user.id) = (o, (t.of r.user.id).said added) := by
          rw [hstep, hfound']
          exact hrest (t.of r.user.id) (ChatTables.rowsOf_of fun _ _ _ => howns)
        rw [hall, halone]
        exact ⟨.inl rfl, (ChatTables.of_said howns hadded).symm⟩
      · rw [hstep, hstep, hrefused, hrefused']
        refine ⟨?_, rfl⟩
        rcases List.mem_pair.mp hexc with rfl | rfl
        · exact .inl rfl
        · exact .inr ⟨rfl, rfl⟩

end Step

/-! ## Histories -/

/-- What holds of the tables when these requests are still to come: nobody is a superuser, and no
    id is given to two conversations. -/
structure Ready (requests : List Request) (t : ChatTables) : Prop where
  consistent : t.Consistent
  plain : ∀ r ∈ requests, r.user.isSuperuser = false
  nodup : (requests.filterMap Request.opens).Nodup
  fresh : ∀ id ∈ requests.filterMap Request.opens, id ∉ t.ids

section Histories

variable {t : ChatTables} {r : Request} {requests : List Request} {userId : Int}

theorem Ready.fresh_head (h : Ready (r :: requests) t) {id : Int} (hid : r.opens = some id) :
    id ∉ t.ids :=
  h.fresh id (by rw [List.filterMap_cons_some hid]; exact List.mem_cons_self)

theorem Ready.step (h : Ready (r :: requests) t) : Ready requests (r.step t).2 := by
  have hplain := h.plain r List.mem_cons_self
  have hsub : (requests.filterMap Request.opens).Sublist
      ((r :: requests).filterMap Request.opens) :=
    (List.sublist_cons_self r requests).filterMap _
  have hrest : ∀ id ∈ requests.filterMap Request.opens, id ∉ t.ids := fun id hid =>
    h.fresh id (hsub.subset hid)
  have hready : (r.step t).2.Consistent ∧
      ∀ id ∈ requests.filterMap Request.opens, id ∉ (r.step t).2.ids := by
    cases step_effect hplain h.consistent with
    | nothing heq =>
        rw [heq]
        exact ⟨h.consistent, hrest⟩
    | opened conversation added hid huser hadded heq =>
        have hopened := h.consistent.opened (h.fresh_head hid)
        rw [heq]
        refine ⟨hopened.said (List.mem_append_right _ (List.mem_singleton_self _)) hadded,
          fun id hlater hmem => ?_⟩
        have hnodup := h.nodup
        rw [List.filterMap_cons_some hid] at hnodup
        have hmem : id ∈ t.ids ++ [conversation.id] := ChatTables.ids_opened ▸ hmem
        rcases List.mem_append.mp hmem with hold | hnew
        · exact hrest id hlater hold
        · exact (List.nodup_cons.mp hnodup).1 (List.mem_singleton.mp hnew ▸ hlater)
    | continued conversation added hmem huser hadded heq =>
        rw [heq]
        exact ⟨h.consistent.said hmem hadded, hrest⟩
  exact
    { consistent := hready.1
      plain := fun other hother => h.plain other (List.mem_cons_of_mem r hother)
      nodup := h.nodup.sublist hsub
      fresh := hready.2 }

/-- What a user has is left alone by the requests of others. -/
theorem step_of_ne (h : Ready (r :: requests) t) (hne : r.user.id ≠ userId) :
    (r.step t).2.of userId = t.of userId := by
  cases step_effect (h.plain r List.mem_cons_self) h.consistent with
  | nothing heq => rw [heq]
  | opened conversation added hid huser hadded heq =>
      have hfresh := h.fresh_head hid
      have hopened := h.consistent.opened hfresh
      have hmem : conversation ∈ (t.opened conversation).conversations :=
        List.mem_append_right _ (List.mem_singleton_self _)
      rw [heq, ChatTables.of_said_of_not_owns (hopened.not_owns hmem (huser ▸ hne)) hadded,
        ChatTables.of_opened_of_ne h.consistent hfresh (huser ▸ hne)]
  | continued conversation added hmem huser hadded heq =>
      rw [heq, ChatTables.of_said_of_not_owns (h.consistent.not_owns hmem (huser ▸ hne)) hadded]

theorem unwinding (userId : Int) : Unwinding Request.step (fun r => decide (r.user.id = userId))
    Ready (fun all alone => alone = all.of userId) SameAnswer where
  keeps _ _ _ h := h.step
  own := by
    rintro r requests all alone h hmine rfl
    obtain rfl := of_decide_eq_true hmine
    exact step_of (h.plain r List.mem_cons_self) h.consistent fun _ => h.fresh_head
  other := by
    rintro r requests all alone h hmine rfl
    exact (step_of_ne h (of_decide_eq_false hmine)).symm

/-- Somebody opens a conversation, and somebody else asks to go on with it. -/
def askedByAnother : List Request :=
  [⟨⟨9, true, false⟩, [1], 1,
      .chat quietChat (.createChat { agentId := 1, message := "Hi" }) (by decide)⟩,
    ⟨⟨7, true, false⟩, [1], 1,
      .chat quietChat (.continueChat 2 { message := "Hi" }) (by decide)⟩]

example : (Request.step ⟨⟨7, true, false⟩, [1], 1,
      .chat quietChat (.continueChat 1 { message := "Hi" }) (by decide)⟩
        ⟨[quietConversation], []⟩).1 =
    .chat (.error (.exception (.http 403 "You do not have access to this conversation.")))
      {} := rfl

end Histories

end AgentCorp.Conversations
