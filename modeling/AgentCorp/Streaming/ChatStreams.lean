/-
  A chat stream from the endpoint to the page.

  `stream_chat` and `stream_continue_chat` hand on the events of `StreamingService` until the
  client is gone, and turn what it raises into a last event. The page reads the text of these
  events up to the point where the connection ends or breaks; that it breaks is an error of its
  own, which may come after the end that the page was told of.

  * `chatStream_ending`: what a request leaves, whichever endpoint and runtime it takes.
  * `ends_once`: the response tells the page of one end at most.
  * `done_means_stored`: what a page that is told of the end knows about the stored answer.
  * `told_iff`: exactly when a page that reads everything is told of it.
-/
import AgentCorp.Chat.ChatService
import AgentCorp.Streaming.StreamConnection
import AgentCorp.Streaming.StreamRuns

namespace AgentCorp.Streaming

open AgentCorp.Python AgentCorp.Chat LineReader
open AgentCorp.Runtime (StreamingChatRequest User)
open AgentCorp.ChatService (validateAgent validateConversation)

/-! ## The endpoints -/

/-- What a request meets. `admission` is what `V2Runtime.execute_stream` goes through before the
    first event, and `disconnected` the answer of `is_disconnected` before the `n`-th one. -/
structure ChatStreamEnv extends StreamEnv where
  agents : List ChatService.Agent
  conversationWrite : WriteOutcome
  newConversationId : Int
  admission : Except BaseExn Unit
  disconnected : Nat → Bool
  /-- The loop over the events is left at such an event, and the generator closed. -/
  breaks : ∀ n, disconnected n → closes n

structure ChatStreamState where
  conversations : List ChatService.Conversation
  stream : StreamState

/-- A run of `_execute_stream`. -/
def onStream (p : Py StreamState Unit) : Py ChatStreamState Unit := fun s =>
  match p.run s.stream with
  | .ok a stream => .ok a { s with stream := stream }
  | .error raised stream => .error raised { s with stream := stream }

/-- `_assert_org_membership`. -/
def assertOrgMembership (user : User) (memberships : List Int) (organizationId : Int) :
    Except Exn Unit :=
  if user.isSuperuser ∨ organizationId ∈ memberships then .ok ()
  else .error (.http 403 "You are not a member of the specified organisation.")

section Endpoint

variable (env : ChatStreamEnv) (payload : StreamingChatRequest) (user : User)
  (organizationId : Int)

/-- `ConversationRepository.create`. -/
def createConversation (conversation : ChatService.Conversation) :
    Py ChatStreamState ChatService.Conversation := do
  Py.ofResult env.conversationWrite.commit
  modify fun s => { s with conversations := s.conversations ++ [conversation] }
  Py.ofResult env.conversationWrite.refresh
  return conversation

/-- `StreamingService.stream_new_chat`. -/
def streamNewChat : Py ChatStreamState Unit :=
  match payload.agentId with
  | none => Py.raise
      (.http 422 "agent_id is required when creating a new conversation stream.")
  | some agentId => do
      let agent ← Py.ofResult (validateAgent env.agents agentId organizationId)
      let conversation ← createConversation env
        { id := env.newConversationId
          organizationId := organizationId
          agentId := agent.id
          userId := user.id
          title := String.ofList (payload.message.toList.take 100)
          runtimeVersion := payload.runtimeVersion }
      onStream (executeStream env.toStreamEnv payload conversation.toConversation agent.toAgent)

/-- `StreamingService.stream_continue_chat`. -/
def streamContinueChat (conversationId : Int) : Py ChatStreamState Unit := do
  let s ← get
  let conversation ← Py.ofResult
    (validateConversation s.conversations conversationId user organizationId)
  let agent ← Py.ofResult (validateAgent env.agents conversation.agentId organizationId)
  onStream (executeStream env.toStreamEnv payload conversation.toConversation agent.toAgent)

/-- `RuntimeRouter.execute_stream`: both runtimes end in `V1Runtime.execute_stream`. -/
def routeStream (conversationId : Option Int) : Py ChatStreamState Unit := do
  if payload.runtimeVersion = "AgentCorp V2" then Proc.ofExcept env.admission
  match conversationId with
  | none => streamNewChat env payload user organizationId
  | some conversationId => streamContinueChat env payload user organizationId conversationId

/-- The loop of `event_generator` from the `n`-th event on. -/
def forward (disconnected : Nat → Bool) : Nat → List StreamEvent → List StreamEvent
  | _, [] => []
  | n, event :: rest => if disconnected n then [] else event :: forward disconnected (n + 1) rest

/-- Its handlers. -/
def endpointEvents (n : Nat) : BaseExn → List StreamEvent
  | .exception (.http statusCode detail) => [.error detail s!"http_{statusCode}" (env.now n)]
  | .exception _ => [.error "An unexpected error occurred." "internal_error" (env.now n)]
  | _ => []

/-- `event_generator`: the events of the response, and what the request leaves. -/
def eventGenerator (conversationId : Option Int) (s : ChatStreamState) :
    List StreamEvent × ChatStreamState :=
  match (routeStream env payload user organizationId conversationId).run s with
  | .ok () t => (forward env.disconnected 0 t.stream.yielded, t)
  | .error raised t =>
      (forward env.disconnected 0 t.stream.yielded ++
        endpointEvents env t.stream.yielded.length raised, t)

/-- `stream_chat` and `stream_continue_chat`. -/
def streamChat (memberships : List Int) (conversationId : Option Int) (s : ChatStreamState) :
    Except Exn (List StreamEvent × ChatStreamState) := do
  assertOrgMembership user memberships organizationId
  return eventGenerator env payload user organizationId conversationId s

end Endpoint

/-! ## Every request -/

section Request

variable {env : ChatStreamEnv} {payload : StreamingChatRequest} {user : User}
  {organizationId : Int}

theorem onStream_run (p : Py StreamState Unit) (s : ChatStreamState) :
    (onStream p).run s =
      match p.run s.stream with
      | .ok a stream => .ok a { s with stream := stream }
      | .error raised stream => .error raised { s with stream := stream } := rfl

/-- How a request ends: nothing was streamed, or a run of `_execute_stream` is over. -/
def Ends (env : ChatStreamEnv) (payload : StreamingChatRequest) (rows : List Message)
    (result : EStateM.Result BaseExn ChatStreamState Unit) : Prop :=
  (∃ raised t, result = .error raised t ∧ t.stream = ⟨rows, [], []⟩) ∨
    ∃ conversation agent conversations,
      result = (onStream (executeStream env.toStreamEnv payload conversation agent)).run
        ⟨conversations, ⟨rows, [], []⟩⟩

theorem ends_of_raised {rows : List Message} (raised : BaseExn)
    (conversations : List ChatService.Conversation) :
    Ends env payload rows (.error raised ⟨conversations, ⟨rows, [], []⟩⟩) :=
  .inl ⟨raised, _, rfl, rfl⟩

theorem ends_of_stream {rows : List Message} (conversation : Conversation) (agent : Agent)
    (conversations : List ChatService.Conversation) :
    Ends env payload rows
      ((onStream (executeStream env.toStreamEnv payload conversation agent)).run
        ⟨conversations, ⟨rows, [], []⟩⟩) :=
  .inr ⟨conversation, agent, conversations, rfl⟩

theorem streamNewChat_ends (conversations : List ChatService.Conversation)
    (rows : List Message) :
    Ends env payload rows
      ((streamNewChat env payload user organizationId).run ⟨conversations, ⟨rows, [], []⟩⟩) := by
  unfold streamNewChat
  cases payload.agentId with
  | none => exact ends_of_raised _ _
  | some agentId =>
      dsimp only
      cases validateAgent env.agents agentId organizationId with
      | error exc => exact ends_of_raised _ _
      | ok agent =>
          cases hcommit : env.conversationWrite.commit with
          | error exc =>
              simp only [createConversation, hcommit]
              exact ends_of_raised _ _
          | ok _ =>
              cases hrefresh : env.conversationWrite.refresh with
              | error exc =>
                  simp only [createConversation, hcommit, hrefresh]
                  exact ends_of_raised _ _
              | ok _ =>
                  simp only [createConversation, hcommit, hrefresh]
                  exact ends_of_stream _ _ _

theorem streamContinueChat_ends (conversationId : Int)
    (conversations : List ChatService.Conversation) (rows : List Message) :
    Ends env payload rows
      ((streamContinueChat env payload user organizationId conversationId).run
        ⟨conversations, ⟨rows, [], []⟩⟩) := by
  unfold streamContinueChat
  rw [EStateM.run_bind, EStateM.run_get]
  dsimp only
  cases validateConversation conversations conversationId user organizationId with
  | error exc => exact ends_of_raised _ _
  | ok conversation =>
      cases hagent : validateAgent env.agents conversation.agentId organizationId with
      | error exc =>
          simp only [Py.ofResult_ok_bind, hagent]
          exact ends_of_raised _ _
      | ok agent =>
          simp only [Py.ofResult_ok_bind, hagent]
          exact ends_of_stream _ _ _

/-- **Every request.** -/
theorem routeStream_ends (conversationId : Option Int)
    (conversations : List ChatService.Conversation) (rows : List Message) :
    Ends env payload rows
      ((routeStream env payload user organizationId conversationId).run
        ⟨conversations, ⟨rows, [], []⟩⟩) := by
  have hroute : Ends env payload rows
      ((match conversationId with
        | none => streamNewChat env payload user organizationId
        | some conversationId =>
            streamContinueChat env payload user organizationId conversationId).run
        ⟨conversations, ⟨rows, [], []⟩⟩) := by
    cases conversationId with
    | none => exact streamNewChat_ends conversations rows
    | some conversationId => exact streamContinueChat_ends conversationId conversations rows
  unfold routeStream
  by_cases hversion : payload.runtimeVersion = "AgentCorp V2"
  · simp only [hversion, if_true]
    cases env.admission with
    | error raised => exact ends_of_raised _ _
    | ok _ => exact hroute
  · simp only [hversion, if_false]
    exact hroute

end Request

/-! ## The response -/

/-- What the handlers of a run leave to the endpoint: no event but tokens was yielded. -/
theorem handleFailure_raises {env : StreamEnv} {raised : BaseExn} {exc : Exn} {s t : StreamState}
    (h : (handleFailure env raised).run s = .error (.exception exc) t) :
    (∃ exc, raised = .exception exc) ∧ t.yielded = s.yielded := by
  cases raised with
  | exception raised =>
      refine ⟨⟨raised, rfl⟩, ?_⟩
      cases raised with
      | http statusCode detail =>
          obtain ⟨-, rfl⟩ := EStateM.Result.error.inj h
          rfl
      | _ =>
          simp only [handleFailure, EStateM.run_bind, count_run, yieldEvent_run] at h
          split at h <;> simp at h
  | cancelledError => cases h
  | generatorExit => cases h

theorem finishStream_raises {env : StreamEnv} {conversation : Conversation} {l : StreamLocals}
    {exc : Exn} {s t : StreamState}
    (h : (finishStream env conversation l).run s = .error (.exception exc) t) :
    t.yielded = s.yielded := by
  unfold finishStream at h
  rw [EStateM.run_bind, onRows_create_run] at h
  cases hresult : env.assistantWrite.result with
  | error exc' =>
      rw [hresult] at h
      obtain ⟨-, rfl⟩ := EStateM.Result.error.inj h
      rfl
  | ok _ =>
      rw [hresult] at h
      simp only [EStateM.run_bind, count_run, yieldEvent_run] at h
      split at h <;> simp at h

theorem streamSteps_raises {env : StreamEnv} {payload : StreamingChatRequest}
    {conversation : Conversation} {agent : Agent} {exc : Exn} {s t : StreamState}
    (hnone : s.yielded = [])
    (h : (streamSteps env payload conversation agent).run s = .error (.exception exc) t) :
    ∀ event ∈ t.yielded, event.tokenText.isSome := by
  obtain ⟨added, -, hprepare⟩ := prepareRequest_run env payload conversation agent s
  unfold streamSteps at h
  rw [EStateM.run_bind] at h
  cases hprepared : prepared env payload conversation agent s.rows with
  | error raised =>
      simp only [hprepared] at hprepare
      rw [hprepare] at h
      obtain ⟨-, rfl⟩ := EStateM.Result.error.inj h
      simp [hnone]
  | ok request =>
      simp only [hprepared] at hprepare
      rw [hprepare.2] at h
      dsimp only at h
      rw [EStateM.run_bind] at h
      have hinterrupted : ∀ raised u, (consumeStream env (.start payload agent)
          (env.streamChat request payload.provider)).run { s with rows := s.rows ++ added } =
            .error raised u → False := by
        intro raised u hstream
        rw [receiveTokens_interrupted hstream] at h
        rcases handleInterrupt_ends env raised u with ⟨v, hrun⟩ | ⟨raised', v, hno, hrun⟩
        · rw [hrun] at h
          cases h
        · rw [hrun] at h
          exact hno exc (EStateM.Result.error.inj h).1
      obtain ⟨events, hevents, ⟨-, hstream⟩ | ⟨-, -, hstream⟩⟩ := consumeStream_run env
        (.start payload agent) (env.streamChat request payload.provider)
        { s with rows := s.rows ++ added }
      · exact (hinterrupted _ _ hstream).elim
      · cases hending : (env.streamChat request payload.provider).ending with
        | error raised =>
            rw [hending] at hstream
            exact (hinterrupted _ _ hstream).elim
        | ok _ =>
            rw [hending] at hstream
            rw [receiveTokens_exhausted hstream] at h
            rw [finishStream_raises h, hnone]
            exact hevents

theorem executeStream_raises {env : StreamEnv} {payload : StreamingChatRequest}
    {conversation : Conversation} {agent : Agent} {rows : List Message} {exc : Exn}
    {t : StreamState}
    (h : (executeStream env payload conversation agent).run ⟨rows, [], []⟩ =
      .error (.exception exc) t) :
    ∀ event ∈ t.yielded, event.tokenText.isSome := by
  unfold executeStream at h
  rw [EStateM.run_bind, count_run] at h
  dsimp only at h
  rw [Proc.run_tryCatch] at h
  cases hsteps : (streamSteps env payload conversation agent).run ⟨rows, [.increment], []⟩ with
  | ok a u =>
      rw [List.nil_append, hsteps] at h
      cases h
  | error raised u =>
      rw [List.nil_append, hsteps] at h
      obtain ⟨⟨exc', rfl⟩, hyielded⟩ := handleFailure_raises h
      rw [hyielded]
      exact streamSteps_raises rfl hsteps

/-- Token events, then at most one other event. -/
def TokensThenEnd (events : List StreamEvent) : Prop :=
  ∃ before last, events = before ++ last ∧ (∀ event ∈ before, event.tokenText.isSome) ∧
    (∀ event ∈ last, event.tokenText = none) ∧ last.length ≤ 1

theorem TokensThenEnd.of_prefix {events events' : List StreamEvent} (h : TokensThenEnd events)
    (hbefore : events' <+: events) : TokensThenEnd events' := by
  obtain ⟨before, last, rfl, htokens, hnone, hone⟩ := h
  obtain ⟨rest, hrest⟩ := hbefore
  rcases List.append_eq_append_iff.mp hrest with ⟨more, rfl, -⟩ | ⟨last', rfl, rfl⟩
  · exact ⟨events', [], (List.append_nil _).symm,
      fun event hin => htokens event (List.mem_append_left more hin),
      fun event hin => absurd hin List.not_mem_nil, Nat.zero_le 1⟩
  · refine ⟨before, last', rfl, htokens,
      fun event hin => hnone event (List.mem_append_left rest hin), ?_⟩
    rw [List.length_append] at hone
    omega

theorem tokensThenEnd_of_ending {env : StreamEnv} {payload : StreamingChatRequest}
    {conversation : Conversation} {agent : Agent} {rows : List Message} {s : StreamState}
    (h : Ending env payload conversation agent rows s) : TokensThenEnd s.yielded := by
  cases h with
  | unprepared raised =>
      obtain ⟨hone, herrors⟩ := failureEvents_tail env 0 raised
      exact ⟨[], _, rfl, by simp, (errors_tail herrors).1, hone⟩
  | interrupted request raised events hprepared hraised hevents =>
      obtain ⟨hone, herrors⟩ := interruptEvents_tail env events.length raised
      exact ⟨events, _, rfl, hevents, (errors_tail herrors).1, hone⟩
  | unsaved request exc events l hl hprepared hopen hending hwrite hevents =>
      obtain ⟨hone, herrors⟩ := failureEvents_tail env events.length (.exception exc)
      exact ⟨events, _, rfl, hevents, (errors_tail herrors).1, hone⟩
  | completed request events l hl hprepared hopen hending hwrite hevents =>
      exact ⟨events, _, rfl, hevents, by simp [StreamEvent.tokenText], le_rfl⟩

/-- A run that stored the answer and yielded all of its tokens and the done event. -/
structure Completed (env : StreamEnv) (payload : StreamingChatRequest) (rows : List Message)
    (s : StreamState) (events : List StreamEvent) (done : StreamEvent) (answer : Message) :
    Prop where
  stored : s.rows = rows ++ [userMessage answer.conversationId payload.message, answer]
  role : answer.role = "assistant"
  written : env.assistantWrite.result = .ok ()
  yielded : s.yielded = events ++ [done]
  tokens : ∀ event ∈ events, ∃ text, event.tokenText = some text ∧ text ≠ ""
  content : answer.content = String.join (events.filterMap StreamEvent.tokenText)
  done_eq : ∃ finishReason usage latency,
    done = .done finishReason usage latency events.length
  /-- The consumer closed it at none of the tokens. -/
  opened : ∀ k < events.length, ¬ env.closes k

theorem completed_of_ending {env : StreamEnv} {payload : StreamingChatRequest}
    {conversation : Conversation} {agent : Agent} {rows : List Message} {s : StreamState}
    (h : Ending env payload conversation agent rows s)
    (hsaved : (∃ finishReason usage latency tokensSent,
        .done finishReason usage latency tokensSent ∈ s.yielded) ∨
      ((∃ message ∈ s.rows.drop rows.length, message.role = "assistant") ∧
        env.assistantWrite.refresh = .ok ())) :
    ∃ events done answer, Completed env payload rows s events done answer := by
  have hunanswered : ∀ (added : List Message) (ops : List CounterOp)
      (events tail : List StreamEvent),
      s = ⟨rows ++ added, ops, events ++ tail⟩ → added.filter (·.role = "assistant") = [] →
      (∀ event ∈ events, event.tokenText.isSome) →
      (∀ event ∈ tail, ∃ text code now, event = .error text code now) → False := by
    rintro added ops events tail rfl hfilter hevents herrors
    rcases hsaved with ⟨finishReason, usage, latency, tokensSent, hdone⟩ |
      ⟨⟨message, hmessage, hrole⟩, -⟩
    · rcases List.mem_append.mp hdone with hin | hin
      · exact absurd (hevents _ hin) (by simp [StreamEvent.tokenText])
      · exact (errors_tail herrors).2 _ _ _ _ hin
    · rw [List.drop_left] at hmessage
      have hin : message ∈ added.filter (·.role = "assistant") :=
        List.mem_filter.mpr ⟨hmessage, by simpa using hrole⟩
      rw [hfilter] at hin
      exact absurd hin List.not_mem_nil
  cases h with
  | unprepared raised added hprepared hadded =>
      refine (hunanswered added _ [] _ rfl ?_ (by simp) (failureEvents_tail env 0 raised).2).elim
      refine List.filter_eq_nil_iff.mpr fun message hmessage => ?_
      rw [hadded message hmessage]
      simp [userMessage]
  | interrupted request raised events hprepared hraised hevents =>
      exact (hunanswered _ _ events _ rfl (filter_userMessage conversation _ []) hevents
        (interruptEvents_tail env events.length raised).2).elim
  | unsaved request exc events l hl hprepared hopen hending hwrite hevents htokens =>
      cases hcommit : env.assistantWrite.commit with
      | error exc' =>
          have hstored : env.assistantWrite.stored = false := by
            unfold WriteOutcome.stored
            rw [hcommit]
            rfl
          refine (hunanswered _ _ events _ rfl ?_ hevents
            (failureEvents_tail env events.length (.exception exc)).2).elim
          rw [hstored]
          exact filter_userMessage conversation _ []
      | ok _ =>
          -- The row is there, and the refresh raised.
          rcases hsaved with ⟨finishReason, usage, latency, tokensSent, hdone⟩ | ⟨-, hrefresh⟩
          · rcases List.mem_append.mp hdone with hin | hin
            · exact absurd (hevents _ hin) (by simp [StreamEvent.tokenText])
            · exact absurd hin ((errors_tail
                (failureEvents_tail env events.length (.exception exc)).2).2 _ _ _ _)
          · unfold WriteOutcome.result at hwrite
            rw [hcommit, hrefresh] at hwrite
            cases hwrite
  | completed request events l hl hprepared hopen hending hwrite hevents htokens =>
      obtain ⟨hcollected, hsent⟩ := finalLocals_collected env payload agent request
      have hlength :
          events.length = (tokens (providerStream env payload request).chunks).length := by
        rw [← htokens]
        exact (List.filterMap_length_eq_length.mpr hevents).symm
      refine ⟨events, _, assistantMessage conversation l, rfl, rfl, hwrite, rfl, ?_, ?_, ?_, ?_⟩
      · intro event hevent
        obtain ⟨text, htext⟩ := Option.isSome_iff_exists.mp (hevents event hevent)
        refine ⟨text, htext, ?_⟩
        have hmem : text ∈ tokens (providerStream env payload request).chunks :=
          htokens ▸ List.mem_filterMap.mpr ⟨event, hevent, htext⟩
        simpa [tokens] using (List.mem_filter.mp hmem).2
      · rw [htokens, ← hcollected, ← hl]
        rfl
      · exact ⟨_, _, _, by rw [hl, hsent, hlength]⟩
      · intro k hk hcloses
        refine hopen ⟨k, hlength ▸ hk, ?_⟩
        rwa [Nat.zero_add]

theorem forward_initial (disconnected : Nat → Bool) (n : Nat) (events : List StreamEvent) :
    forward disconnected n events <+: events := by
  induction events generalizing n with
  | nil => exact List.prefix_rfl
  | cons event rest ih =>
      unfold forward
      split
      · exact List.nil_prefix
      · exact (List.prefix_cons_inj event).mpr (ih (n + 1))

theorem forward_append {disconnected : Nat → Bool} {n : Nat} {before : List StreamEvent}
    (h : ∀ k < before.length, ¬ disconnected (n + k)) (rest : List StreamEvent) :
    forward disconnected n (before ++ rest) =
      before ++ forward disconnected (n + before.length) rest := by
  induction before generalizing n with
  | nil => rfl
  | cons event before ih =>
      have hfirst : ¬ disconnected n := h 0 (Nat.zero_lt_succ _)
      have hlater : ∀ k < before.length, ¬ disconnected (n + 1 + k) := by
        intro k hk
        rw [show n + 1 + k = n + (k + 1) by omega]
        exact h (k + 1) (Nat.succ_lt_succ hk)
      rw [List.cons_append, forward, if_neg hfirst, ih hlater, List.length_cons,
        show n + 1 + before.length = n + (before.length + 1) by omega, List.cons_append]

/-- The events of a response, and what the request leaves. -/
structure Responds (env : ChatStreamEnv) (payload : StreamingChatRequest) (rows : List Message)
    (body : List StreamEvent) (t : ChatStreamState) : Prop where
  shape : TokensThenEnd body
  forwarded : ∃ last, body = forward env.disconnected 0 t.stream.yielded ++ last ∧
    ∀ event ∈ last, ∃ text code now, event = .error text code now
  ending : t.stream = ⟨rows, [], []⟩ ∨
    ∃ conversation agent, Ending env.toStreamEnv payload conversation agent rows t.stream

theorem endpointEvents_tail (env : ChatStreamEnv) (n : Nat) (raised : BaseExn) :
    (endpointEvents env n raised).length ≤ 1 ∧
      (∀ event ∈ endpointEvents env n raised, ∃ text code now, event = .error text code now) ∧
      (endpointEvents env n raised ≠ [] → ∃ exc, raised = .exception exc) := by
  cases raised with
  | exception exc => cases exc <;> simp [endpointEvents]
  | cancelledError => simp [endpointEvents]
  | generatorExit => simp [endpointEvents]

/-- **Every response.** -/
theorem chatStream_ending {env : ChatStreamEnv} {payload : StreamingChatRequest} {user : User}
    {organizationId : Int} {memberships : List Int} {conversationId : Option Int}
    {conversations : List ChatService.Conversation} {rows : List Message}
    {body : List StreamEvent} {t : ChatStreamState}
    (h : streamChat env payload user organizationId memberships conversationId
      ⟨conversations, ⟨rows, [], []⟩⟩ = .ok (body, t)) : Responds env payload rows body t := by
  obtain ⟨-, -, h⟩ := Proc.bind_ok h
  have hresponse := Except.ok.inj h
  unfold eventGenerator at hresponse
  have hends : Ends env payload rows
      ((routeStream env payload user organizationId conversationId).run
        ⟨conversations, ⟨rows, [], []⟩⟩) := routeStream_ends conversationId conversations rows
  rcases hends with
    ⟨raised, u, hrun, hstream⟩ | ⟨conversation, agent, conversations', hrun⟩
  · -- Nothing was streamed, and what was raised is all that is sent.
    rw [hrun] at hresponse
    obtain ⟨rfl, rfl⟩ := Prod.mk.inj hresponse
    obtain ⟨hone, herrors, -⟩ := endpointEvents_tail env u.stream.yielded.length raised
    refine ⟨?_, ⟨_, rfl, herrors⟩, .inl hstream⟩
    rw [hstream] at hone herrors ⊢
    exact ⟨[], _, rfl, by simp, (errors_tail herrors).1, hone⟩
  · have hending := executeStream_ending env.toStreamEnv payload conversation agent rows
    have hshape := tokensThenEnd_of_ending hending
    unfold Proc.after at hending hshape
    rw [hrun, onStream_run] at hresponse
    cases hexecute : (executeStream env.toStreamEnv payload conversation agent).run
        ⟨rows, [], []⟩ with
    | ok a stream =>
        rw [hexecute] at hresponse hending hshape
        obtain ⟨rfl, rfl⟩ := Prod.mk.inj hresponse
        exact ⟨hshape.of_prefix (forward_initial _ 0 _), ⟨[], (List.append_nil _).symm, by simp⟩,
          .inr ⟨conversation, agent, hending⟩⟩
    | error raised stream =>
        rw [hexecute] at hresponse hending hshape
        obtain ⟨rfl, rfl⟩ := Prod.mk.inj hresponse
        dsimp only at hending hshape ⊢
        obtain ⟨hone, herrors, hraised⟩ := endpointEvents_tail env stream.yielded.length raised
        refine ⟨?_, ⟨_, rfl, herrors⟩, .inr ⟨conversation, agent, hending⟩⟩
        by_cases hnil : endpointEvents env stream.yielded.length raised = []
        · rw [hnil, List.append_nil]
          exact hshape.of_prefix (forward_initial _ 0 _)
        · obtain ⟨exc, rfl⟩ := hraised hnil
          have htokens := executeStream_raises hexecute
          exact ⟨_, _, rfl,
            fun event hevent => htokens event ((forward_initial _ 0 _).subset hevent),
            (errors_tail herrors).1, hone⟩

/-! ## The page -/

namespace HandlerCall

/-- The text that a call adds to the page. -/
def tokenText : HandlerCall → Option String
  | onToken (.str text) _ _ => some text
  | _ => none

end HandlerCall

/-- The text on the page after some calls. -/
def shown (calls : List HandlerCall) : String :=
  String.join (calls.filterMap HandlerCall.tokenText)

/-- Each event leads to one call, with its text. -/
theorem received_tokenText (event : StreamEvent) :
    ∃ call, received event = [call] ∧ call.tokenText = event.tokenText := by
  unfold received
  cases event with
  | token text index provider model now =>
      refine ⟨_, callHandler_token _, ?_⟩
      by_cases htext : text = "" <;>
        simp [StreamEvent.payload, List.lookup_cons, jsOr_str, htext, HandlerCall.tokenText,
          StreamEvent.tokenText]
  | done finishReason usage latency tokensSent => exact ⟨_, callHandler_done _, rfl⟩
  | error text code now => exact ⟨_, callHandler_error _, rfl⟩

theorem delivered_append (reset : ℕ → Bool) (i : ℕ) (before rest : List StreamEvent) :
    delivered reset i (before ++ rest) =
      delivered reset i before ++ delivered reset (i + 3 * before.length) rest := by
  induction before generalizing i with
  | nil => rfl
  | cons event before ih =>
      rw [List.cons_append, delivered, delivered, ih, List.append_assoc, List.length_cons,
        show i + 3 + 3 * before.length = i + 3 * (before.length + 1) by omega]

theorem mem_delivered {reset : ℕ → Bool} {i : ℕ} {events : List StreamEvent} {call : HandlerCall}
    (h : call ∈ delivered reset i events) : ∃ event ∈ events, call ∈ received event := by
  induction events generalizing i with
  | nil => exact absurd h List.not_mem_nil
  | cons event rest ih =>
      unfold delivered at h
      rcases List.mem_append.mp h with hin | hin
      · refine ⟨event, List.mem_cons_self, ?_⟩
        split at hin
        · exact absurd hin List.not_mem_nil
        · exact hin
      · obtain ⟨event', hmem, hcall⟩ := ih hin
        exact ⟨event', List.mem_cons_of_mem _ hmem, hcall⟩

theorem tokenText_of_delivered {reset : ℕ → Bool} {i : ℕ} {events : List StreamEvent}
    {call : HandlerCall} (h : call ∈ delivered reset i events) :
    ∃ event ∈ events, call.tokenText = event.tokenText := by
  obtain ⟨event, hevent, hreceived⟩ := mem_delivered h
  obtain ⟨call', hcall', htext⟩ := received_tokenText event
  rw [hcall'] at hreceived
  exact ⟨event, hevent, by rw [List.mem_singleton.mp hreceived, htext]⟩

theorem shown_append (before rest : List HandlerCall) :
    shown (before ++ rest) = shown before ++ shown rest := by
  unfold shown
  rw [List.filterMap_append, String.join_append]

theorem shown_received (event : StreamEvent) :
    shown (received event) = event.tokenText.getD "" := by
  obtain ⟨call, hcall, htext⟩ := received_tokenText event
  unfold shown
  rw [hcall, List.filterMap_cons, htext]
  cases event.tokenText <;> simp

/-- What is thrown adds no text. -/
theorem shown_connect_streamed (parse : List Char → Option (Dict JsonValue)) (statusText : String)
    (body : ResponseBody) :
    shown (StreamConnection.connect parse (.ok ⟨true, statusText, some body⟩)) =
      shown (connect parse body.reads) := by
  rw [StreamConnection.connect_streamed, shown_append]
  rcases StreamConnection.caught_eq body.thrown with hnone | ⟨message, hone⟩
  · rw [hnone]
    exact String.append_empty
  · rw [hone]
    exact String.append_empty

/-- What is thrown is not done. -/
theorem done_of_connect_streamed {parse : List Char → Option (Dict JsonValue)}
    {statusText : String} {body : ResponseBody} {data : Dict JsonValue}
    (h : .onDone data ∈ StreamConnection.connect parse (.ok ⟨true, statusText, some body⟩)) :
    .onDone data ∈ connect parse body.reads := by
  rw [StreamConnection.connect_streamed] at h
  refine (List.mem_append.mp h).resolve_right fun hcaught => ?_
  rcases StreamConnection.caught_eq body.thrown with hnone | ⟨message, hone⟩
  · rw [hnone] at hcaught
    cases hcaught
  · rw [hone, List.mem_singleton] at hcaught
    cases hcaught

/-- Where nothing is lost, the text of the events is shown. -/
theorem length_shown_le (reset : ℕ → Bool) (i : ℕ) (events : List StreamEvent) :
    (shown (delivered reset i events)).length ≤
      (String.join (events.filterMap StreamEvent.tokenText)).length := by
  induction events generalizing i with
  | nil => exact le_rfl
  | cons event rest ih =>
      have hrest := ih (i + 3)
      have htext : String.join ((event :: rest).filterMap StreamEvent.tokenText) =
          event.tokenText.getD "" ++ String.join (rest.filterMap StreamEvent.tokenText) := by
        rw [List.filterMap_cons]
        cases event.tokenText <;> simp
      rw [delivered, shown_append, htext, String.length_append, String.length_append]
      split
      · have hnil : (shown []).length = 0 := rfl
        omega
      · rw [shown_received]
        omega

/-- The text of tokens is shown exactly if none of them is lost. -/
theorem shown_delivered_iff {reset : ℕ → Bool} {i : ℕ} {events : List StreamEvent}
    (htokens : ∀ event ∈ events, ∃ text, event.tokenText = some text ∧ text ≠ "") :
    shown (delivered reset i events) = String.join (events.filterMap StreamEvent.tokenText) ↔
      ∀ k < events.length, ¬ reset (i + 3 * k + 1) := by
  induction events generalizing i with
  | nil => simp [delivered, shown]
  | cons event rest ih =>
      obtain ⟨text, htext, hne⟩ := htokens event List.mem_cons_self
      have hrest := ih (i := i + 3) fun event' h => htokens event' (List.mem_cons_of_mem _ h)
      have hsplit : (∀ k < (event :: rest).length, ¬ reset (i + 3 * k + 1)) ↔
          ¬ reset (i + 1) ∧ ∀ k < rest.length, ¬ reset (i + 3 + 3 * k + 1) := by
        rw [List.length_cons, Nat.forall_lt_succ_left']
        refine and_congr_right fun _ => forall_congr' fun k => ?_
        rw [show i + 3 * (k + 1) + 1 = i + 3 + 3 * k + 1 by omega]
      rw [hsplit, delivered, shown_append, List.filterMap_cons, htext, String.join_cons]
      by_cases hreset : reset (i + 1)
      · -- The text is too short by this token.
        refine iff_of_false (fun heq => ?_) fun h => h.1 hreset
        have hlength := congrArg String.length heq
        have hle := length_shown_le reset (i + 3) rest
        have hpos : 0 < text.length :=
          Nat.pos_of_ne_zero fun hzero => hne (String.length_eq_zero_iff.mp hzero)
        rw [if_pos hreset, String.length_append, String.length_append] at hlength
        have hnil : (shown []).length = 0 := rfl
        omega
      · rw [if_neg hreset, shown_received, htext, Option.getD_some, String.append_right_inj,
          hrest]
        exact (and_iff_right hreset).symm

/-- Reading the beginning of a text hands on the beginning of its events. -/
theorem handleReset_take {parse : List Char → Option (Dict JsonValue)} {F : FloatRepr}
    (reset : ℕ → Bool) {events : List StreamEvent} (i m : ℕ) (currentEvent : List Char)
    (hparse : ∀ event ∈ events, parse (dumps F event.payload) = some event.payload) :
    ∃ k, handleReset (handleLine parse) [] reset i currentEvent
        ((lines '\n' (streamText F events)).take m) = delivered reset i (events.take k) := by
  induction events generalizing i m currentEvent with
  | nil =>
      refine ⟨0, ?_⟩
      have hlines : lines '\n' (streamText F []) = [] := lines_of_not_mem List.not_mem_nil
      rw [hlines, List.take_nil]
      rfl
  | cons event rest ih =>
      have hevent := hparse event List.mem_cons_self
      have hrest : ∀ event ∈ rest, parse (dumps F event.payload) = some event.payload :=
        fun event h => hparse event (List.mem_cons_of_mem _ h)
      have htext : streamText F (event :: rest) = event.format F ++ streamText F rest := rfl
      have hcall : callHandler (if reset (i + 1) then [] else event.name.toList) event.payload =
          if reset (i + 1) then [] else received event := by
        split
        · exact callHandler_nil _
        · rfl
      rw [htext, lines_format]
      match m with
      | 0 => exact ⟨0, rfl⟩
      | 1 =>
          refine ⟨0, ?_⟩
          simp only [List.take_succ_cons, List.take_zero, handleReset, handleLine_eventLine,
            List.nil_append, delivered]
      | 2 =>
          refine ⟨1, ?_⟩
          simp only [List.take_succ_cons, List.take_zero, handleReset, handleLine_eventLine,
            handleLine_dataLine hevent, hcall, List.nil_append, delivered]
      | m + 3 =>
          obtain ⟨k, hk⟩ := ih (i + 3) m
            (if reset (i + 2) then []
              else if reset (i + 1) then [] else event.name.toList) hrest
          refine ⟨k + 1, ?_⟩
          simp only [List.take_succ_cons, handleReset, handleLine_eventLine, hcall,
            handleLine_dataLine hevent, handleLine_nil, List.nil_append, delivered]
          rw [hk]

/-- What a page has been handed where its connection broke. -/
theorem connect_prefix {parse : List Char → Option (Dict JsonValue)} {F : FloatRepr}
    {events : List StreamEvent} {reads : List (List Char)}
    (hreads : reads.flatten <+: streamText F events)
    (hparse : ∀ event ∈ events, parse (dumps F event.payload) = some event.payload) :
    ∃ k, connect parse reads = delivered (cutAt '\n' 0 reads) 0 (events.take k) := by
  obtain ⟨rest, hrest⟩ := hreads
  have hlines : lines '\n' reads.flatten =
      (lines '\n' (streamText F events)).take (lines '\n' reads.flatten).length := by
    rw [← hrest, lines_append, List.take_left]
  unfold connect
  rw [feed_eq 0 reads List.not_mem_nil, List.nil_append, hlines]
  exact handleReset_take _ 0 _ [] hparse

theorem shown_delivered_nil {reset : ℕ → Bool} {i : ℕ} {events : List StreamEvent}
    (hnone : ∀ event ∈ events, event.tokenText = none) : shown (delivered reset i events) = "" := by
  have hle := length_shown_le reset i events
  rw [List.filterMap_eq_nil_iff.mpr hnone] at hle
  exact String.length_eq_zero_iff.mp (Nat.le_zero.mp hle)

theorem done_of_received {event : StreamEvent} {data : Dict JsonValue}
    (h : .onDone data ∈ received event) :
    ∃ finishReason usage latency tokensSent,
      event = .done finishReason usage latency tokensSent ∧ data = event.payload := by
  unfold received at h
  cases event with
  | token text index provider model now =>
      have hin : HandlerCall.onDone data ∈ callHandler "token".toList _ := h
      rw [callHandler_token] at hin
      exact absurd (List.mem_singleton.mp hin) (by simp)
  | done finishReason usage latency tokensSent =>
      have hin : HandlerCall.onDone data ∈ callHandler "done".toList _ := h
      rw [callHandler_done] at hin
      exact ⟨_, _, _, _, rfl, HandlerCall.onDone.inj (List.mem_singleton.mp hin)⟩
  | error text code now =>
      have hin : HandlerCall.onDone data ∈ callHandler "error".toList _ := h
      rw [callHandler_error] at hin
      exact absurd (List.mem_singleton.mp hin) (by simp)

theorem received_done (finishReason : String) (usage : Option (Dict Int)) (latency : Rat)
    (tokensSent : Int) :
    received (.done finishReason usage latency tokensSent) =
      [.onDone (StreamEvent.done finishReason usage latency tokensSent).payload] :=
  callHandler_done _

/-- One agent, no services, and a provider that answers with one token. -/
def helloEnv : ChatStreamEnv where
  L := Lower.asciiOnly
  collaborators := ⟨none, none, none, none⟩
  readHistory := .ok ()
  userWrite := .succeeds
  assistantWrite := .succeeds
  streamChat := fun _ _ => ⟨[{ token := "Hello", model := "llama3" }], .ok ()⟩
  closes := fun _ => false
  now := fun _ => ⟨0, "1970-01-01T00:00:00+00:00"⟩
  elapsed := 0
  agents := [{ sampleAgent with organizationId := 1, isActive := true }]
  conversationWrite := .succeeds
  newConversationId := 7
  admission := .ok ()
  disconnected := fun _ => false
  breaks := nofun

def helloRequest : StreamingChatRequest where
  agentId := some 1
  message := "Hi"
  provider := some "groq"

def helloResponse : List StreamEvent × ChatStreamState :=
  eventGenerator helloEnv helloRequest ⟨1, true, false⟩ 1 none ⟨[], ⟨[], [], []⟩⟩

theorem helloResponse_eq :
    streamChat helloEnv helloRequest ⟨1, true, false⟩ 1 [1] none ⟨[], ⟨[], [], []⟩⟩ =
      .ok (helloResponse.1, helloResponse.2) := rfl

theorem parse_helloResponse : ∀ event ∈ helloResponse.1,
    parseEvents zeroRepr helloResponse.1 (dumps zeroRepr event.payload) = some event.payload := by
  decide +kernel

/-- The token's event line is a read of its own. -/
def helloResponseReads : List (List Char) :=
  [(streamText zeroRepr helloResponse.1).take 13, (streamText zeroRepr helloResponse.1).drop 13]

theorem flatten_helloResponseReads :
    helloResponseReads.flatten = streamText zeroRepr helloResponse.1 := by
  simp only [helloResponseReads, List.flatten_cons, List.flatten_nil, List.append_nil,
    List.take_append_drop]

theorem done_helloResponse : .onDone (StreamEvent.done "stop" none 0 1).payload ∈
    connect (parseEvents zeroRepr helloResponse.1) helloResponseReads := by
  decide +kernel

/-! ## What the page is told -/

section Told

variable {env : ChatStreamEnv} {payload : StreamingChatRequest} {rows : List Message}
  {body : List StreamEvent} {t : ChatStreamState}

/-- The response to a request that completes: its tokens, and the done event if the client is
    still there. -/
theorem Responds.completed (h : Responds env payload rows body t) {events : List StreamEvent}
    {done : StreamEvent} {answer : Message}
    (hcompleted : Completed env.toStreamEnv payload rows t.stream events done answer) :
    ∃ last, body = events ++ ((if env.disconnected events.length then [] else [done]) ++ last) ∧
      ∀ event ∈ last, ∃ text code now, event = .error text code now := by
  obtain ⟨last, hbody, herrors⟩ := h.forwarded
  have hopened : ∀ k < events.length, ¬ env.disconnected (0 + k) := by
    intro k hk hgone
    rw [Nat.zero_add] at hgone
    exact hcompleted.opened k hk (env.breaks k hgone)
  refine ⟨last, ?_, herrors⟩
  rw [hbody, hcompleted.yielded, forward_append hopened, Nat.zero_add, List.append_assoc]
  rfl

theorem Completed.yieldedTokens_eq {env : StreamEnv} {s : StreamState}
    {events : List StreamEvent} {done : StreamEvent} {answer : Message}
    (h : Completed env payload rows s events done answer) :
    yieldedTokens s = events.filterMap StreamEvent.tokenText := by
  obtain ⟨_, _, _, hdone⟩ := h.done_eq
  have hnone : done.tokenText = none := by
    rw [hdone]
    rfl
  show s.yielded.filterMap StreamEvent.tokenText = _
  rw [h.yielded, List.filterMap_append, List.filterMap_cons, hnone, List.filterMap_nil,
    List.append_nil]

theorem Completed.length_yieldedTokens {env : StreamEnv} {s : StreamState}
    {events : List StreamEvent} {done : StreamEvent} {answer : Message}
    (h : Completed env payload rows s events done answer) :
    (yieldedTokens s).length = events.length := by
  rw [h.yieldedTokens_eq]
  refine List.filterMap_length_eq_length.mpr fun event hevent => ?_
  obtain ⟨text, htext, -⟩ := h.tokens event hevent
  rw [htext]
  rfl

/-- A done event in the response is that of a request that completes. -/
theorem Responds.of_done (h : Responds env payload rows body t) {finishReason : String}
    {usage : Option (Dict Int)} {latency : Rat} {tokensSent : Int}
    (hdone : .done finishReason usage latency tokensSent ∈ body) :
    ∃ events answer, Completed env.toStreamEnv payload rows t.stream events
        (.done finishReason usage latency tokensSent) answer ∧
      ¬ env.disconnected events.length := by
  obtain ⟨last, hbody, herrors⟩ := h.forwarded
  have hyielded : .done finishReason usage latency tokensSent ∈ t.stream.yielded := by
    rw [hbody] at hdone
    rcases List.mem_append.mp hdone with hin | hin
    · exact (forward_initial _ 0 _).subset hin
    · exact absurd hin ((errors_tail herrors).2 _ _ _ _)
  rcases h.ending with hnone | ⟨conversation, agent, hending⟩
  · rw [hnone] at hyielded
    exact absurd hyielded List.not_mem_nil
  · obtain ⟨events, done, answer, hcompleted⟩ :=
      completed_of_ending hending (.inl ⟨_, _, _, _, hyielded⟩)
    have hnot : ∀ event ∈ events, event ≠ .done finishReason usage latency tokensSent := by
      rintro event hevent rfl
      obtain ⟨text, htext, -⟩ := hcompleted.tokens _ hevent
      cases htext
    obtain rfl : .done finishReason usage latency tokensSent = done := by
      rw [hcompleted.yielded] at hyielded
      rcases List.mem_append.mp hyielded with hin | hin
      · exact absurd rfl (hnot _ hin)
      · exact List.mem_singleton.mp hin
    refine ⟨events, answer, hcompleted, fun hgone => ?_⟩
    obtain ⟨last', hbody', herrors'⟩ := h.completed hcompleted
    rw [hbody', if_pos hgone, List.nil_append] at hdone
    rcases List.mem_append.mp hdone with hin | hin
    · exact hnot _ hin rfl
    · exact (errors_tail herrors').2 _ _ _ _ hin

variable {user : User} {organizationId : Int} {memberships : List Int}
  {conversationId : Option Int} {conversations : List ChatService.Conversation}

/-- What the `fetch` of a page comes to where the endpoint would answer so: it is rejected, the
    response is refused or cannot be read, or the beginning of the response is read. -/
inductive Fetches (F : FloatRepr) (answer : Except Exn (List StreamEvent × ChatStreamState)) :
    Except ThrownError FetchResponse → Prop
  | rejected (thrown : ThrownError) : Fetches F answer (.error thrown)
  | refused (statusText : String) (responseBody : Option ResponseBody) :
      Fetches F answer (.ok ⟨false, statusText, responseBody⟩)
  | unreadable (statusText : String) : Fetches F answer (.ok ⟨true, statusText, none⟩)
  | streamed {body : List StreamEvent} {t : ChatStreamState} (h : answer = .ok (body, t))
      (statusText : String) {reads : List (List Char)}
      (hreads : reads.flatten <+: streamText F body) (thrown : Option ThrownError) :
      Fetches F answer (.ok ⟨true, statusText, some ⟨reads, thrown⟩⟩)

/-- **One end.** The handlers are called for tokens, then at most once for the end of the response,
    and then for what is thrown, if the connection is not made or breaks. -/
theorem ends_once {parse : List Char → Option (Dict JsonValue)} {F : FloatRepr}
    {fetched : Except ThrownError FetchResponse}
    (h : Fetches F (streamChat env payload user organizationId memberships conversationId
      ⟨conversations, ⟨rows, [], []⟩⟩) fetched)
    (hparse : ∀ body t, streamChat env payload user organizationId memberships conversationId
        ⟨conversations, ⟨rows, [], []⟩⟩ = .ok (body, t) →
      ∀ event ∈ body, parse (dumps F event.payload) = some event.payload) :
    ∃ tokens ending,
      StreamConnection.connect parse fetched =
        tokens ++ ending ++ StreamConnection.caught (StreamConnection.thrown fetched) ∧
      (∀ call ∈ tokens, call.tokenText.isSome) ∧ (∀ call ∈ ending, call.tokenText = none) ∧
      ending.length ≤ 1 := by
  rw [StreamConnection.connect_eq]
  cases h with
  | rejected thrown => exact ⟨[], [], rfl, by simp, by simp, Nat.zero_le 1⟩
  | refused statusText responseBody => exact ⟨[], [], rfl, by simp, by simp, Nat.zero_le 1⟩
  | unreadable statusText => exact ⟨[], [], rfl, by simp, by simp, Nat.zero_le 1⟩
  | @streamed body t hanswer statusText reads hreads thrown =>
      obtain ⟨k, hconnect⟩ := connect_prefix hreads (hparse body t hanswer)
      obtain ⟨before, last, htake, htokens, hnone, hone⟩ :=
        (chatStream_ending hanswer).shape.of_prefix (List.take_prefix k body)
      have hcalls : (StreamConnection.attempt parse
          (.ok ⟨true, statusText, some ⟨reads, thrown⟩⟩)).1 = connect parse reads := rfl
      rw [hcalls, hconnect, htake, delivered_append]
      refine ⟨_, _, rfl, fun call hcall => ?_, fun call hcall => ?_,
        (length_delivered_le _ _ _).trans hone⟩
      · obtain ⟨event, hevent, htext⟩ := tokenText_of_delivered hcall
        rw [htext]
        exact htokens event hevent
      · obtain ⟨event, hevent, htext⟩ := tokenText_of_delivered hcall
        rw [htext]
        exact hnone event hevent

/-- The response is read to its end, and then the connection breaks. -/
def brokenFetch : Except ThrownError FetchResponse :=
  .ok ⟨true, "OK", some ⟨helloResponseReads, some ⟨"TypeError", "network error"⟩⟩⟩

theorem done_brokenFetch : .onDone (StreamEvent.done "stop" none 0 1).payload ∈
    StreamConnection.connect (parseEvents zeroRepr helloResponse.1) brokenFetch :=
  List.mem_append_left _ done_helloResponse

theorem ends_once_hello :
    .onDone (StreamEvent.done "stop" none 0 1).payload ∈
        StreamConnection.connect (parseEvents zeroRepr helloResponse.1) brokenFetch ∧
      ∃ tokens ending,
        StreamConnection.connect (parseEvents zeroRepr helloResponse.1) brokenFetch =
          tokens ++ ending ++ [.onError (.str "network error")] ∧
        (∀ call ∈ tokens, call.tokenText.isSome) ∧ (∀ call ∈ ending, call.tokenText = none) ∧
        ending.length ≤ 1 := by
  refine ⟨done_brokenFetch, ends_once (.streamed helloResponse_eq "OK"
    ⟨[], by rw [flatten_helloResponseReads, List.append_nil]⟩ _) fun body t h => ?_⟩
  rw [helloResponse_eq] at h
  obtain ⟨rfl, rfl⟩ := Prod.mk.inj (Except.ok.inj h)
  exact parse_helloResponse

/-- **Done means stored.** Wherever its connection ends or breaks, a page that is told that the
    answer is done has the answer stored, right after the user's message, with as many tokens as
    it is told. The text on the page is the stored one exactly if no read ended between the two
    lines of one of its tokens. -/
theorem done_means_stored
    (h : streamChat env payload user organizationId memberships conversationId
      ⟨conversations, ⟨rows, [], []⟩⟩ = .ok (body, t))
    {parse : List Char → Option (Dict JsonValue)} {F : FloatRepr} {reads : List (List Char)}
    (hreads : reads.flatten <+: streamText F body)
    (hparse : ∀ event ∈ body, parse (dumps F event.payload) = some event.payload)
    {statusText : String} {thrown : Option ThrownError} {data : Dict JsonValue}
    (hdone : .onDone data ∈
      StreamConnection.connect parse (.ok ⟨true, statusText, some ⟨reads, thrown⟩⟩)) :
    let calls := StreamConnection.connect parse (.ok ⟨true, statusText, some ⟨reads, thrown⟩⟩)
    let tokens := yieldedTokens t.stream
    ∃ answer : Message,
      t.stream.rows = rows ++ [userMessage answer.conversationId payload.message, answer] ∧
      answer.role = "assistant" ∧ answer.content = String.join tokens ∧
      data.lookup "tokens_sent" = some (.int tokens.length) ∧
      (shown calls = answer.content ↔ ∀ earlier, earlier <+: reads →
        ∀ k < tokens.length, earlier.flatten.count '\n' ≠ 3 * k + 1) := by
  intro calls tokens
  have hresponds := chatStream_ending h
  obtain ⟨k, hconnect⟩ := connect_prefix hreads hparse
  have hshown : shown calls = shown (connect parse reads) := shown_connect_streamed ..
  rw [hshown]
  replace hdone := done_of_connect_streamed hdone
  rw [hconnect] at hdone ⊢
  obtain ⟨event, hevent, hreceived⟩ := mem_delivered hdone
  obtain ⟨finishReason, usage, latency, tokensSent, rfl, rfl⟩ := done_of_received hreceived
  obtain ⟨events, answer, hcompleted, hthere⟩ :=
    hresponds.of_done (List.mem_of_mem_take hevent)
  obtain ⟨last, hbody, herrors⟩ := hresponds.completed hcompleted
  rw [if_neg hthere, List.singleton_append] at hbody
  obtain ⟨_, _, _, hcount⟩ := hcompleted.done_eq
  obtain ⟨-, -, -, rfl⟩ := StreamEvent.done.inj hcount
  -- The tokens come before the done event, so that all of them have been read.
  have hlong : events.length ≤ k := by
    by_contra hshort
    rw [hbody, List.take_append_of_le_length (by omega)] at hevent
    obtain ⟨text, htext, -⟩ := hcompleted.tokens _ (List.mem_of_mem_take hevent)
    cases htext
  have htake : ∃ rest, body.take k = events ++ rest ∧
      ∀ event ∈ rest, event.tokenText = none := by
    refine ⟨((.done finishReason usage latency events.length) :: last).take (k - events.length),
      ?_, fun event hin => ?_⟩
    · rw [hbody, List.take_append, List.take_of_length_le hlong]
    · rcases List.mem_cons.mp (List.mem_of_mem_take hin) with rfl | hin
      · rfl
      · exact (errors_tail herrors).1 _ hin
  obtain ⟨rest, htake, hnone⟩ := htake
  have hlength : tokens.length = events.length := hcompleted.length_yieldedTokens
  refine ⟨answer, hcompleted.stored, hcompleted.role, ?_, by rw [hlength]; rfl, ?_⟩
  · rw [hcompleted.content, ← hcompleted.yieldedTokens_eq]
  · rw [hlength, htake, delivered_append, shown_append, shown_delivered_nil hnone,
      String.append_empty, hcompleted.content, shown_delivered_iff hcompleted.tokens]
    simp only [cutAt_iff, Nat.zero_add]
    constructor
    · exact fun huncut earlier hbefore k hk hcut => huncut k hk ⟨earlier, hbefore, hcut⟩
    · rintro huncut k hk ⟨earlier, hbefore, hcut⟩
      exact huncut earlier hbefore k hk hcut

theorem done_means_stored_hello :
    let calls := StreamConnection.connect (parseEvents zeroRepr helloResponse.1) brokenFetch
    let tokens := yieldedTokens helloResponse.2.stream
    ∃ answer : Message,
      helloResponse.2.stream.rows =
        [] ++ [userMessage answer.conversationId helloRequest.message, answer] ∧
      answer.role = "assistant" ∧ answer.content = String.join tokens ∧
      (StreamEvent.done "stop" none 0 1).payload.lookup "tokens_sent" =
        some (.int tokens.length) ∧
      (shown calls = answer.content ↔ ∀ earlier, earlier <+: helloResponseReads →
        ∀ k < tokens.length, earlier.flatten.count '\n' ≠ 3 * k + 1) :=
  done_means_stored helloResponse_eq ⟨[], by rw [flatten_helloResponseReads, List.append_nil]⟩
    parse_helloResponse done_brokenFetch

/-- **Who is told.** A page that reads the whole response is told that the answer is done exactly
    if the answer is stored and was read back, the client was there when the done event was sent,
    and no read ended between the two lines of that event. -/
theorem told_iff
    (h : streamChat env payload user organizationId memberships conversationId
      ⟨conversations, ⟨rows, [], []⟩⟩ = .ok (body, t))
    {parse : List Char → Option (Dict JsonValue)} {F : FloatRepr} {reads : List (List Char)}
    (hreads : reads.flatten = streamText F body)
    (hparse : ∀ event ∈ body, parse (dumps F event.payload) = some event.payload) :
    let n := (yieldedTokens t.stream).length
    (∃ data, .onDone data ∈ connect parse reads) ↔
      (∃ answer ∈ t.stream.rows.drop rows.length, answer.role = "assistant") ∧
        env.assistantWrite.refresh = .ok () ∧ ¬ env.disconnected n ∧
        ∀ earlier, earlier <+: reads → earlier.flatten.count '\n' ≠ 3 * n + 1 := by
  intro n
  have hresponds := chatStream_ending h
  have hlength : ∀ {events done answer},
      Completed env.toStreamEnv payload rows t.stream events done answer → n = events.length :=
    fun hcompleted => hcompleted.length_yieldedTokens
  have huncut_iff : ¬ cutAt '\n' 0 reads (0 + 3 * n + 1) ↔
      ∀ earlier, earlier <+: reads → earlier.flatten.count '\n' ≠ 3 * n + 1 := by
    rw [cutAt_iff, Nat.zero_add]
    exact ⟨fun hno earlier hbefore hcut => hno ⟨earlier, hbefore, by omega⟩,
      fun hall ⟨earlier, hbefore, hcut⟩ => hall earlier hbefore (by omega)⟩
  rw [connect_eq hreads hparse, ← huncut_iff]
  constructor
  · rintro ⟨data, hdone⟩
    obtain ⟨event, hevent, hreceived⟩ := mem_delivered hdone
    obtain ⟨finishReason, usage, latency, tokensSent, rfl, rfl⟩ := done_of_received hreceived
    obtain ⟨events, answer, hcompleted, hthere⟩ := hresponds.of_done hevent
    have hn := hlength hcompleted
    obtain ⟨last, hbody, herrors⟩ := hresponds.completed hcompleted
    rw [if_neg hthere, List.singleton_append] at hbody
    refine ⟨⟨answer, ?_, hcompleted.role⟩, ?_, hn ▸ hthere, fun hcut => ?_⟩
    · rw [hcompleted.stored, List.drop_left]
      simp
    · have hwritten := hcompleted.written
      unfold WriteOutcome.result at hwritten
      obtain ⟨_, -, hrefresh⟩ := Proc.bind_ok hwritten
      exact hrefresh
    · -- Neither a token nor an error leads to this call, and the done event is lost.
      rw [hbody, delivered_append, delivered, if_pos (hn ▸ hcut), List.nil_append] at hdone
      rcases List.mem_append.mp hdone with hin | hin
      · obtain ⟨event, hmem, hcall⟩ := mem_delivered hin
        obtain ⟨_, _, _, _, rfl, -⟩ := done_of_received hcall
        obtain ⟨text, htext, -⟩ := hcompleted.tokens _ hmem
        cases htext
      · obtain ⟨event, hmem, hcall⟩ := mem_delivered hin
        obtain ⟨_, _, _, _, rfl, -⟩ := done_of_received hcall
        exact (errors_tail herrors).2 _ _ _ _ hmem
  · rintro ⟨⟨message, hmessage, hrole⟩, hrefresh, hthere, huncut⟩
    rcases hresponds.ending with hnone | ⟨conversation, agent, hending⟩
    · rw [hnone] at hmessage
      simp at hmessage
    · obtain ⟨events, done, answer, hcompleted⟩ :=
        completed_of_ending hending (.inr ⟨⟨message, hmessage, hrole⟩, hrefresh⟩)
      have hn := hlength hcompleted
      obtain ⟨last, hbody, -⟩ := hresponds.completed hcompleted
      rw [if_neg (hn ▸ hthere), List.singleton_append] at hbody
      obtain ⟨finishReason, usage, latency, rfl⟩ := hcompleted.done_eq
      refine ⟨(StreamEvent.done finishReason usage latency events.length).payload, ?_⟩
      rw [hbody, delivered_append, delivered, if_neg (hn ▸ huncut), received_done]
      simp

theorem told_iff_hello :
    let n := (yieldedTokens helloResponse.2.stream).length
    (∃ data, .onDone data ∈
        connect (parseEvents zeroRepr helloResponse.1) helloResponseReads) ↔
      (∃ answer ∈ helloResponse.2.stream.rows.drop 0, answer.role = "assistant") ∧
        helloEnv.assistantWrite.refresh = .ok () ∧ ¬ helloEnv.disconnected n ∧
        ∀ earlier, earlier <+: helloResponseReads → earlier.flatten.count '\n' ≠ 3 * n + 1 :=
  told_iff helloResponse_eq flatten_helloResponseReads parse_helloResponse

end Told

end AgentCorp.Streaming
