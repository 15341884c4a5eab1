/-
  The allow-list of providers, from the policy to the provider that a V2 run invokes.

  The policy engine compares the payload's own provider with the list. Which provider is
  invoked is decided later: a chat run lists the models of the named provider or, where none is
  named, of the service's default; a stream that is forwarded asks the same provider for its
  chunks. The list of disallowed capabilities is in the configuration, and nothing reads it.

  * `executeStream_congr`: a stream asks the provider service under the payload's name only.
  * `allowList_sound_iff`: exactly when a run keeps to the two lists.
-/
import AgentCorp.Providers.ProviderService
import AgentCorp.Runtime.GovernanceSafety

namespace AgentCorp.Providers

open AgentCorp.Python AgentCorp.Chat AgentCorp.Runtime
open AgentCorp.Streaming (ChunkStream StreamEnv Conversation Agent StreamState prepared
  prepareRequest prepareRequest_run)

variable {δ ρ : Type}

/-- The policy configuration with the entry that `PolicyEngine.evaluate` does not read. -/
structure PolicyEngineConfig extends PolicyConfig where
  disallowedCapabilities : List String := []
  deriving DecidableEq, Repr

/-! ## The services of a governed run -/

/-- A stream of the streaming service around its call of the provider service: it ends before
    the call, or asks for a request and goes on with the chunks. -/
structure StreamingSteps (δ : Type) where
  prepare : Payload → User → Int → Option Int → δ → Except StreamRun ChatRequest × δ
  finish : Payload → User → Int → Option Int → ChatRequest → ChunkStream → δ → StreamRun × δ

/-- `stream_new_chat` and `stream_continue_chat`, over a provider service. -/
def streamingRun (service : ProviderService δ) (steps : StreamingSteps δ) (payload : Payload)
    (user : User) (organizationId : Int) (conversationId : Option Int) :
    ProviderWorld δ → StreamRun × ProviderWorld δ := fun w =>
  match steps.prepare payload user organizationId conversationId w.state with
  | (.error run, state) => (run, { w with state := state })
  | (.ok request, state) =>
      let stream := service.streamChat request payload.provider
      let (run, state') :=
        steps.finish payload user organizationId conversationId request stream state
      (run, { state := state'
              invoked := w.invoked ++ service.streamInvocations payload.provider })

/-- The services of the native runtimes over one provider service. The analysis invokes no
    provider; of the other services, in `base`, nothing is assumed. -/
def providerServices (service : ProviderService δ) (steps : StreamingSteps δ)
    (analysis : ExecutionContext → Reply ρ → User → Int → Py δ Unit)
    (base : Services (ProviderWorld δ) ρ) : Services (ProviderWorld δ) ρ :=
  { base with
    streamNewChat := fun payload user organizationId =>
      streamingRun service steps payload user organizationId none
    streamContinueChat := fun id payload user organizationId =>
      streamingRun service steps payload user organizationId (some id)
    listModels := service.listModels
    recordAnalysis := fun context reply user organizationId =>
      onState (analysis context reply user organizationId) }

/-- The entry points of the V2 runtime. -/
inductive Entry where
  | chat | stream
  deriving DecidableEq, Repr

/-- One V2 run. -/
def runV2 (entry : Entry) (env : RuntimeEnv) (services : Services δ ρ) (payload : Payload)
    (user : User) (organizationId : Int) (conversationId : Option Int) : Py (World δ) Unit :=
  match entry with
  | .chat => do
      let _ ← v2ExecuteChat env services payload user organizationId conversationId
      return ()
  | .stream => v2ExecuteStream env services payload user organizationId conversationId

theorem consume_congr (env : StreamEnv) (streamChat : ChatRequest → Option String → ChunkStream)
    (l : Streaming.StreamLocals) (chunks : List Streaming.StreamChunk) :
    Streaming.consume { env with streamChat := streamChat } l chunks =
      Streaming.consume env l chunks := by
  induction chunks generalizing l with
  | nil => rfl
  | cons chunk rest ih =>
      unfold Streaming.consume
      exact congrArg (Streaming.forwardChunk env l chunk >>= ·) (funext fun l => ih l)

/-- What a stream does depends on the provider service by the answer to its one request only,
    and that request is made under the provider name of the payload. -/
theorem executeStream_congr (env : StreamEnv) (streamChat : ChatRequest → Option String →
    ChunkStream) (payload : StreamingChatRequest) (conversation : Conversation) (agent : Agent)
    (s : StreamState)
    (h : ∀ request, prepared env payload conversation agent s.rows = .ok request →
      streamChat request payload.provider = env.streamChat request payload.provider) :
    (Streaming.executeStream { env with streamChat := streamChat } payload conversation
      agent).run s = (Streaming.executeStream env payload conversation agent).run s := by
  let t : StreamState := { s with counterOps := s.counterOps ++ [.increment] }
  have hsteps : (Streaming.streamSteps { env with streamChat := streamChat } payload conversation
      agent).run t = (Streaming.streamSteps env payload conversation agent).run t := by
    obtain ⟨added, -, hprepared⟩ := prepareRequest_run env payload conversation agent t
    have hprepare : prepareRequest { env with streamChat := streamChat } payload conversation
        agent = prepareRequest env payload conversation agent := rfl
    unfold Streaming.streamSteps
    rw [EStateM.run_bind, EStateM.run_bind, hprepare]
    cases hresult : prepared env payload conversation agent t.rows with
    | error raised =>
        rw [hresult] at hprepared
        dsimp only at hprepared
        rw [hprepared]
    | ok request =>
        rw [hresult] at hprepared
        dsimp only at hprepared
        rw [hprepared.2]
        dsimp only
        rw [h request hresult]
        unfold Streaming.receiveTokens Streaming.consumeStream
        rw [consume_congr]
        rfl
  unfold Streaming.executeStream
  rw [EStateM.run_bind, EStateM.run_bind, Streaming.count_run]
  dsimp only
  rw [Proc.run_tryCatch, Proc.run_tryCatch, hsteps]
  rfl

/-! ## What the lists promise -/

/-- A method for which the allow-list is meant. -/
def ProviderMethod.governed (method : ProviderMethod) : Prop :=
  method ∈ [ProviderMethod.chat, .listModels, .streamChat]

/-- The invocation is of a provider in the list. -/
def AllowedInvocation (allowed : List String) (invocation : Invocation) : Prop :=
  invocation.method.governed → invocation.provider ∈ allowed

/-- The task that an event dispatches needs no capability in the list. -/
def AllowedDispatch (disallowed : List String) : RuntimeEvent → Prop
  | .dispatched _ _ _ task => task.requiredCapability ∉ disallowed
  | _ => True

/-- From `w` to `w'`, one run keeps to both lists. -/
structure KeepsLists (config : PolicyEngineConfig) (w w' : World (ProviderWorld δ)) : Prop where
  providers : Invokes (AllowedInvocation config.allowedProviders) w.db w'.db
  capabilities : ∀ run, w'.runs = run :: w.runs →
    ∀ event ∈ run, AllowedDispatch config.disallowedCapabilities event

/-! ## When they hold -/

/-- The capability that a stream of a message needs: streaming where the message mentions it,
    or the first one that it mentions. -/
def streamCapability (L : Lower) (text : String) : String :=
  if containsAny text ["stream", "sse"] then "streaming"
  else L.lower ((capabilitiesOf text).headD "Provider")

/-- The streaming service asks for a request. -/
def Asks (steps : StreamingSteps δ) (payload : Payload) (user : User) (organizationId : Int)
    (conversationId : Option Int) (state : δ) : Prop :=
  (steps.prepare payload user organizationId conversationId state).1.isOk

/-- The provider that the payload resolves to: the named one or, without a name, the default
    of the service. -/
def targetProvider (service : ProviderService δ) (payload : Payload) : String :=
  service.manager.key (service.resolved payload.provider)

/-- The capability that the run needs is not disallowed and, where the run gets as far as a
    provider that can be had, that one is allowed. -/
def ListsCover (config : PolicyEngineConfig) (service : ProviderService δ)
    (steps : StreamingSteps δ) (L : Lower) (entry : Entry) (payload : Payload) (user : User)
    (organizationId : Int) (conversationId : Option Int) (state : δ) (message : String) : Prop :=
  let text := normalizeText L message
  match entry with
  | .chat =>
      "provider" ∉ config.disallowedCapabilities ∧
      ((service.manager.getProvider (service.resolved payload.provider)).isOk →
        targetProvider service payload ∈ config.allowedProviders)
  | .stream =>
      streamCapability L text ∉ config.disallowedCapabilities ∧
      (Streamable text → Asks steps payload user organizationId conversationId state →
        (service.streamProvider payload.provider).isOk →
        targetProvider service payload ∈ config.allowedProviders)

/-! ## The invocations of a run -/

/-- Nothing is invoked. -/
def SameInvocations (w w' : World (ProviderWorld δ)) : Prop :=
  w'.db.invoked = w.db.invoked

instance : IsPreorder (World (ProviderWorld δ)) SameInvocations where
  refl _ := rfl
  trans _ _ _ h₁ h₂ := Eq.trans h₂ h₁

section Runs

variable (env : RuntimeEnv) (service : ProviderService δ) (steps : StreamingSteps δ)
  (analysis : ExecutionContext → Reply ρ → User → Int → Py δ Unit)
  (base : Services (ProviderWorld δ) ρ) (payload : Payload) (user : User) (organizationId : Int)
  (conversationId : Option Int)

/-- An answer invokes what its listing of models does. -/
theorem answerChat_invoked (context : ExecutionContext)
    (completed : ExecutionResult → ExecutionRun) (taskId : String)
    (w : World (ProviderWorld δ)) :
    (Proc.after (answerChat env (providerServices service steps analysis base) payload user
      organizationId context completed taskId) w).db.invoked =
      w.db.invoked ++ service.listInvocations payload.provider := by
  have hlist := service.listModels_invoked payload.provider w.db
  rw [← onDb_db] at hlist
  have hrest : ∀ names, Proc.Within SameInvocations (do
      record (.published (completed ⟨taskId, .completed, [], env.clock 8, env.clock 9⟩))
      onDb (onState (analysis context (.models names) user organizationId))
      return (.models names : Reply ρ) : Py (World (ProviderWorld δ)) (Reply ρ)) := by
    intro names
    refine Proc.Within.bind (Proc.Within.modify fun _ => rfl) fun _ =>
      Proc.Within.bind (fun w => ?_) fun _ => Proc.Within.pure _
    rw [SameInvocations, onDb_db, onState_invoked]
  have hmodels : (providerServices service steps analysis base).listModels =
      service.listModels := rfl
  unfold answerChat
  rw [Proc.after_bind, ← hlist, hmodels]
  cases hrun : (onDb (service.listModels payload.provider)).run w with
  | error raised w' => rw [Proc.after_of_error hrun]
  | ok names w' =>
      rw [Proc.after_of_ok hrun]
      exact hrest names w'

/-- An answer only publishes. -/
theorem answerChat_onlyPublishes (services : Services δ ρ) (context : ExecutionContext)
    (completed : ExecutionResult → ExecutionRun) (taskId : String) :
    Proc.Within OnlyPublishes (answerChat env services payload user organizationId context
      completed taskId) := by
  unfold answerChat
  refine (onDb_onlyPublishes _).bind fun names => (publish_onlyPublishes _).bind fun _ => ?_
  exact (onDb_onlyPublishes _).bind fun _ => .pure _

/-- A stream of the streaming service invokes what its stream of the provider service does,
    if it gets there. -/
theorem streamingRun_invoked (w : ProviderWorld δ) :
    (streamingRun service steps payload user organizationId conversationId w).2.invoked =
      w.invoked ++
        if (steps.prepare payload user organizationId conversationId w.state).1.isOk then
          service.streamInvocations payload.provider
        else [] := by
  unfold streamingRun
  obtain ⟨asked, state⟩ := steps.prepare payload user organizationId conversationId w.state
  cases asked with
  | error run => exact (List.append_nil _).symm
  | ok request => rfl

theorem v1ExecuteStream_providerServices :
    v1ExecuteStream (providerServices service steps analysis base) payload user organizationId
        conversationId =
      streamingRun service steps payload user organizationId conversationId := by
  cases conversationId <;> rfl

/-- The capability that a run needs. -/
def entryCapability (L : Lower) (entry : Entry) (text : String) : String :=
  match entry with
  | .chat => "provider"
  | .stream => streamCapability L text

/-- What a run invokes. -/
def entryInvocations (entry : Entry) (text : String) (state : δ) : List Invocation :=
  match entry with
  | .chat => service.listInvocations payload.provider
  | .stream =>
      if Streamable text ∧
          (steps.prepare payload user organizationId conversationId state).1.isOk then
        service.streamInvocations payload.provider
      else []

/-- The first capability of a message, in lower case, is that of the first task. -/
theorem selected_capability {L : Lower} {blueprint : ExecutionBlueprint} {text : String}
    (hcaps : blueprint.requiredRuntimeCapabilities = capabilitiesOf text) {task : ExecutionTask}
    (htask : selectDispatchTask (capabilityTasks L blueprint) "streaming" = .ok task) :
    task.requiredCapability = streamCapability L text := by
  have hselected := selectDispatchTask_streaming L hcaps htask
  unfold streamCapability
  split at hselected
  · next hs => rw [if_pos hs, hselected]
  · next hs =>
      obtain ⟨name, rest, hname, rfl⟩ := hselected
      rw [if_neg hs, hname]
      rfl

/-- What an admitted run with a message does: one dispatch between publications, and the
    invocations of its entry point. -/
theorem runV2_effects (entry : Entry) {message : String}
    (h : Admitted env payload user organizationId) (hmessage : payload.message = some message)
    (w : World (ProviderWorld δ)) :
    let w' := Proc.after (runV2 entry env (providerServices service steps analysis base) payload
      user organizationId conversationId) w
    (∃ run task later, (∀ event ∈ later, ∃ r, event = .published r) ∧
      task.requiredCapability = entryCapability env.L entry (normalizeText env.L message) ∧
      w'.runs = (governedEvents env payload user organizationId ++
        [.published run, .dispatched payload user organizationId task] ++ later) :: w.runs) ∧
    w'.db.invoked = w.db.invoked ++ entryInvocations service steps payload user organizationId
      conversationId entry (normalizeText env.L message) w.db.state := by
  cases entry with
  | chat =>
      obtain ⟨context, run, task, completed, hcapability, -, hrun⟩ :=
        v2ExecuteChat_run env (providerServices service steps analysis base) conversationId h
          hmessage w
      dsimp only [runV2]
      rw [Proc.after_bind_pure, Proc.after_congr hrun]
      obtain ⟨later, hlater, hruns⟩ := answerChat_onlyPublishes env payload user organizationId
        (providerServices service steps analysis base) context completed task.taskId
        { w with runs := (governedEvents env payload user organizationId ++
            [.published run, .dispatched payload user organizationId task]) :: w.runs } _ _ rfl
      exact ⟨⟨run, task, later, hlater, hcapability, hruns⟩,
        answerChat_invoked env service steps analysis base payload user organizationId context
          completed task.taskId _⟩
  | stream =>
      obtain ⟨blueprint, context, run, task, hcaps, htask, hrun⟩ :=
        v2ExecuteStream_run env (providerServices service steps analysis base) conversationId h
          hmessage w
      have hforwards := forwards_iff env.L hcaps htask
      have hcapability := selected_capability hcaps htask
      rw [dispatchStream_run, v1ExecuteStream_providerServices] at hrun
      dsimp only [runV2]
      by_cases hs : Streamable (normalizeText env.L message)
      · rw [if_pos (hforwards.mpr hs)] at hrun
        rw [Proc.after_congr hrun, forward_after]
        refine ⟨⟨run, task, [], by simp, hcapability, by simp⟩, ?_⟩
        simp only [streamingRun_invoked, entryInvocations, hs, true_and]
      · rw [if_neg fun hf => hs (hforwards.mp hf)] at hrun
        rw [Proc.after_of_error hrun]
        refine ⟨⟨run, task, [], by simp, hcapability, by simp⟩, ?_⟩
        simp only [entryInvocations, hs, false_and, if_false, List.append_nil]

end Runs

/-! ## The two lists -/

theorem invokes_iff {P : Invocation → Prop} {w w' : ProviderWorld δ} {later : List Invocation}
    (h : w'.invoked = w.invoked ++ later) :
    Invokes P w w' ↔ ∀ invocation ∈ later, P invocation := by
  constructor
  · rintro ⟨later', hlater', hP⟩
    obtain rfl : later = later' := List.append_cancel_left (h.symm.trans hlater')
    exact hP
  · exact fun hP => ⟨later, h, hP⟩

/-- One governed invocation, where there is a provider for it. -/
theorem allowed_invocationsOf (found : Except Exn (BaseProvider δ)) (allowed : List String)
    (provider : String) {method : ProviderMethod} (hmethod : method.governed) :
    (∀ invocation ∈ ProviderService.invocationsOf found provider method,
        AllowedInvocation allowed invocation) ↔ (found.isOk → provider ∈ allowed) := by
  cases found with
  | error exc => simp [ProviderService.invocationsOf, Except.isOk, Except.toBool]
  | ok a => simp [ProviderService.invocationsOf, Except.isOk, Except.toBool, AllowedInvocation,
      hmethod]

/-- Governance dispatches nothing. -/
theorem allowed_governedEvents {disallowed : List String} {payload : Payload} {user : User}
    {organizationId : Int} (env : RuntimeEnv) :
    ∀ event ∈ governedEvents env payload user organizationId, AllowedDispatch disallowed event := by
  intro event hevent
  unfold governedEvents at hevent
  split at hevent
  · rw [List.mem_singleton.mp hevent]
    trivial
  · exact absurd hevent List.not_mem_nil

/-- Publications dispatch nothing either. -/
theorem allowed_dispatches {disallowed : List String} {payload : Payload} {user : User}
    {organizationId : Int} (env : RuntimeEnv) (run : ExecutionRun) (task : ExecutionTask)
    {later : List RuntimeEvent} (hlater : ∀ event ∈ later, ∃ r, event = .published r) :
    (∀ event ∈ governedEvents env payload user organizationId ++
        [.published run, .dispatched payload user organizationId task] ++ later,
      AllowedDispatch disallowed event) ↔ task.requiredCapability ∉ disallowed := by
  constructor
  · intro h
    exact h (.dispatched payload user organizationId task) (by simp)
  · intro h event hevent
    rcases List.mem_append.mp hevent with hevent | hevent
    · rcases List.mem_append.mp hevent with hevent | hevent
      · exact allowed_governedEvents env event hevent
      · rcases List.mem_cons.mp hevent with rfl | hevent
        · trivial
        · rw [List.mem_singleton.mp hevent]
          exact h
    · obtain ⟨r, rfl⟩ := hlater event hevent
      trivial

section Lists

variable (env : RuntimeEnv) (payload : Payload) (user : User) (organizationId : Int)
  (conversationId : Option Int)

/-- A payload without a message is governed, and no more. -/
theorem runV2_stops (entry : Entry) (services : Services δ ρ) (hmessage : payload.message = none)
    (w : World δ) :
    Proc.after (runV2 entry env services payload user organizationId conversationId) w =
      { w with runs := governedEvents env payload user organizationId :: w.runs } := by
  have hnone : ¬ (Admitted env payload user organizationId ∧ payload.message.isSome) := by
    simp [hmessage]
  obtain ⟨raised, hstop⟩ := prepareExecution_stops env hnone w
  cases entry with
  | chat =>
      dsimp only [runV2, v2ExecuteChat]
      rw [Proc.after_bind_pure, Proc.after_bind, hstop]
  | stream =>
      dsimp only [runV2, v2ExecuteStream]
      rw [Proc.after_bind, hstop]

theorem listsCover_iff (service : ProviderService δ) (steps : StreamingSteps δ)
    (config : PolicyEngineConfig) (entry : Entry) (state : δ) (message : String) :
    ListsCover config service steps env.L entry payload user organizationId conversationId state
        message ↔
      entryCapability env.L entry (normalizeText env.L message) ∉ config.disallowedCapabilities ∧
      ∀ invocation ∈ entryInvocations service steps payload user organizationId conversationId
        entry (normalizeText env.L message) state,
        AllowedInvocation config.allowedProviders invocation := by
  have hlist : ProviderMethod.listModels.governed := by simp [ProviderMethod.governed]
  have hstream : ProviderMethod.streamChat.governed := by simp [ProviderMethod.governed]
  cases entry with
  | chat =>
      refine and_congr_right fun _ => ?_
      exact (allowed_invocationsOf _ _ _ hlist).symm
  | stream =>
      refine and_congr_right fun _ => ?_
      have hcover := allowed_invocationsOf (service.streamProvider payload.provider)
        config.allowedProviders (targetProvider service payload) hstream
      dsimp only [entryInvocations]
      split
      · next h =>
          exact ⟨fun hall => hcover.mpr (hall h.1 h.2), fun hall _ _ => hcover.mp hall⟩
      · next h =>
          exact ⟨fun _ => by simp, fun _ hs hasks => absurd ⟨hs, hasks⟩ h⟩

end Lists

/-! ## Examples -/

/-- Services around Groq as the only provider. A stream asks at once, and stores nothing. -/
def plainSteps : StreamingSteps Unit where
  prepare _ _ _ _ state := (.ok helloRequest, state)
  finish _ _ _ _ _ stream state := (⟨[], stream.ending⟩, state)

def groqServices : Services (ProviderWorld Unit) Unit :=
  providerServices (groqService (generatorProvider helloStream)) plainSteps
    (fun _ _ _ _ => pure ())
    { createChat := fun _ _ _ => pure ()
      continueChat := fun _ _ _ _ => pure ()
      regenerateResponse := fun _ _ _ _ => pure ()
      retryFailedMessage := fun _ _ _ _ => pure ()
      streamNewChat := fun _ _ _ w => (⟨[], .ok ()⟩, w)
      streamContinueChat := fun _ _ _ _ w => (⟨[], .ok ()⟩, w)
      listModels := fun _ => pure []
      executeCapability := fun _ _ _ _ _ _ => pure .none
      recordAnalysis := fun _ _ _ _ => pure () }

def freshWorld : World (ProviderWorld Unit) where
  db := ⟨(), []⟩
  yielded := []
  runs := []

/-- Only OpenAI is allowed, and no task may need a provider. -/
def openaiOnly : PolicyEngineConfig where
  allowedProviders := ["openai"]
  disallowedCapabilities := ["provider"]

/-- A runtime with a policy. -/
def policed (config : PolicyEngineConfig) : RuntimeEnv :=
  { quietRuntime with config := config.toPolicyConfig }

/-- A chat that names no provider is allowed, dispatches a provider task, and lists the models
    of the default provider, although neither is in order. -/
theorem defaultProvider_not_keepsLists :
    helloChat.declaredVersion = "AgentCorp V2" ∧
    (govern openaiOnly.toPolicyConfig helloChat ⟨9, true, false⟩ { id := 1 }
      "AgentCorp V2").decision.allowed ∧
    let w' := Proc.after (runV2 .chat (policed openaiOnly) groqServices helloChat
      ⟨9, true, false⟩ 1 none) freshWorld
    ¬ Invokes (AllowedInvocation openaiOnly.allowedProviders) freshWorld.db w'.db ∧
    ¬ ∀ run, w'.runs = run :: freshWorld.runs →
      ∀ event ∈ run, AllowedDispatch openaiOnly.disallowedCapabilities event := by
  have hadmitted : Admitted (policed openaiOnly) helloChat ⟨9, true, false⟩ 1 :=
    fun _ => by decide
  obtain ⟨⟨run, task, later, hlater, hcapability, hruns⟩, hinvoked⟩ :=
    runV2_effects (policed openaiOnly) (groqService (generatorProvider helloStream)) plainSteps
      (fun _ _ _ _ => pure ()) _ helloChat ⟨9, true, false⟩ 1 none .chat hadmitted rfl freshWorld
  refine ⟨rfl, by decide, fun hproviders => ?_, fun hcapabilities => ?_⟩
  · have hgroq : (⟨"groq", .listModels⟩ : Invocation) ∈ (groqService (generatorProvider
        helloStream)).listInvocations helloChat.provider := by
      show _ ∈ ProviderService.invocationsOf (.ok (generatorProvider helloStream)) "groq" _
      simp [ProviderService.invocationsOf]
    have hallowed := (invokes_iff hinvoked).mp hproviders _ hgroq
      (by simp [ProviderMethod.governed])
    exact absurd hallowed (by decide)
  · have hdispatch := (allowed_dispatches _ run task hlater).mp (hcapabilities _ hruns)
    rw [hcapability] at hdispatch
    exact absurd hdispatch (by decide)

/-- **Allow-lists.** An admitted V2 run keeps to the lists of the configuration exactly if the
    capability that its message needs is not disallowed and the provider that the payload
    resolves to is allowed, is not reached, or cannot be had. -/
theorem allowList_sound_iff (config : PolicyEngineConfig) (env : RuntimeEnv)
    (service : ProviderService δ) (steps : StreamingSteps δ)
    (analysis : ExecutionContext → Reply ρ → User → Int → Py δ Unit)
    (base : Services (ProviderWorld δ) ρ) (entry : Entry) (payload : Payload) (user : User)
    (organizationId : Int) (conversationId : Option Int) (w : World (ProviderWorld δ))
    (h : Admitted { env with config := config.toPolicyConfig } payload user organizationId) :
    KeepsLists config w (Proc.after (runV2 entry { env with config := config.toPolicyConfig }
        (providerServices service steps analysis base) payload user organizationId
        conversationId) w) ↔
      ∀ message, payload.message = some message →
        ListsCover config service steps env.L entry payload user organizationId conversationId
          w.db.state message := by
  cases hmessage : payload.message with
  | none =>
      rw [runV2_stops _ payload user organizationId conversationId entry _ hmessage]
      refine ⟨fun _ message hnone => (by cases hnone), fun _ => ⟨.of_eq rfl, ?_⟩⟩
      intro run hrun
      obtain rfl := (List.cons.inj hrun).1
      exact allowed_governedEvents _
  | some message =>
      obtain ⟨⟨run, task, later, hlater, hcapability, hruns⟩, hinvoked⟩ :=
        runV2_effects _ service steps analysis base payload user organizationId conversationId
          entry h hmessage w
      have hcover := listsCover_iff { env with config := config.toPolicyConfig } payload user
        organizationId conversationId service steps config entry w.db.state message
      simp only [Option.some.injEq, forall_eq']
      rw [hcover, ← invokes_iff hinvoked, ← hcapability]
      constructor
      · intro hkeeps
        exact ⟨(allowed_dispatches _ run task hlater).mp (hkeeps.capabilities _ hruns),
          hkeeps.providers⟩
      · rintro ⟨hdispatch, hproviders⟩
        refine ⟨hproviders, fun run' hrun' => ?_⟩
        obtain rfl := (List.cons.inj (hruns.symm.trans hrun')).1
        exact (allowed_dispatches _ run task hlater).mpr hdispatch

/-- With Groq allowed, the same chat keeps to its lists. -/
theorem groqAllowed_keepsLists :
    KeepsLists { allowedProviders := ["groq"] } freshWorld
      (Proc.after (runV2 .chat (policed { allowedProviders := ["groq"] }) groqServices helloChat
        ⟨9, true, false⟩ 1 none) freshWorld) :=
  (allowList_sound_iff { allowedProviders := ["groq"] } quietRuntime
    (groqService (generatorProvider helloStream)) plainSteps (fun _ _ _ _ => pure ()) _ .chat
    helloChat ⟨9, true, false⟩ 1 none freshWorld (fun _ => by decide)).mpr
    (fun _ _ => ⟨by decide, fun _ => by decide⟩)

end AgentCorp.Providers
