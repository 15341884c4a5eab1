/-
  Runtime V2 against Runtime V1: does V2 answer as V1 does on the same payload?

  For chat it never does: the dispatched task is always a provider task, whose native executor
  lists models. For streams it depends on the capabilities read off the message: where the
  dispatched task resolves to the streaming runtime, or to none, V2 forwards V1's stream;
  everywhere else it raises before its first event.

  * `v2ExecuteChat_models`: what a V2 chat run returns is a list of models.
  * `v2_chat_never_refines`: no chat that V1 answers is answered alike by V2.
  * `forwards_iff`: the messages whose stream task is forwarded.
  * `v2_stream_refines_iff`: exactly when V2 streams as V1 does.
-/
import AgentCorp.Runtime.Runtimes

namespace AgentCorp.Runtime

open AgentCorp.Python

variable {δ ρ κ : Type}

/-! ## Chat -/

theorem resolvesNatively_provider (L : Lower) {task : ExecutionTask}
    (h : task.requiredCapability = "provider") :
    resolvesNatively L task =
      some ⟨"provider", "Provider Runtime Adapter", "ProviderService", ["provider"], .native⟩ := by
  rw [resolvesNatively, h, L.ascii _ (by decide)]
  decide

/-- A provider task is answered with a list of models. -/
theorem dispatchChat_models (env : RuntimeEnv) (services : Services δ ρ) (payload : Payload)
    (user : User) (organizationId : Int) (conversationId : Option Int) {task : ExecutionTask}
    (h : task.requiredCapability = "provider") (context : ExecutionContext) :
    Proc.Returns (fun reply => ∃ names, reply.1 = .models names)
      (dispatchChat env services payload user organizationId conversationId task context) := by
  unfold dispatchChat answerTask
  rw [resolvesNatively_provider env.L h]
  refine Proc.Returns.after fun _ => Proc.Returns.bind
    (Q := fun reply : Reply ρ => ∃ names, reply = .models names) ?_
    fun reply hreply => Proc.Returns.pure hreply
  exact Proc.Returns.after fun names => Proc.Returns.pure ⟨names, rfl⟩

/-- The context of a run has metadata and requires at least one capability. -/
theorem prepareExecution_returns (env : RuntimeEnv) (payload : Payload) (user : User)
    (organizationId : Int) :
    Proc.Returns (fun context => ∃ metadata blueprint,
        context.executionMetadata = some metadata ∧
        context.executionBlueprint = some blueprint ∧
        blueprint.requiredRuntimeCapabilities ≠ [])
      (prepareExecution env payload user organizationId : Py (World δ) ExecutionContext) := by
  unfold prepareExecution
  refine Proc.Returns.after fun _ => Proc.Returns.after fun report => ?_
  cases hmessage : payload.message with
  | none =>
      have herror : ∃ exc, buildExecutionContext env payload payload.declaredVersion =
          .error exc := by
        unfold buildExecutionContext
        rw [hmessage]
        exact ⟨_, rfl⟩
      obtain ⟨exc, hexc⟩ := herror
      rw [hexc, Py.ofResult_error_bind]
      exact Proc.Returns.throw _
  | some message =>
      obtain ⟨context, metadata, blueprint, hcontext, hmetadata, hblueprint, hcaps⟩ :=
        buildExecutionContext_ok env hmessage payload.declaredVersion
      rw [hcontext, Py.ofResult_ok_bind]
      refine Proc.Returns.pure ⟨metadata, blueprint, ?_, ?_, by
        rw [hcaps]
        exact capabilitiesOf_ne_nil _⟩
      · cases report <;> exact hmetadata
      · cases report <;> exact hblueprint

/-- A V2 chat run that returns, returns a list of models. -/
theorem v2ExecuteChat_models (env : RuntimeEnv) (services : Services δ ρ) (payload : Payload)
    (user : User) (organizationId : Int) (conversationId : Option Int) :
    Proc.Returns (fun reply => ∃ names, reply = .models names)
      (v2ExecuteChat env services payload user organizationId conversationId) := by
  unfold v2ExecuteChat
  refine Proc.Returns.bind (prepareExecution_returns env payload user organizationId)
    fun context hcontext => Proc.Returns.bind
      (Q := fun reply : Reply ρ => ∃ names, reply = .models names) ?_
      fun reply hreply => Proc.Returns.after fun _ => Proc.Returns.pure hreply
  obtain ⟨_, blueprint, -, hblueprint, hcaps⟩ := hcontext
  refine executeChat_returns fun run task hrun htask => ?_
  -- The run has the tasks of a capability list, of which a provider task is dispatched.
  obtain ⟨-, blueprint', hblueprint', htasks⟩ := initializeRun_ok hrun
  obtain rfl : blueprint = blueprint' := Option.some.inj (hblueprint.symm.trans hblueprint')
  rw [htasks, buildExecutionTasks, if_pos hcaps] at htask
  obtain ⟨provider, -, hprovider, hselect⟩ := selectDispatchTask_provider env.L blueprint
  obtain rfl : provider = task := Except.ok.inj (hselect.symm.trans htask)
  exact dispatchChat_models env services payload user organizationId conversationId hprovider _

/-- What a V2 chat does once its context is prepared and its provider task is dispatched. -/
def answerChat (env : RuntimeEnv) (services : Services δ ρ) (payload : Payload) (user : User)
    (organizationId : Int) (context : ExecutionContext)
    (completed : ExecutionResult → ExecutionRun) (taskId : String) : Py (World δ) (Reply ρ) := do
  let names ← onDb (services.listModels payload.provider)
  record (.published (completed ⟨taskId, .completed, [], env.clock 8, env.clock 9⟩))
  onDb (services.recordAnalysis context (.models names) user organizationId)
  return .models names

/-- The run of a message has a task for each capability read off it. -/
theorem initializeRun_message (env : RuntimeEnv) {payload : Payload} {user : User}
    {organizationId : Int} (h : Admitted env payload user organizationId) {message : String}
    (hmessage : payload.message = some message) (w : World δ) :
    ∃ context blueprint run,
      (prepareExecution env payload user organizationId).run w = .ok context
        { w with runs := governedEvents env payload user organizationId :: w.runs } ∧
      blueprint.requiredRuntimeCapabilities = capabilitiesOf (normalizeText env.L message) ∧
      initializeRun env.L (env.clock.skip 10) context = .ok run ∧
      run.tasks = capabilityTasks env.L blueprint := by
  obtain ⟨context, metadata, blueprint, hprepare, hm, hb, hcaps⟩ :=
    prepareExecution_run env h hmessage w
  obtain ⟨run, hrun, -, htasks⟩ := initializeRun_prepared env.L (env.clock.skip 10) context hm hb
  have hne : blueprint.requiredRuntimeCapabilities ≠ [] := by
    rw [hcaps]
    exact capabilitiesOf_ne_nil _
  refine ⟨context, blueprint, run, hprepare, hcaps, hrun, ?_⟩
  rw [htasks, buildExecutionTasks, if_pos hne]

/-- A V2 chat of an admitted payload with a message dispatches a provider task, which lists
    models. -/
theorem v2ExecuteChat_run (env : RuntimeEnv) (services : Services δ ρ) {payload : Payload}
    {user : User} {organizationId : Int} (conversationId : Option Int)
    (h : Admitted env payload user organizationId) {message : String}
    (hmessage : payload.message = some message) (w : World δ) :
    ∃ context run task completed, task.requiredCapability = "provider" ∧
      (prepareExecution env payload user organizationId).run w = .ok context
        { w with runs := governedEvents env payload user organizationId :: w.runs } ∧
      (v2ExecuteChat env services payload user organizationId conversationId).run w =
        (answerChat env services payload user organizationId context completed task.taskId).run
          { w with
            runs := (governedEvents env payload user organizationId ++
              [.published run, .dispatched payload user organizationId task]) :: w.runs } := by
  obtain ⟨context, blueprint, run, hprepare, -, hrun, htasks⟩ :=
    initializeRun_message env h hmessage w
  obtain ⟨task, -, hcapability, htask⟩ := selectDispatchTask_provider env.L blueprint
  rw [← htasks] at htask
  refine ⟨context, run, task, fun result => completedRun context run task result
    (chatTransitions (env.clock.skip 10) run task), hcapability, hprepare, ?_⟩
  unfold v2ExecuteChat answerChat
  rw [EStateM.run_bind, hprepare]
  dsimp only
  rw [executeChat_eq hrun htask]
  unfold dispatchChat answerTask
  rw [resolvesNatively_provider env.L hcapability]
  simp only [nativeExecute, if_true, bind_assoc, pure_bind]
  rw [EStateM.run_bind, record_run]
  dsimp only
  rw [EStateM.run_bind, record_run]
  simp only [recordIn_cons, List.append_assoc, List.cons_append, List.nil_append]

/-- V1 answers the chat, and V2 answers alike: with the same response, leaving the same
    conversation and message rows, which `rows` reads off a database. -/
def AnswersAlike (env : RuntimeEnv) (services : Services δ ρ) (payload : Payload) (user : User)
    (organizationId : Int) (conversationId : Option Int) (rows : δ → κ) (w : World δ) : Prop :=
  ∃ response db w',
    (v1ExecuteChat services payload user organizationId conversationId).run w.db =
      .ok response db ∧
    (v2ExecuteChat env services payload user organizationId conversationId).run w =
      .ok (.response response) w' ∧
    rows w'.db = rows db

/-- No reply of a V2 chat run is a chat response. -/
theorem v2ExecuteChat_ne_response (env : RuntimeEnv) (services : Services δ ρ)
    (payload : Payload) (user : User) (organizationId : Int) (conversationId : Option Int)
    {w w' : World δ} {response : ρ} :
    (v2ExecuteChat env services payload user organizationId conversationId).run w ≠
      .ok (.response response) w' := by
  intro hrun
  obtain ⟨names, hnames⟩ := v2ExecuteChat_models env services payload user organizationId
    conversationId w _ w' hrun
  cases hnames

/-- Services whose chats return at once, over a database that is not used. -/
def quietServices : Services Unit Unit where
  createChat := fun _ _ _ => pure ()
  continueChat := fun _ _ _ _ => pure ()
  regenerateResponse := fun _ _ _ _ => pure ()
  retryFailedMessage := fun _ _ _ _ => pure ()
  streamNewChat := fun _ _ _ db => (⟨["event: done\n"], .ok ()⟩, db)
  streamContinueChat := fun _ _ _ _ db => (⟨["event: done\n"], .ok ()⟩, db)
  listModels := fun _ => pure []
  executeCapability := fun _ _ _ _ _ _ => pure .none
  recordAnalysis := fun _ _ _ _ => pure ()

def quietRuntime : RuntimeEnv where
  L := Lower.asciiOnly
  config := {}
  clock := sampleClock
  requestId := "request"
  traceId := "trace"
  executionId := "execution"

def emptyWorld : World Unit where
  db := ()
  yielded := []
  runs := []

/-- A V2 request for a new chat. -/
def helloChat : Payload :=
  .create { message := "Hello", runtimeVersion := "AgentCorp V2", agentId := 1 }

/-- V1 answers this request and governance allows it, but V2 does not answer alike. -/
theorem helloChat_not_answersAlike :
    (v1ExecuteChat quietServices helloChat ⟨9, true, false⟩ 1 none).run () = .ok () () ∧
    (govern {} helloChat ⟨9, true, false⟩ { id := 1 } "AgentCorp V2").decision.allowed ∧
    ¬ AnswersAlike quietRuntime quietServices helloChat ⟨9, true, false⟩ 1 none id emptyWorld := by
  refine ⟨rfl, by decide, ?_⟩
  rintro ⟨response, db, w', -, hrun, -⟩
  exact v2ExecuteChat_ne_response _ _ _ _ _ _ hrun

/-- **Chat.** V2 never answers a chat as V1 does: what it returns is a list of models. -/
theorem v2_chat_never_refines (env : RuntimeEnv) (services : Services δ ρ) (payload : Payload)
    (user : User) (organizationId : Int) (conversationId : Option Int) (rows : δ → κ)
    (w : World δ) :
    ¬ AnswersAlike env services payload user organizationId conversationId rows w := by
  rintro ⟨response, db, w', -, hrun, -⟩
  exact v2ExecuteChat_ne_response env services payload user organizationId conversationId hrun

/-! ## Streams -/

/-- The dispatcher forwards V1's stream for a task that resolves to the streaming runtime, or
    to no native one. -/
def forwards (L : Lower) (task : ExecutionTask) : Bool :=
  match resolvesNatively L task with
  | some metadata => metadata.capabilityId = "streaming"
  | none => true

theorem dispatchStream_run (env : RuntimeEnv) (services : Services δ ρ) (payload : Payload)
    (user : User) (organizationId : Int) (conversationId : Option Int) (task : ExecutionTask)
    (context : ExecutionContext) (w : World δ) :
    (dispatchStream env services payload user organizationId conversationId task context).run w =
      if forwards env.L task then
        (forward (v1ExecuteStream services payload user organizationId conversationId)).run
          { w with runs := recordIn (.dispatched payload user organizationId task) w.runs }
      else .error (.exception .notImplemented)
          { w with runs := recordIn (.dispatched payload user organizationId task) w.runs } := by
  unfold dispatchStream forwards
  rw [EStateM.run_bind, record_run]
  cases resolvesNatively env.L task with
  | none => rfl
  | some metadata =>
      by_cases hid : metadata.capabilityId = "streaming"
      · simp [hid]
      · simp [hid, Py.raise]

/-- A V2 stream of an admitted payload with a message: the selected task of the message's
    capabilities decides whether V1's stream is forwarded. -/
theorem v2ExecuteStream_run (env : RuntimeEnv) (services : Services δ ρ) {payload : Payload}
    {user : User} {organizationId : Int} (conversationId : Option Int)
    (h : Admitted env payload user organizationId) {message : String}
    (hmessage : payload.message = some message) (w : World δ) :
    ∃ blueprint context run task,
      blueprint.requiredRuntimeCapabilities = capabilitiesOf (normalizeText env.L message) ∧
      selectDispatchTask (capabilityTasks env.L blueprint) "streaming" = .ok task ∧
      (v2ExecuteStream env services payload user organizationId conversationId).run w =
        (dispatchStream env services payload user organizationId conversationId task
          (runningContext context)).run
          { w with
            runs := (governedEvents env payload user organizationId ++ [.published run]) ::
              w.runs } := by
  obtain ⟨context, blueprint, run, hprepare, hcaps, hrun, htasks⟩ :=
    initializeRun_message env h hmessage w
  obtain ⟨provider, hprovider, -⟩ := exists_provider env.L blueprint
  obtain ⟨task, htask⟩ : ∃ task, selectDispatchTask run.tasks "streaming" = .ok task := by
    rw [htasks]
    cases hlist : capabilityTasks env.L blueprint with
    | nil => simp [hlist] at hprovider
    | cons first rest => exact ⟨_, rfl⟩
  refine ⟨blueprint, context, run, task, hcaps, htasks ▸ htask, ?_⟩
  unfold v2ExecuteStream
  rw [EStateM.run_bind, hprepare]
  dsimp only
  rw [executeStream_eq hrun htask, EStateM.run_bind, record_run]
  rfl

/-- The labels of the keyword table are ASCII, so every case table agrees on them. -/
theorem lower_label (L : Lower) {label : String} (h : label ∈ capabilityKeywords.map Prod.fst) :
    L.lower label = asciiLower label ∧ L.lower (asciiLower label) = asciiLower label := by
  have hascii : ∀ label ∈ capabilityKeywords.map Prod.fst, isAscii label ∧
      isAscii (asciiLower label) ∧ asciiLower (asciiLower label) = asciiLower label := by decide
  obtain ⟨hlabel, hlower, hidem⟩ := hascii label h
  exact ⟨L.ascii _ hlabel, by rw [L.ascii _ hlower, hidem]⟩

/-- The labels whose tasks are forwarded: only three of them name no native runtime, or the
    streaming one. -/
theorem forwards_label (L : Lower) (blueprint : ExecutionBlueprint) {label : String}
    (h : label ∈ capabilityKeywords.map Prod.fst) (index : Nat) :
    forwards L (capabilityTask L blueprint label index) =
      decide (label ∈ ["Tool Runtime", "Multi-Agent", "Streaming"]) := by
  have htable : ∀ label ∈ capabilityKeywords.map Prod.fst,
      (match (resolve (asciiLower label)).filter (·.executionMode = .native) with
        | some metadata => decide (metadata.capabilityId = "streaming")
        | none => true) = decide (label ∈ ["Tool Runtime", "Multi-Agent", "Streaming"]) := by
    decide
  obtain ⟨hlower, hlower'⟩ := lower_label L h
  unfold forwards resolvesNatively
  rw [show (capabilityTask L blueprint label index).requiredCapability = L.lower label from rfl,
    hlower, hlower']
  exact htable label h

/-- The messages whose V2 stream is V1's: they mention streaming, or none of the capabilities
    that come before the tools in the keyword table, and a tool or an agent. -/
def Streamable (text : String) : Prop :=
  containsAny text ["stream", "sse"] ∨
    (¬ containsAny text ["memory", "knowledge", "rag", "retrieval", "workflow"] ∧
      containsAny text ["tool", "multi-agent", "collaborative"])

instance (text : String) : Decidable (Streamable text) :=
  inferInstanceAs (Decidable (_ ∨ _))

/-- The capabilities are labels of the table. -/
theorem mem_capabilitiesOf {text label : String} (h : label ∈ capabilitiesOf text) :
    label ∈ capabilityKeywords.map Prod.fst := by
  simp only [capabilitiesOf] at h
  split at h
  · obtain rfl := List.mem_singleton.mp h
    decide
  · obtain ⟨entry, hentry, rfl⟩ := List.mem_map.mp h
    exact List.mem_map.mpr ⟨entry, List.mem_of_mem_filter hentry, rfl⟩

theorem streaming_mem_capabilitiesOf {text : String} :
    "Streaming" ∈ capabilitiesOf text ↔ containsAny text ["stream", "sse"] := by
  simp only [capabilitiesOf]
  split
  · next h =>
      simp only [List.map_eq_nil_iff, List.filter_eq_nil_iff] at h
      have hno := h ("Streaming", ["stream", "sse"]) (by simp [capabilityKeywords])
      simp [hno]
  · simp [capabilityKeywords, List.mem_filter]

/-- The first capability of a message. -/
theorem head_capabilitiesOf (text : String) :
    (capabilitiesOf text).head? =
      some (((capabilityKeywords.find? fun entry => containsAny text entry.2).map Prod.fst).getD
        "Provider") := by
  rw [← List.head?_filter]
  unfold capabilitiesOf
  cases capabilityKeywords.filter fun entry => containsAny text entry.2 <;> rfl

theorem forwards_of_streaming (L : Lower) {task : ExecutionTask}
    (h : task.requiredCapability = "streaming") : forwards L task = true := by
  unfold forwards resolvesNatively
  rw [h, L.ascii _ (by decide)]
  decide

/-- The first task of a capability list is that of its first capability. -/
theorem capabilityTasks_cons (L : Lower) {blueprint : ExecutionBlueprint} {name : String}
    {rest : List String} (hcaps : blueprint.requiredRuntimeCapabilities = name :: rest) :
    ∃ tasks, capabilityTasks L blueprint = capabilityTask L blueprint name 0 :: tasks := by
  simp only [capabilityTasks, hcaps, List.zipIdx_cons, List.map_cons]
  split
  · exact ⟨_, rfl⟩
  · exact ⟨_, rfl⟩

/-- The first label whose keywords occur in a message without streaming keywords. -/
theorem head_streamable {text : String} (hs : ¬ containsAny text ["stream", "sse"]) :
    ((capabilityKeywords.find? fun entry => containsAny text entry.2).map Prod.fst).getD
      "Provider" ∈ ["Tool Runtime", "Multi-Agent", "Streaming"] ↔ Streamable text := by
  have hearly : containsAny text ["memory", "knowledge", "rag", "retrieval", "workflow"] =
      (containsAny text ["memory"] || containsAny text ["knowledge"] ||
        containsAny text ["rag", "retrieval"] || containsAny text ["workflow"]) := by
    simp [containsAny, Bool.or_assoc]
  have hlate : containsAny text ["tool", "multi-agent", "collaborative"] =
      (containsAny text ["tool"] || containsAny text ["multi-agent", "collaborative"]) := by
    simp [containsAny]
  unfold Streamable
  rw [hearly, hlate]
  simp only [capabilityKeywords, List.find?_cons, List.find?_nil, hs]
  -- Row by row: the first row whose keywords occur names the label.
  cases containsAny text ["memory"] with
  | true => simp
  | false =>
      cases containsAny text ["knowledge"] with
      | true => simp
      | false =>
          cases containsAny text ["rag", "retrieval"] with
          | true => simp
          | false =>
              cases containsAny text ["workflow"] with
              | true => simp
              | false =>
                  cases containsAny text ["tool"] with
                  | true => simp
                  | false =>
                      cases containsAny text ["multi-agent", "collaborative"] with
                      | true => simp
                      | false => cases containsAny text ["provider", "model"] <;> simp

/-- The task that a stream of a message dispatches: the streaming one, or the first one where
    the message mentions no streaming. -/
theorem selectDispatchTask_streaming (L : Lower) {blueprint : ExecutionBlueprint} {text : String}
    (hcaps : blueprint.requiredRuntimeCapabilities = capabilitiesOf text) {task : ExecutionTask}
    (htask : selectDispatchTask (capabilityTasks L blueprint) "streaming" = .ok task) :
    if containsAny text ["stream", "sse"] then task.requiredCapability = "streaming"
    else ∃ name rest, capabilitiesOf text = name :: rest ∧
      task = capabilityTask L blueprint name 0 := by
  have hlabels : ∀ label ∈ capabilityKeywords.map Prod.fst, asciiLower label = "streaming" →
      label = "Streaming" := by decide
  have hmem : ∀ t ∈ capabilityTasks L blueprint, t.requiredCapability = "streaming" →
      "Streaming" ∈ capabilitiesOf text := by
    intro t ht hcap
    rcases mem_capabilityTasks L blueprint ht with ⟨label, index, hget, rfl⟩ | rfl
    · have hlabel : label ∈ capabilitiesOf text := hcaps ▸ List.mem_of_getElem? hget
      have hkey := mem_capabilitiesOf hlabel
      rwa [← hlabels label hkey ((lower_label L hkey).1 ▸ hcap)]
    · exact absurd hcap (by simp [providerTask])
  obtain ⟨name, rest, hname⟩ := List.exists_cons_of_ne_nil (capabilitiesOf_ne_nil text)
  obtain ⟨tasks, htasks⟩ := capabilityTasks_cons L (hcaps.trans hname)
  have hselect : ((capabilityTasks L blueprint).find? (·.requiredCapability = "streaming")).getD
      (capabilityTask L blueprint name 0) = task := by
    rw [htasks] at htask ⊢
    exact Except.ok.inj htask
  split
  · next hs =>
      obtain ⟨index, hget⟩ :=
        List.mem_iff_getElem?.mp (hcaps ▸ streaming_mem_capabilitiesOf.mpr hs)
      have hin := capabilityTask_mem L blueprint hget
      have hcap : (capabilityTask L blueprint "Streaming" index).requiredCapability =
          "streaming" := by
        rw [show (capabilityTask L blueprint "Streaming" index).requiredCapability =
          L.lower "Streaming" from rfl, L.ascii _ (by decide)]
        decide
      cases hfind : (capabilityTasks L blueprint).find? (·.requiredCapability = "streaming") with
      | none =>
          have := List.find?_eq_none.mp hfind _ hin
          exact absurd hcap (by simpa using this)
      | some found =>
          obtain rfl : found = task := by simpa [hfind] using hselect
          simpa using List.find?_some hfind
  · next hs =>
      have hnone : (capabilityTasks L blueprint).find? (·.requiredCapability = "streaming") =
          none := by
        refine List.find?_eq_none.mpr fun t ht hcap => hs ?_
        exact streaming_mem_capabilitiesOf.mp (hmem t ht (by simpa using hcap))
      obtain rfl : capabilityTask L blueprint name 0 = task := by simpa [hnone] using hselect
      exact ⟨name, rest, hname, rfl⟩

/-- The selected task of a message is forwarded exactly if the message is streamable. -/
theorem forwards_iff (L : Lower) {blueprint : ExecutionBlueprint} {text : String}
    (hcaps : blueprint.requiredRuntimeCapabilities = capabilitiesOf text) {task : ExecutionTask}
    (htask : selectDispatchTask (capabilityTasks L blueprint) "streaming" = .ok task) :
    forwards L task ↔ Streamable text := by
  have hselected := selectDispatchTask_streaming L hcaps htask
  by_cases hs : containsAny text ["stream", "sse"]
  · rw [if_pos hs] at hselected
    simp [forwards_of_streaming L hselected, Streamable, hs]
  · rw [if_neg hs] at hselected
    obtain ⟨name, rest, hname, rfl⟩ := hselected
    have hhead := head_capabilitiesOf text
    rw [hname, List.head?_cons, Option.some.injEq] at hhead
    have hkey := mem_capabilitiesOf (hname ▸ List.mem_cons_self)
    rw [forwards_label L blueprint hkey, decide_eq_true_eq, ← head_streamable hs, hhead]

/-- V2 streams as V1 does: the same events, and the same end. -/
def StreamsAlike (env : RuntimeEnv) (services : Services δ ρ) (payload : Payload) (user : User)
    (organizationId : Int) (conversationId : Option Int) (w : World δ) : Prop :=
  let v1 := forward (v1ExecuteStream services payload user organizationId conversationId)
  let v2 := v2ExecuteStream env services payload user organizationId conversationId
  (Proc.after v2 w).yielded = (Proc.after v1 w).yielded ∧ Proc.outcome v2 w = Proc.outcome v1 w

/-- An admitted stream is V1's exactly if its message is streamable, or V1's raises
    `NotImplementedError` before its first event. -/
theorem streamsAlike_iff (env : RuntimeEnv) (services : Services δ ρ) {payload : Payload}
    {user : User} {organizationId : Int} (conversationId : Option Int)
    (h : Admitted env payload user organizationId) {message : String}
    (hmessage : payload.message = some message) (w : World δ) :
    StreamsAlike env services payload user organizationId conversationId w ↔
      Streamable (normalizeText env.L message) ∨
      (v1ExecuteStream services payload user organizationId conversationId w.db).1 =
        ⟨[], .error (.exception .notImplemented)⟩ := by
  obtain ⟨blueprint, context, run, task, hcaps, htask, hstream⟩ :=
    v2ExecuteStream_run env services conversationId h hmessage w
  rw [dispatchStream_run] at hstream
  rw [← forwards_iff env.L hcaps htask]
  unfold StreamsAlike
  dsimp only
  rw [forward_outcome, forward_after]
  cases hforwards : forwards env.L task with
  | true =>
      rw [hforwards, if_pos rfl] at hstream
      rw [Proc.after_congr hstream, Proc.outcome_congr hstream, forward_after, forward_outcome]
      simp
  | false =>
      rw [hforwards, if_neg (by simp)] at hstream
      rw [Proc.after_of_error hstream, Proc.outcome_of_error hstream]
      generalize (v1ExecuteStream services payload user organizationId conversationId w.db).1 = v1
      obtain ⟨events, ending⟩ := v1
      simp [eq_comm]

/-- Asking for tools, a message is answered by V1's stream. -/
def toolsStream : Payload :=
  .streaming { message := "Use a tool", runtimeVersion := "AgentCorp V2", agentId := some 1 }

/-- Without a keyword the Provider is required, and its native runtime cannot stream. -/
def helloStream : Payload :=
  .streaming { message := "Hello", runtimeVersion := "AgentCorp V2", agentId := some 1 }

/-- Governance allows this request and V1 streams an event for it, which V2 does not. -/
theorem helloStream_not_streamsAlike :
    (govern {} helloStream ⟨9, true, false⟩ { id := 1 } "AgentCorp V2").decision.allowed ∧
    ¬ StreamsAlike quietRuntime quietServices helloStream ⟨9, true, false⟩ 1 none emptyWorld := by
  refine ⟨by decide, ?_⟩
  have hadmitted : Admitted quietRuntime helloStream ⟨9, true, false⟩ 1 := fun _ => by decide
  have hmessage : helloStream.message = some "Hello" := rfl
  rw [streamsAlike_iff quietRuntime quietServices none hadmitted hmessage]
  rintro (h | h)
  · exact absurd h (by decide)
  · exact absurd (congrArg StreamRun.events h) (by decide)

/-- **Streams.** For every streaming request that governance lets through, V2 yields V1's
    events and ends as V1 does exactly if the normalized message is streamable, or V1's own
    stream raises `NotImplementedError` before its first event. -/
theorem v2_stream_refines_iff (env : RuntimeEnv) (services : Services δ ρ)
    (request : StreamingChatRequest) (user : User) (organizationId : Int)
    (conversationId : Option Int) (w : World δ)
    (h : Admitted env (.streaming request) user organizationId) :
    StreamsAlike env services (.streaming request) user organizationId conversationId w ↔
      Streamable (normalizeText env.L request.message) ∨
      (v1ExecuteStream services (.streaming request) user organizationId conversationId w.db).1 =
        ⟨[], .error (.exception .notImplemented)⟩ :=
  streamsAlike_iff env services conversationId h rfl w

theorem toolsStream_streamsAlike :
    StreamsAlike quietRuntime quietServices toolsStream ⟨9, true, false⟩ 1 none emptyWorld :=
  (v2_stream_refines_iff quietRuntime quietServices
    { message := "Use a tool", runtimeVersion := "AgentCorp V2", agentId := some 1 }
    ⟨9, true, false⟩ 1 none emptyWorld fun _ => by decide).mpr (Or.inl (by decide))

end AgentCorp.Runtime
