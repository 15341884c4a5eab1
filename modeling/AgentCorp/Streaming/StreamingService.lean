/-
  `StreamingService._execute_stream`.

  A `StreamEnv` says how everything that the generator meets turns out: the reads and writes
  of the message table, the services, the provider's stream, and at which of its events the
  consumer closes it. A close is a `GeneratorExit` raised at that `yield`, after the event was
  handed over; a cancellation is raised at an await, that is, by the services or the provider.

  * `prepareRequest_run`: what the steps before the stream leave, by their outcomes.
  * `consumeStream_run`: what the provider's stream yields, and how it ends for the consumer.
-/
import AgentCorp.Chat.Prompt
import AgentCorp.Runtime.Payload
import AgentCorp.Streaming.StreamEvents

namespace AgentCorp.Streaming

open AgentCorp.Python AgentCorp.Chat
open AgentCorp.Runtime (StreamingChatRequest)

/-! ## What the generator meets -/

structure Usage where
  promptTokens : Int := 0
  completionTokens : Int := 0
  totalTokens : Int := 0
  deriving DecidableEq, Repr

structure StreamChunk where
  token : String := ""
  index : Int := 0
  finishReason : Option String := none
  usage : Option Usage := none
  model : String := ""
  deriving DecidableEq, Repr

/-- The provider's stream: its chunks, and whether it is exhausted or raises after them. -/
structure ChunkStream where
  chunks : List StreamChunk
  ending : Except BaseExn Unit

/-- The attributes of an agent that a stream reads. -/
structure Agent where
  id : Int
  systemPrompt : String
  modelName : String
  temperature : Rat
  maxTokens : Int
  deriving DecidableEq, Repr

structure Conversation where
  id : Int
  organizationId : Int
  deriving DecidableEq, Repr

structure StreamEnv where
  L : Lower
  collaborators : Collaborators
  readHistory : Except Exn Unit
  userWrite : WriteOutcome
  assistantWrite : WriteOutcome
  streamChat : ChatRequest → Option String → ChunkStream
  /-- The consumer closes the generator at its `n`-th event, counted from zero. -/
  closes : Nat → Bool
  now : Nat → Instant
  elapsed : Rat

/-- What a stream does that others can see. -/
structure StreamState where
  rows : List Message
  counterOps : List CounterOp
  yielded : List StreamEvent

/-- A call of the repository. -/
def onRows {α : Type} (p : Py (List Message) α) : Py StreamState α := fun s =>
  match p.run s.rows with
  | .ok a rows => .ok a { s with rows := rows }
  | .error raised rows => .error raised { s with rows := rows }

/-- A call of one of the counter functions. -/
def count (op : CounterOp) : Py StreamState Unit :=
  modify fun s => { s with counterOps := s.counterOps ++ [op] }

/-- `yield`: the event is handed over, and the consumer goes on or closes the generator. -/
def yieldEvent (env : StreamEnv) (event : Instant → StreamEvent) : Py StreamState Unit := fun s =>
  let n := s.yielded.length
  let s' := { s with yielded := s.yielded ++ [event (env.now n)] }
  if env.closes n then .error .generatorExit s' else .ok () s'

/-! ## The runtime context -/

/-- `_ServiceUserProxy()`: it has no `id`. -/
def serviceUserProxy : ServiceUserProxy where
  id := none
  isSuperuser := true

/-- `_discover_tool_metadata`. -/
def discoverToolMetadata (services : Collaborators) (agentId organizationId : Int) :
    List ToolMetadata :=
  toolMetadataFor serviceUserProxy services agentId organizationId

/-- `_retrieve_memory_context`. -/
def retrieveMemoryContext (services : Collaborators) (organizationId agentId : Int)
    (query : String) : Except BaseExn (Option String) :=
  memoryContextOf 5 services organizationId agentId query

/-- `_retrieve_knowledge_context`. -/
def retrieveKnowledgeContext (services : Collaborators) (organizationId : Int) (query : String) :
    Except BaseExn (Option String) :=
  knowledgeContextOf 5 2000 services organizationId query

/-- `_format_tool_context`. -/
def formatToolContext (toolMetadata : List ToolMetadata) : Option String :=
  toolContextOf toolMetadata

/-- `_to_provider_tool_definitions`. -/
def toProviderToolDefinitions (toolMetadata : List ToolMetadata) : List ToolDefinition :=
  toolDefinitionsOf toolMetadata

/-- `_build_runtime_context`: the tools are discovered first. -/
def buildRuntimeContext (services : Collaborators) (organizationId agentId : Int)
    (userMessage : String) : Except BaseExn RuntimeContext := do
  let toolMetadata := discoverToolMetadata services agentId organizationId
  let memoryContext ← retrieveMemoryContext services organizationId agentId userMessage
  let knowledgeContext ← retrieveKnowledgeContext services organizationId userMessage
  return {
    memoryContext := memoryContext
    knowledgeContext := knowledgeContext
    toolContext := formatToolContext toolMetadata
    tools := toProviderToolDefinitions toolMetadata }

/-! ## Before the stream -/

/-- The text of a string, or a default where it is missing or empty. -/
def textOr (value : Option String) (default : String) : String :=
  (nonempty value).getD default

/-- The request for the provider. -/
def streamRequest (payload : StreamingChatRequest) (agent : Agent) (context : List ChatMessage)
    (runtimeContext : RuntimeContext) : ChatRequest where
  model := textOr payload.model agent.modelName
  messages := buildPrompt agent.systemPrompt context payload.message runtimeContext.memoryContext
    runtimeContext.knowledgeContext runtimeContext.toolContext
  temperature := payload.temperature.getD agent.temperature
  maxTokens := some (((payload.maxTokens.filter (· ≠ 0)).map Int.ofNat).getD agent.maxTokens)
  topP := payload.topP
  stream := true
  tools := runtimeContext.tools

/-- Steps 1 to 3: the history, the services, the user's message and the prompt. -/
def prepareRequest (env : StreamEnv) (payload : StreamingChatRequest) (conversation : Conversation)
    (agent : Agent) : Py StreamState ChatRequest := do
  Py.ofResult env.readHistory
  let s ← get
  let context := buildContext env.L (getByConversation s.rows conversation.id)
  let runtimeContext ← Proc.ofExcept
    (buildRuntimeContext env.collaborators conversation.organizationId agent.id payload.message)
  let _ ← onRows (createUserMessage env.userWrite conversation.id payload.message)
  Py.ofResult (streamRequest payload agent context runtimeContext).checked

/-! ## The provider's chunks -/

/-- The local variables of the loop. -/
structure StreamLocals where
  collectedTokens : List String
  tokensSent : Int
  finishReason : String
  finalUsage : Option (Dict Int)
  providerUsed : String
  modelUsed : String
  deriving DecidableEq, Repr

namespace StreamLocals

def start (payload : StreamingChatRequest) (agent : Agent) : StreamLocals where
  collectedTokens := []
  tokensSent := 0
  finishReason := "stop"
  finalUsage := none
  providerUsed := textOr payload.provider "auto"
  modelUsed := textOr payload.model agent.modelName

/-- The model of a chunk with a token, and the provider that its name starts with. -/
def useModel (l : StreamLocals) (model : String) : StreamLocals :=
  if model = "" then l
  else
    { l with
      modelUsed := model
      providerUsed :=
        if '/' ∈ model.toList then String.ofList (model.toList.takeWhile (· ≠ '/'))
        else l.providerUsed }

/-- A chunk with a token is collected and counted. -/
def collect (l : StreamLocals) (chunk : StreamChunk) : StreamLocals :=
  if chunk.token = "" then l
  else
    { l with
      collectedTokens := l.collectedTokens ++ [chunk.token]
      tokensSent := l.tokensSent + 1 }.useModel chunk.model

/-- The finish reason and the usage of a chunk replace the earlier ones. -/
def note (l : StreamLocals) (chunk : StreamChunk) : StreamLocals :=
  { l with
    finishReason := textOr chunk.finishReason l.finishReason
    finalUsage :=
      match chunk.usage with
      | some usage => some
          [("prompt_tokens", usage.promptTokens), ("completion_tokens", usage.completionTokens),
            ("total_tokens", usage.totalTokens)]
      | none => l.finalUsage }

end StreamLocals

/-- One chunk: a token is yielded. -/
def forwardChunk (env : StreamEnv) (l : StreamLocals) (chunk : StreamChunk) :
    Py StreamState StreamLocals := do
  let l := l.collect chunk
  if chunk.token ≠ "" then
    yieldEvent env fun now => .token chunk.token chunk.index l.providerUsed l.modelUsed now
  return l.note chunk

/-- The chunks in order. -/
def consume (env : StreamEnv) : StreamLocals → List StreamChunk → Py StreamState StreamLocals
  | l, [] => pure l
  | l, chunk :: rest => do
      let l ← forwardChunk env l chunk
      consume env l rest

/-- `async for chunk in stream`, to its end. -/
def consumeStream (env : StreamEnv) (l : StreamLocals) (stream : ChunkStream) :
    Py StreamState StreamLocals := do
  let l ← consume env l stream.chunks
  Proc.ofExcept stream.ending
  return l

/-- The handlers around the loop. Both return from the generator. -/
def handleInterrupt (env : StreamEnv) : BaseExn → Py StreamState (Option StreamLocals)
  | .generatorExit => do
      count .cancelled
      count .decrement
      return none
  | .exception exc => do
      count .failed
      count .decrement
      yieldEvent env fun now => .error exc.text "provider_streaming_error" now
      return none
  | raised => throw raised

/-- Steps 4 and 5: `none` where the generator returns. -/
def receiveTokens (env : StreamEnv) (l : StreamLocals) (stream : ChunkStream) :
    Py StreamState (Option StreamLocals) :=
  tryCatch (some <$> consumeStream env l stream) (handleInterrupt env)

/-! ## After the stream -/

/-- The assistant's message. -/
def assistantMessage (conversation : Conversation) (l : StreamLocals) : Message where
  conversationId := conversation.id
  role := "assistant"
  content := String.join l.collectedTokens
  provider := some l.providerUsed
  modelUsed := some l.modelUsed
  finishReason := some l.finishReason
  promptTokens := l.finalUsage.bind (·.lookup "prompt_tokens")
  completionTokens := l.finalUsage.bind (·.lookup "completion_tokens")
  totalTokens := l.finalUsage.bind (·.lookup "total_tokens")

/-- Step 6. -/
def finishStream (env : StreamEnv) (conversation : Conversation) (l : StreamLocals) :
    Py StreamState Unit := do
  let _ ← onRows (create env.assistantWrite (assistantMessage conversation l))
  count (.completed env.elapsed l.tokensSent)
  count .decrement
  yieldEvent env fun _ => .done l.finishReason l.finalUsage env.elapsed l.tokensSent

/-- Steps 1 to 6. -/
def streamSteps (env : StreamEnv) (payload : StreamingChatRequest) (conversation : Conversation)
    (agent : Agent) : Py StreamState Unit := do
  let request ← prepareRequest env payload conversation agent
  let received ← receiveTokens env (.start payload agent) (env.streamChat request payload.provider)
  match received with
  | some l => finishStream env conversation l
  | none => return ()

/-- The outer handlers. -/
def handleFailure (env : StreamEnv) : BaseExn → Py StreamState Unit
  | .exception (.http statusCode detail) => do
      count .decrement
      throw (.exception (.http statusCode detail))
  | .exception _ => do
      count .failed
      count .decrement
      yieldEvent env fun now =>
        .error "An unexpected error occurred during streaming." "internal_error" now
  | raised => throw raised

/-- `StreamingService._execute_stream`. -/
def executeStream (env : StreamEnv) (payload : StreamingChatRequest) (conversation : Conversation)
    (agent : Agent) : Py StreamState Unit := do
  count .increment
  tryCatch (streamSteps env payload conversation agent) (handleFailure env)

/-! ## One step -/

@[simp] theorem count_run (op : CounterOp) (s : StreamState) :
    (count op).run s = .ok () { s with counterOps := s.counterOps ++ [op] } := rfl

theorem yieldEvent_run (env : StreamEnv) (event : Instant → StreamEvent) (s : StreamState) :
    (yieldEvent env event).run s =
      let s' := { s with yielded := s.yielded ++ [event (env.now s.yielded.length)] }
      if env.closes s.yielded.length then .error .generatorExit s' else .ok () s' := rfl

theorem onRows_run {α : Type} (p : Py (List Message) α) (s : StreamState) :
    (onRows p).run s =
      match p.run s.rows with
      | .ok a rows => .ok a { s with rows := rows }
      | .error raised rows => .error raised { s with rows := rows } := rfl

theorem onRows_create_run (outcome : WriteOutcome) (message : Message) (s : StreamState) :
    (onRows (create outcome message)).run s =
      match outcome.result with
      | .ok () => .ok message { s with rows := s.rows ++ [message] }
      | .error exc => .error (.exception exc)
          { s with rows := s.rows ++ if outcome.stored then [message] else [] } := by
  rw [onRows_run, create_run]
  cases outcome.result <;> rfl

/-- The event is handed over, whatever the consumer does then. -/
theorem yieldEvent_after (env : StreamEnv) (event : Instant → StreamEvent) (s : StreamState) :
    Proc.after (yieldEvent env event) s =
      { s with yielded := s.yielded ++ [event (env.now s.yielded.length)] } := by
  unfold Proc.after
  rw [yieldEvent_run]
  cases env.closes s.yielded.length <;> rfl

/-! ## Before the stream -/

section Prepare

variable (env : StreamEnv) (payload : StreamingChatRequest) (conversation : Conversation)
  (agent : Agent)

/-- How the steps before the stream turn out. -/
def prepared (rows : List Message) : Except BaseExn ChatRequest := do
  env.readHistory.mapError .exception
  let runtimeContext ←
    buildRuntimeContext env.collaborators conversation.organizationId agent.id payload.message
  env.userWrite.result.mapError .exception
  let context := buildContext env.L (getByConversation rows conversation.id)
  (streamRequest payload agent context runtimeContext).checked.mapError .exception

/-- A write, and what is computed after it. -/
theorem storeThen_run (outcome : WriteOutcome) (message : Message)
    (checked : Except Exn ChatRequest) (s : StreamState) :
    ∃ added, (∀ m ∈ added, m = message) ∧
      match (do
        outcome.result.mapError BaseExn.exception
        checked.mapError BaseExn.exception : Except BaseExn ChatRequest) with
      | .ok request =>
          added = [message] ∧
          (onRows (create outcome message) >>= fun _ => Py.ofResult checked).run s =
            .ok request { s with rows := s.rows ++ added }
      | .error raised =>
          (onRows (create outcome message) >>= fun _ => Py.ofResult checked).run s =
            .error raised { s with rows := s.rows ++ added } := by
  have hwrite := onRows_create_run outcome message s
  rw [EStateM.run_bind, hwrite]
  cases outcome.result with
  | error exc =>
      refine ⟨if outcome.stored then [message] else [], fun m hm => ?_, rfl⟩
      split at hm
      · exact List.mem_singleton.mp hm
      · exact absurd hm List.not_mem_nil
  | ok _ =>
      refine ⟨[message], fun m hm => List.mem_singleton.mp hm, ?_⟩
      cases checked with
      | error exc => rfl
      | ok request => exact ⟨rfl, rfl⟩

/-- They store no message but the user's, and that one if they succeed. -/
theorem prepareRequest_run (s : StreamState) :
    ∃ added, (∀ message ∈ added, message = userMessage conversation.id payload.message) ∧
      match prepared env payload conversation agent s.rows with
      | .ok request =>
          added = [userMessage conversation.id payload.message] ∧
          (prepareRequest env payload conversation agent).run s =
            .ok request { s with rows := s.rows ++ added }
      | .error raised =>
          (prepareRequest env payload conversation agent).run s =
            .error raised { s with rows := s.rows ++ added } := by
  unfold prepared prepareRequest
  cases env.readHistory with
  | error exc =>
      refine ⟨[], by simp, ?_⟩
      rw [List.append_nil]
      rfl
  | ok _ =>
      simp only [Py.ofResult_ok_bind]
      cases buildRuntimeContext env.collaborators conversation.organizationId agent.id
          payload.message with
      | error raised =>
          refine ⟨[], by simp, ?_⟩
          rw [List.append_nil]
          rfl
      | ok runtimeContext => exact storeThen_run env.userWrite _ _ s

end Prepare

/-! ## The provider's chunks -/

/-- The tokens of the chunks that have one. -/
def tokens (chunks : List StreamChunk) : List String :=
  (chunks.map StreamChunk.token).filter (· ≠ "")

/-- The local variables after all chunks. -/
def StreamLocals.after (l : StreamLocals) (chunks : List StreamChunk) : StreamLocals :=
  chunks.foldl (fun l chunk => (l.collect chunk).note chunk) l

theorem tokens_cons_empty {chunk : StreamChunk} (h : chunk.token = "")
    (rest : List StreamChunk) : tokens (chunk :: rest) = tokens rest := by
  simp [tokens, h]

theorem tokens_cons {chunk : StreamChunk} (h : chunk.token ≠ "") (rest : List StreamChunk) :
    tokens (chunk :: rest) = chunk.token :: tokens rest := by
  simp [tokens, h]

theorem collect_tokens (l : StreamLocals) {chunk : StreamChunk} (h : chunk.token ≠ "") :
    (l.collect chunk).collectedTokens = l.collectedTokens ++ [chunk.token] ∧
      (l.collect chunk).tokensSent = l.tokensSent + 1 := by
  unfold StreamLocals.collect StreamLocals.useModel
  rw [if_neg h]
  split <;> exact ⟨rfl, rfl⟩

/-- The loop collects and counts exactly the tokens. -/
theorem after_collected (chunks : List StreamChunk) (l : StreamLocals) :
    (l.after chunks).collectedTokens = l.collectedTokens ++ tokens chunks ∧
      (l.after chunks).tokensSent = l.tokensSent + (tokens chunks).length := by
  induction chunks generalizing l with
  | nil => simp [StreamLocals.after, tokens]
  | cons chunk rest ih =>
      have hafter : l.after (chunk :: rest) = ((l.collect chunk).note chunk).after rest := rfl
      have hnote :
          ((l.collect chunk).note chunk).collectedTokens = (l.collect chunk).collectedTokens ∧
          ((l.collect chunk).note chunk).tokensSent = (l.collect chunk).tokensSent := ⟨rfl, rfl⟩
      obtain ⟨hcollected, hsent⟩ := ih ((l.collect chunk).note chunk)
      rw [hafter, hcollected, hsent, hnote.1, hnote.2]
      by_cases htoken : chunk.token = ""
      · rw [tokens_cons_empty htoken, StreamLocals.collect, if_pos htoken]
        exact ⟨rfl, rfl⟩
      · obtain ⟨htokens, hcount⟩ := collect_tokens l htoken
        rw [tokens_cons htoken, htokens, hcount, List.length_cons, List.append_assoc]
        refine ⟨rfl, ?_⟩
        push_cast
        omega

/-- The token of a token event. -/
def StreamEvent.tokenText : StreamEvent → Option String
  | .token text _ _ _ _ => some text
  | _ => none

/-- The consumer closes the generator at one of the `k` events from the `n`-th on. -/
def ClosesIn (env : StreamEnv) (n k : Nat) : Prop :=
  ∃ i < k, env.closes (n + i)

theorem closesIn_succ {env : StreamEnv} {n k : Nat} :
    ClosesIn env n (k + 1) ↔ env.closes n ∨ ClosesIn env (n + 1) k := by
  constructor
  · rintro ⟨i, hi, hcloses⟩
    cases i with
    | zero => exact .inl hcloses
    | succ i => exact .inr ⟨i, by omega, by rwa [show n + 1 + i = n + (i + 1) by omega]⟩
  · rintro (hcloses | ⟨i, hi, hcloses⟩)
    · exact ⟨0, by omega, hcloses⟩
    · exact ⟨i + 1, by omega, by rwa [show n + (i + 1) = n + 1 + i by omega]⟩

/-- The chunks yield token events, all of them if the consumer does not close at one. -/
theorem consume_run (env : StreamEnv) (chunks : List StreamChunk) (l : StreamLocals)
    (s : StreamState) :
    ∃ events : List StreamEvent, (∀ event ∈ events, event.tokenText.isSome) ∧
      ((¬ ClosesIn env s.yielded.length (tokens chunks).length ∧
          events.filterMap StreamEvent.tokenText = tokens chunks ∧
          (consume env l chunks).run s =
            .ok (l.after chunks) { s with yielded := s.yielded ++ events }) ∨
        (ClosesIn env s.yielded.length (tokens chunks).length ∧
          (consume env l chunks).run s =
            .error .generatorExit { s with yielded := s.yielded ++ events })) := by
  induction chunks generalizing l s with
  | nil =>
      refine ⟨[], by simp, .inl ⟨?_, rfl, ?_⟩⟩
      · rintro ⟨i, hi, -⟩
        simp [tokens] at hi
      · rw [List.append_nil]
        rfl
  | cons chunk rest ih =>
      have hafter : l.after (chunk :: rest) = ((l.collect chunk).note chunk).after rest := rfl
      by_cases htoken : chunk.token = ""
      · -- Nothing is yielded, and nothing collected.
        obtain ⟨events, hevents, hrest⟩ := ih ((l.collect chunk).note chunk) s
        have hrun : (consume env l (chunk :: rest)).run s =
            (consume env ((l.collect chunk).note chunk) rest).run s := by
          simp only [consume, forwardChunk, htoken, ne_eq, not_true_eq_false, if_false]
          rfl
        rw [tokens_cons_empty htoken, hafter, hrun]
        exact ⟨events, hevents, hrest⟩
      · obtain ⟨event, htext, hrun⟩ : ∃ event : Instant → StreamEvent,
            (∀ now, (event now).tokenText = some chunk.token) ∧
            (consume env l (chunk :: rest)).run s =
              (yieldEvent env event >>= fun _ =>
                consume env ((l.collect chunk).note chunk) rest).run s := by
          refine ⟨fun now => .token chunk.token chunk.index (l.collect chunk).providerUsed
            (l.collect chunk).modelUsed now, fun _ => rfl, ?_⟩
          simp only [consume, forwardChunk, ne_eq, htoken, not_false_eq_true, if_true, bind_assoc,
            pure_bind]
        have hsome : (event (env.now s.yielded.length)).tokenText.isSome := by rw [htext]; rfl
        rw [tokens_cons htoken, List.length_cons, closesIn_succ, hafter, hrun, EStateM.run_bind,
          yieldEvent_run]
        dsimp only
        cases hcloses : env.closes s.yielded.length with
        | true =>
            refine ⟨[event (env.now s.yielded.length)], ?_, .inr ⟨.inl rfl, rfl⟩⟩
            intro event' hevent'
            rwa [List.mem_singleton.mp hevent']
        | false =>
            simp only [Bool.false_eq_true, if_false, false_or]
            obtain ⟨events, hevents, hrest⟩ := ih ((l.collect chunk).note chunk)
              { s with yielded := s.yielded ++ [event (env.now s.yielded.length)] }
            rw [List.length_append, List.length_singleton] at hrest
            refine ⟨event (env.now s.yielded.length) :: events,
              List.forall_mem_cons.mpr ⟨hsome, hevents⟩, ?_⟩
            simp only [List.append_assoc, List.singleton_append] at hrest
            rcases hrest with ⟨hopen, htokens, hrest⟩ | ⟨hclosed, hrest⟩
            · refine .inl ⟨hopen, ?_, hrest⟩
              rw [List.filterMap_cons, htext, htokens]
            · exact .inr ⟨hclosed, hrest⟩

/-- A stream that the consumer does not close ends as the provider's does. -/
theorem consumeStream_run (env : StreamEnv) (l : StreamLocals) (stream : ChunkStream)
    (s : StreamState) :
    ∃ events : List StreamEvent, (∀ event ∈ events, event.tokenText.isSome) ∧
      ((ClosesIn env s.yielded.length (tokens stream.chunks).length ∧
          (consumeStream env l stream).run s =
            .error .generatorExit { s with yielded := s.yielded ++ events }) ∨
        (¬ ClosesIn env s.yielded.length (tokens stream.chunks).length ∧
          events.filterMap StreamEvent.tokenText = tokens stream.chunks ∧
          (consumeStream env l stream).run s =
            match stream.ending with
            | .ok () => .ok (l.after stream.chunks) { s with yielded := s.yielded ++ events }
            | .error raised => .error raised { s with yielded := s.yielded ++ events })) := by
  obtain ⟨events, hevents, ⟨hopen, htokens, hrun⟩ | ⟨hclosed, hrun⟩⟩ :=
    consume_run env stream.chunks l s
  · refine ⟨events, hevents, .inr ⟨hopen, htokens, ?_⟩⟩
    unfold consumeStream
    rw [EStateM.run_bind, hrun]
    cases stream.ending <;> rfl
  · refine ⟨events, hevents, .inl ⟨hclosed, ?_⟩⟩
    unfold consumeStream
    rw [EStateM.run_bind, hrun]

end AgentCorp.Streaming
