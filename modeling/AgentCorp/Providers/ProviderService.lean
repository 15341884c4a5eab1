/-
  `ProviderService`: one provider by its name, or one after the other until one answers.

  The state is a `ProviderWorld`: that of the providers, and which of their methods the service
  has invoked, under the key of the provider in the registry.

  * `failover_invoked`: a failover invokes providers of its list only.
  * `streamChat_coroutine`: a provider whose `stream_chat` is a coroutine is relayed exactly.
  * `streamChat_exact_iff`: one whose `stream_chat` is an async generator is not, unless it
    raises the `TypeError` of the `await` itself, before its first chunk.
-/
import AgentCorp.Providers.ProviderManager

namespace AgentCorp.Providers

open AgentCorp.Python AgentCorp.Chat
open AgentCorp.Streaming (Usage StreamChunk ChunkStream)

variable {δ α : Type}

/-! ## Invocations -/

inductive ProviderMethod where
  | chat | streamChat | embeddings | listModels
  deriving DecidableEq, Repr

structure Invocation where
  provider : String
  method : ProviderMethod
  deriving DecidableEq, Repr

structure ProviderWorld (δ : Type) where
  state : δ
  invoked : List Invocation

/-- A procedure that invokes no provider. -/
def onState (p : Py δ α) : Py (ProviderWorld δ) α := fun w =>
  match p.run w.state with
  | .ok a state => .ok a { w with state := state }
  | .error raised state => .error raised { w with state := state }

/-- A method of a provider, invoked. -/
def invoke (key : String) (method : ProviderMethod) (call : Py δ α) :
    Py (ProviderWorld δ) α := do
  modify fun w => { w with invoked := w.invoked ++ [⟨key, method⟩] }
  onState call

/-! ## ProviderService -/

structure ProviderService (δ : Type) where
  manager : ProviderManager δ
  defaultProvider : String

/-- `ProviderService.__init__`. -/
def ProviderService.init (manager : ProviderManager δ) (defaultProvider : Option String) :
    ProviderService δ where
  manager := manager
  defaultProvider := (nonempty defaultProvider).getD manager.settings.defaultProvider

inductive ProviderMode where
  | auto | manual | agentDefault
  deriving DecidableEq, Repr

namespace ProviderService

variable (service : ProviderService δ)

/-- `provider_name or self.default_provider`. -/
def resolved (providerName : Option String) : String :=
  (nonempty providerName).getD service.defaultProvider

/-- The attempt with one provider. `none` is one that is skipped. -/
def attempt (supports : BaseProvider δ → Bool) (method : ProviderMethod)
    (call : BaseProvider δ → Py δ α) (name : String) : Py (ProviderWorld δ) (Option α) := do
  let provider ← Py.ofResult (service.manager.getProvider name)
  if supports provider then some <$> invoke (service.manager.key name) method (call provider)
  else return none

/-- What a failed attempt adds to the errors. -/
def collectError (name : String) (errors : List String) :
    BaseExn → Py (ProviderWorld δ) (Option α × List String)
  | .exception exc => pure (none, errors ++ [name ++ ": " ++ exc.text])
  | raised => throw raised

/-- The loop over the failover order: the first answer, or what all the errors amount to. -/
def failover (supports : BaseProvider δ → Bool) (method : ProviderMethod)
    (call : BaseProvider δ → Py δ α) (failed : String) :
    List String → List String → Py (ProviderWorld δ) α
  | [], errors => Py.raise (.other "ProviderError" (failed ++ "; ".intercalate errors))
  | name :: rest, errors => do
      let (answer, errors) ← tryCatch
        ((fun answer => (answer, errors)) <$> service.attempt supports method call name)
        (collectError name errors)
      match answer with
      | some a => return a
      | none => failover supports method call failed rest errors

/-- One request, with the provider that `mode` says. -/
def execute (supports : BaseProvider δ → Bool) (method : ProviderMethod)
    (call : BaseProvider δ → Py δ α) (failed : String) (providerName : Option String)
    (mode : ProviderMode) : Py (ProviderWorld δ) α :=
  let preferred := service.resolved providerName
  if mode = .manual then do
    let provider ← Py.ofResult (service.manager.getProvider preferred)
    invoke (service.manager.key preferred) method (call provider)
  else
    match service.manager.getFailoverOrder preferred with
    | [] => Py.raise (.other "ProviderConfigurationError"
        "No AI Providers are configured and available in the system.")
    | order => service.failover supports method call failed order []

def chat (request : ChatRequest) (providerName : Option String) (mode : ProviderMode) :
    Py (ProviderWorld δ) ChatResponse :=
  service.execute (fun provider => request.tools = [] || provider.supportsTools) .chat
    (·.chat request) "All configured providers failed to execute chat request. Errors: "
    providerName mode

def embeddings (request : EmbeddingRequest) (providerName : Option String)
    (mode : ProviderMode) : Py (ProviderWorld δ) EmbeddingResponse :=
  service.execute (·.supportsEmbeddings) .embeddings (·.embeddings request)
    "All configured providers failed to execute embeddings request. Errors: " providerName mode

def listModels (providerName : Option String) : Py (ProviderWorld δ) (List String) := do
  let name := service.resolved providerName
  let provider ← Py.ofResult (service.manager.getProvider name)
  invoke (service.manager.key name) .listModels provider.listModels

/-! ### stream_chat -/

/-- The provider that a stream is asked of, after the checks. -/
def streamProvider (providerName : Option String) : Except Exn (BaseProvider δ) := do
  let name := service.resolved providerName
  if service.manager.getConfiguredProviders = [] then
    throw (.other "ProviderConfigurationError"
      "No AI Providers are configured and available in the system.")
  let provider ← service.manager.getProvider name
  if provider.supportsStreaming then return provider
  else throw (.other "ProviderConfigurationError"
    ("Provider '" ++ name ++ "' does not support streaming."))

/-- `async for chunk in iterator: yield chunk`. -/
def relay : List StreamChunk → Except BaseExn Unit → ChunkStream
  | [], ending => { chunks := [], ending := ending }
  | chunk :: rest, ending =>
      let relayed := relay rest ending
      { relayed with chunks := chunk :: relayed.chunks }

/-- `async for chunk in await call: yield chunk`. -/
def relayCall (call : StreamCall) : ChunkStream :=
  match call.await with
  | .ok iterator => relay iterator.chunks iterator.ending
  | .error raised => { chunks := [], ending := .error raised }

/-- `ProviderService.stream_chat`, consumed to its end. -/
def streamChat (request : ChatRequest) (providerName : Option String) : ChunkStream :=
  match service.streamProvider providerName with
  | .ok provider => relayCall (provider.streamChat request)
  | .error exc => { chunks := [], ending := .error (.exception exc) }

/-- What is invoked where a provider is found, and where none is. -/
def invocationsOf (found : Except Exn (BaseProvider δ)) (provider : String)
    (method : ProviderMethod) : List Invocation :=
  match found with
  | .ok _ => [⟨provider, method⟩]
  | .error _ => []

/-- What a listing of models invokes. -/
def listInvocations (providerName : Option String) : List Invocation :=
  let name := service.resolved providerName
  invocationsOf (service.manager.getProvider name) (service.manager.key name) .listModels

/-- What a stream invokes. -/
def streamInvocations (providerName : Option String) : List Invocation :=
  invocationsOf (service.streamProvider providerName)
    (service.manager.key (service.resolved providerName)) .streamChat

end ProviderService

/-! ## What is invoked -/

/-- All that is invoked from `w` to `w'` satisfies `P`. -/
def Invokes (P : Invocation → Prop) (w w' : ProviderWorld δ) : Prop :=
  ∃ later, w'.invoked = w.invoked ++ later ∧ ∀ invocation ∈ later, P invocation

theorem Invokes.of_eq {P : Invocation → Prop} {w w' : ProviderWorld δ}
    (h : w'.invoked = w.invoked) : Invokes P w w' :=
  ⟨[], by rw [h, List.append_nil], by simp⟩

instance (P : Invocation → Prop) : IsPreorder (ProviderWorld δ) (Invokes P) where
  refl _ := .of_eq rfl
  trans w₁ w₂ w₃ h₁ h₂ := by
    obtain ⟨earlier, hw₂, hearlier⟩ := h₁
    obtain ⟨later, hw₃, hlater⟩ := h₂
    refine ⟨earlier ++ later, by rw [hw₃, hw₂, List.append_assoc], fun invocation hin => ?_⟩
    rcases List.mem_append.mp hin with h | h
    · exact hearlier invocation h
    · exact hlater invocation h

theorem onState_invoked (p : Py δ α) (w : ProviderWorld δ) :
    (Proc.after (onState p) w).invoked = w.invoked := by
  unfold Proc.after EStateM.run onState
  cases p.run w.state <;> rfl

/-- An invocation is in the log, however it ends. -/
theorem invoke_invoked (key : String) (method : ProviderMethod) (call : Py δ α)
    (w : ProviderWorld δ) :
    (Proc.after (invoke key method call) w).invoked = w.invoked ++ [⟨key, method⟩] := by
  unfold invoke
  rw [Proc.after_bind]
  exact onState_invoked call _

namespace ProviderService

variable (service : ProviderService δ)

/-- The invocations of one method, of the providers that some names stand for. -/
def InvokesOf (method : ProviderMethod) (names : List String) : Invocation → Prop :=
  fun invocation => invocation.method = method ∧
    ∃ name ∈ names, invocation.provider = service.manager.key name

theorem invoke_within (method : ProviderMethod) {name : String} {names : List String}
    (hname : name ∈ names) (call : Py δ α) :
    Proc.Within (Invokes (service.InvokesOf method names))
      (invoke (service.manager.key name) method call) := by
  intro w
  refine ⟨[⟨service.manager.key name, method⟩], invoke_invoked _ _ _ _, fun invocation hin => ?_⟩
  rw [List.mem_singleton.mp hin]
  exact ⟨rfl, name, hname, rfl⟩

theorem attempt_within (supports : BaseProvider δ → Bool) (method : ProviderMethod)
    (call : BaseProvider δ → Py δ α) {name : String} {names : List String}
    (hname : name ∈ names) :
    Proc.Within (Invokes (service.InvokesOf method names))
      (service.attempt supports method call name) := by
  unfold attempt
  cases service.manager.getProvider name with
  | error exc => exact Proc.Within.throw _
  | ok provider =>
      rw [Py.ofResult_ok_bind]
      split
      · intro w
        rw [Proc.after_map]
        exact service.invoke_within method hname (call provider) w
      · exact Proc.Within.pure _

/-- **Failover.** Whatever fails, only providers of the list are invoked. -/
theorem failover_invoked (supports : BaseProvider δ → Bool) (method : ProviderMethod)
    (call : BaseProvider δ → Py δ α) (failed : String) {names : List String} (order : List String)
    (horder : ∀ name ∈ order, name ∈ names) (errors : List String) :
    Proc.Within (Invokes (service.InvokesOf method names))
      (service.failover supports method call failed order errors) := by
  induction order generalizing errors with
  | nil => exact Proc.Within.throw _
  | cons name rest ih =>
      have hname : name ∈ names := horder name List.mem_cons_self
      have hrest : ∀ name ∈ rest, name ∈ names :=
        fun name h => horder name (List.mem_cons_of_mem _ h)
      unfold failover
      refine Proc.Within.bind (Proc.Within.tryCatch ?_ fun raised => ?_) fun ⟨answer, errors⟩ => ?_
      · intro w
        rw [Proc.after_map]
        exact service.attempt_within supports method call hname w
      · cases raised <;> first | exact Proc.Within.pure _ | exact Proc.Within.throw _
      · cases answer with
        | some a => exact Proc.Within.pure _
        | none => exact ih hrest errors

/-- With any pattern of failures, a chat that is not MANUAL invokes configured providers only. -/
theorem chat_invoked (request : ChatRequest) (providerName : Option String) {mode : ProviderMode}
    (hmode : mode ≠ .manual) :
    Proc.Within
      (Invokes (service.InvokesOf .chat service.manager.getConfiguredProviders))
      (service.chat request providerName mode) := by
  unfold chat execute
  simp only [if_neg hmode]
  cases horder : service.manager.getFailoverOrder (service.resolved providerName) with
  | nil => exact Proc.Within.throw _
  | cons name rest =>
      refine service.failover_invoked _ _ _ _ (name :: rest) (fun other hother => ?_) []
      rw [← horder] at hother
      exact service.manager.mem_getFailoverOrder.mp hother

theorem listModels_invoked (providerName : Option String) (w : ProviderWorld δ) :
    (Proc.after (service.listModels providerName) w).invoked =
      w.invoked ++ service.listInvocations providerName := by
  unfold listModels listInvocations
  dsimp only
  cases service.manager.getProvider (service.resolved providerName) with
  | error exc =>
      rw [Py.ofResult_error_bind]
      exact (List.append_nil _).symm
  | ok provider =>
      rw [Py.ofResult_ok_bind]
      exact invoke_invoked _ _ _ w

/-! ## Streams -/

theorem relay_eq (chunks : List StreamChunk) (ending : Except BaseExn Unit) :
    relay chunks ending = { chunks := chunks, ending := ending } := by
  induction chunks with
  | nil => rfl
  | cons chunk rest ih =>
      unfold relay
      rw [ih]

/-- A provider whose `stream_chat` is a coroutine for an iterator is relayed exactly. -/
theorem streamChat_coroutine {providerName : Option String} {provider : BaseProvider δ}
    (hprovider : service.streamProvider providerName = .ok provider) {request : ChatRequest}
    {stream : ChunkStream} (h : provider.streamChat request = .coroutine (.ok stream)) :
    service.streamChat request providerName = stream := by
  unfold streamChat relayCall
  simp only [hprovider, h, StreamCall.await, relay_eq]

/-- An async generator is never iterated: the `await` before it raises. -/
theorem streamChat_asyncGenerator {providerName : Option String} {provider : BaseProvider δ}
    (hprovider : service.streamProvider providerName = .ok provider) {request : ChatRequest}
    {stream : ChunkStream} (h : provider.streamChat request = .asyncGenerator stream) :
    service.streamChat request providerName =
      { chunks := [], ending := .error (.exception awaitTypeError) } := by
  unfold streamChat relayCall
  simp only [hprovider, h, StreamCall.await]

end ProviderService

section Example

/-- A provider with one stream, as an async generator. -/
def generatorProvider (stream : ChunkStream) : BaseProvider Unit where
  supportsTools := true
  supportsStreaming := true
  supportsEmbeddings := false
  chat request := pure ⟨request.model, { role := .assistant, content := "" }, none, none, []⟩
  streamChat _ := .asyncGenerator stream
  embeddings _ := Py.raise (.other "ProviderModelNotSupportedError"
    "Groq does not support text embeddings.")
  listModels := pure ["llama3-8b-8192"]

/-- The service with Groq as its only provider. -/
def groqService (provider : BaseProvider Unit) : ProviderService Unit where
  manager :=
    { L := Lower.asciiOnly
      settings := { groqApiKey := "key", ollamaBaseUrl := "" }
      registry := [("groq", .ok provider)] }
  defaultProvider := "groq"

def helloRequest : ChatRequest where
  messages := [{ role := .user, content := "hi" }]
  stream := true

def helloStream : ChunkStream where
  chunks := [{ token := "Hello", model := "llama3-8b-8192" },
    { index := 1, finishReason := some "stop", model := "llama3-8b-8192" }]
  ending := .ok ()

end Example

theorem groqService_streamProvider :
    (groqService (generatorProvider helloStream)).streamProvider none =
      .ok (generatorProvider helloStream) := by rfl

/-- A stream of two chunks arrives as none. -/
theorem helloStream_not_relayed :
    (groqService (generatorProvider helloStream)).streamProvider none =
        .ok (generatorProvider helloStream) ∧
      (generatorProvider helloStream).streamChat helloRequest = .asyncGenerator helloStream ∧
      (groqService (generatorProvider helloStream)).streamChat helloRequest none ≠
        helloStream := by
  refine ⟨groqService_streamProvider, rfl, fun h => ?_⟩
  rw [ProviderService.streamChat_asyncGenerator _ groqService_streamProvider rfl] at h
  exact absurd (congrArg ChunkStream.chunks h) (by decide)

/-- **Streaming.** The service yields what an async generator yields, and ends as it does,
    exactly if the generator ends before its first chunk in the `TypeError` that the service
    raises for every async generator. -/
theorem streamChat_exact_iff (service : ProviderService δ) {providerName : Option String}
    {provider : BaseProvider δ} (hprovider : service.streamProvider providerName = .ok provider)
    {request : ChatRequest} {stream : ChunkStream}
    (hconforms : provider.streamChat request = .asyncGenerator stream) :
    service.streamChat request providerName = stream ↔
      stream.chunks = [] ∧ stream.ending = .error (.exception awaitTypeError) := by
  rw [service.streamChat_asyncGenerator hprovider hconforms]
  constructor
  · rintro rfl
    exact ⟨rfl, rfl⟩
  · obtain ⟨chunks, ending⟩ := stream
    rintro ⟨rfl, rfl⟩
    rfl

theorem helloStream_exact_iff :
    (groqService (generatorProvider helloStream)).streamChat helloRequest none = helloStream ↔
      helloStream.chunks = [] ∧ helloStream.ending = .error (.exception awaitTypeError) :=
  streamChat_exact_iff _ groqService_streamProvider rfl

end AgentCorp.Providers
