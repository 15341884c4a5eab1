/-
  Providers: their interface, the registry, and the manager that picks one by its name.

  A provider is what its methods do to a state `δ` (its clients, the network): any procedures.
  `StreamCall` is what calling `stream_chat` hands back, which depends on whether the function
  has a `yield`: an async generator, or a coroutine that must be awaited first.

  * `mem_getFailoverOrder`: the failover order has exactly the configured providers.
-/
import AgentCorp.Streaming.StreamingService

namespace AgentCorp.Providers

open AgentCorp.Python AgentCorp.Chat
open AgentCorp.Streaming (Usage StreamChunk ChunkStream)

variable {δ : Type}

/-! ## Schemas -/

structure ToolCall where
  id : String
  name : String
  arguments : PyDict
  deriving DecidableEq, Repr

/-- A response after `normalize_message`: it always has a message. -/
structure ChatResponse where
  model : String
  message : ChatMessage
  finishReason : Option String := none
  usage : Option Usage := none
  toolCalls : List ToolCall := []
  deriving DecidableEq, Repr

structure EmbeddingRequest where
  model : String
  input : List String
  deriving DecidableEq, Repr

structure EmbeddingVector where
  embedding : List Rat
  index : Int
  deriving DecidableEq, Repr

structure EmbeddingResponse where
  model : String
  data : List EmbeddingVector
  deriving DecidableEq, Repr

/-! ## BaseProvider -/

inductive StreamCall where
  | asyncGenerator (stream : ChunkStream)
  | coroutine (result : Except BaseExn ChunkStream)

/-- What `await` raises on an async generator. -/
def awaitTypeError : Exn :=
  .typeError "object async_generator can't be used in 'await' expression"

/-- `await call`. -/
def StreamCall.await : StreamCall → Except BaseExn ChunkStream
  | .asyncGenerator _ => .error (.exception awaitTypeError)
  | .coroutine result => result

structure BaseProvider (δ : Type) where
  supportsTools : Bool
  supportsStreaming : Bool
  supportsEmbeddings : Bool
  chat : ChatRequest → Py δ ChatResponse
  streamChat : ChatRequest → StreamCall
  embeddings : EmbeddingRequest → Py δ EmbeddingResponse
  listModels : Py δ (List String)

/-! ## The registry and the manager -/

/-- The settings that the providers need. -/
structure Settings where
  defaultProvider : String := "groq"
  groqApiKey : String := ""
  openaiApiKey : String := ""
  anthropicApiKey : String := ""
  geminiApiKey : String := ""
  openrouterApiKey : String := ""
  ollamaBaseUrl : String := "http://localhost:11434"
  deriving DecidableEq, Repr

/-- The setting that each provider needs. -/
def Settings.credentials (settings : Settings) : Dict String :=
  [("groq", settings.groqApiKey), ("gemini", settings.geminiApiKey),
    ("openai", settings.openaiApiKey), ("anthropic", settings.anthropicApiKey),
    ("openrouter", settings.openrouterApiKey), ("ollama", settings.ollamaBaseUrl)]

/-- The manager with what it reads. A registered class is the outcome of instantiating it. -/
structure ProviderManager (δ : Type) where
  L : Lower
  settings : Settings
  registry : Dict (Except Exn (BaseProvider δ))

namespace ProviderManager

variable (manager : ProviderManager δ)

/-- `priority_order`. -/
def priorityOrder : List String :=
  ["groq", "gemini", "openrouter", "openai", "anthropic", "ollama"]

/-- `ProviderRegistry.list_registered`. -/
def listRegistered : List String :=
  manager.registry.map Prod.fst

/-- The key under which the registry looks a name up. The manager lower-cases it first. -/
def key (name : String) : String :=
  manager.L.lower (manager.L.lower name)

def isConfigured (name : String) : Bool :=
  (manager.settings.credentials.lookup (manager.L.lower name)).any (· ≠ "")

def getProvider (name : String) : Except Exn (BaseProvider δ) :=
  match manager.registry.lookup (manager.key name) with
  | none => .error (.other "ProviderNotFoundError" ("AI Provider '" ++ name ++
      "' is not registered."))
  | some provider =>
      if manager.isConfigured (manager.L.lower name) then provider
      else .error (.other "ProviderConfigurationError" ("AI Provider '" ++ name ++
        "' is not configured (missing credentials)."))

def getConfiguredProviders : List String :=
  manager.listRegistered.filter manager.isConfigured

/-- The names of a list that are configured, after those already in the order. -/
def appendConfigured (configured order names : List String) : List String :=
  names.foldl (fun order name =>
    if name ∈ configured ∧ name ∉ order then order ++ [name] else order) order

/-- `get_failover_order`. -/
def getFailoverOrder (preferred : String) : List String :=
  let configured := manager.getConfiguredProviders
  let first :=
    if preferred ≠ "" ∧ manager.L.lower preferred ∈ configured then
      [manager.L.lower preferred]
    else []
  appendConfigured configured (appendConfigured configured first priorityOrder) configured

/-! ## The failover order -/

theorem mem_appendConfigured {configured order names : List String} {name : String} :
    name ∈ appendConfigured configured order names ↔
      name ∈ order ∨ (name ∈ names ∧ name ∈ configured) := by
  unfold appendConfigured
  induction names generalizing order with
  | nil => simp
  | cons first rest ih =>
      rw [List.foldl_cons, ih]
      by_cases hfirst : first ∈ configured ∧ first ∉ order
      · rw [if_pos hfirst, List.mem_append, List.mem_singleton, List.mem_cons]
        constructor
        · rintro ((horder | rfl) | ⟨hrest, hin⟩)
          · exact .inl horder
          · exact .inr ⟨.inl rfl, hfirst.1⟩
          · exact .inr ⟨.inr hrest, hin⟩
        · rintro (horder | ⟨rfl | hrest, hin⟩)
          · exact .inl (.inl horder)
          · exact .inl (.inr rfl)
          · exact .inr ⟨hrest, hin⟩
      · rw [if_neg hfirst, List.mem_cons]
        constructor
        · rintro (horder | ⟨hrest, hin⟩)
          · exact .inl horder
          · exact .inr ⟨.inr hrest, hin⟩
        · rintro (horder | ⟨rfl | hrest, hin⟩)
          · exact .inl horder
          · exact .inl (by_contra fun hnot => hfirst ⟨hin, hnot⟩)
          · exact .inr ⟨hrest, hin⟩

/-- The failover order is a rearrangement of the configured providers. -/
theorem mem_getFailoverOrder {preferred name : String} :
    name ∈ manager.getFailoverOrder preferred ↔ name ∈ manager.getConfiguredProviders := by
  unfold getFailoverOrder
  simp only [mem_appendConfigured]
  constructor
  · rintro ((hfirst | ⟨-, hin⟩) | ⟨-, hin⟩)
    · split at hfirst
      · next h => exact List.mem_singleton.mp hfirst ▸ h.2
      · exact absurd hfirst List.not_mem_nil
    · exact hin
    · exact hin
  · intro hin
    exact .inr ⟨hin, hin⟩

end ProviderManager

end AgentCorp.Providers
