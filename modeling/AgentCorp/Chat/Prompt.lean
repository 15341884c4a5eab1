/-
  From the history of a conversation to the request that the provider is sent.

  What the memory and knowledge services and the repositories of the tool service answer is a
  parameter (`Collaborators`): each may be missing, return anything, or raise. An exception of
  theirs is logged and skipped; anything else that is raised at one of their awaits is not. The
  chat and the streaming service each have helpers of their own for the runtime context; what
  the helpers share is defined here, with the values in which they could differ as parameters.

  * `discoverAgentTools_user`: discovery does not look at the user that it is given.
  * `memoryContextOf_error`, `knowledgeContextOf_error`: what they can raise is no `Exception`.
-/
import AgentCorp.Chat.Messages
import AgentCorp.Python.Text
import AgentCorp.Tools.ToolRegistry

namespace AgentCorp.Chat

open AgentCorp.Python
open AgentCorp.Tools (AgentTool ToolRow)

/-! ## The request schemas -/

inductive MessageRole where
  | system | user | assistant | tool
  deriving DecidableEq, Repr

structure ChatMessage where
  role : MessageRole
  content : String
  name : Option String := none
  toolCallId : Option String := none
  deriving DecidableEq, Repr

structure ToolParameter where
  type : String
  description : Option String := none
  enum : Option (List String) := none
  deriving DecidableEq, Repr

structure ToolDefinition where
  name : String
  description : String
  parameters : Dict ToolParameter := []
  required : List String := []
  deriving DecidableEq, Repr

structure ChatRequest where
  model : String := "default"
  messages : List ChatMessage
  temperature : Rat := 7 / 10
  maxTokens : Option Int := none
  topP : Option Rat := none
  stream : Bool := false
  tools : List ToolDefinition := []
  toolChoice : Option String := none
  stop : Option (List String) := none
  deriving DecidableEq, Repr

/-- The bounds that the constructor of `ChatRequest` checks. -/
def ChatRequest.checked (request : ChatRequest) : Except Exn ChatRequest :=
  if 0 ≤ request.temperature ∧ request.temperature ≤ 2 ∧ (request.maxTokens.all (0 < ·)) ∧
      (request.topP.all fun p => 0 ≤ p ∧ p ≤ 1) then .ok request
  else .error (.other "ValidationError" "validation error for ChatRequest")

/-! ## ContextBuilder and PromptBuilder -/

/-- `MessageRole(value)`. -/
def MessageRole.ofValue (value : String) : Option MessageRole :=
  [("system", system), ("user", user), ("assistant", assistant), ("tool", tool)].lookup value

/-- `ContextBuilder.build_context`. An unknown role counts as the user's. -/
def buildContext (L : Lower) (messages : List Message) : List ChatMessage :=
  messages.map fun message =>
    { role := (MessageRole.ofValue (L.lower message.role)).getD .user
      content := message.content }

/-- The text of an optional section, if it is not empty. -/
def nonempty (text : Option String) : Option String :=
  text.filter (· ≠ "")

/-- `PromptBuilder._format_supplemental_context`. -/
def formatSupplementalContext (memoryContext knowledgeContext toolContext : Option String) :
    String :=
  "\n\n".intercalate
    (((nonempty memoryContext).map ("Relevant memory:\n" ++ ·)).toList ++
      ((nonempty knowledgeContext).map ("Retrieved knowledge:\n" ++ ·)).toList ++
      ((nonempty toolContext).map ("Available tools:\n" ++ ·)).toList)

/-- A system message, if there is a text for it. -/
def systemMessage (content : String) : List ChatMessage :=
  if content = "" then [] else [{ role := .system, content := content }]

/-- `PromptBuilder.build_prompt`. -/
def buildPrompt (systemPrompt : String) (history : List ChatMessage) (newUserMessage : String)
    (memoryContext knowledgeContext toolContext : Option String) : List ChatMessage :=
  systemMessage systemPrompt ++
    systemMessage (formatSupplementalContext memoryContext knowledgeContext toolContext) ++
    history ++ [{ role := .user, content := newUserMessage }]

/-! ## The runtime context -/

structure Memory where
  title : Option String
  content : String
  deriving DecidableEq, Repr

structure KnowledgeBase where
  id : Int
  name : String
  deriving DecidableEq, Repr

/-- The fields of a tool's metadata that a request carries, and the id that discovery writes. -/
structure ToolMetadata where
  id : Int := 0
  name : String
  description : String
  properties : Dict ToolParameter
  required : List String
  deriving DecidableEq, Repr

/-- A `_ServiceUserProxy`. The `id` is `none` where the proxy has no such attribute, and
    `some none` where the attribute is `None`. -/
structure ServiceUserProxy where
  id : Option (Option Int)
  isSuperuser : Bool
  deriving DecidableEq, Repr

/-- What discovery reads: the assignments of an agent, the tools, and what is registered under
    a name. The reads of the two repositories may raise. -/
structure ToolExecutionService where
  getByAgent : (agentId : Int) → Except Exn (List AgentTool)
  getTool : (toolId : Int) → Except Exn (Option ToolRow)
  registry : Dict ToolMetadata

namespace ToolExecutionService

/-- The loop over the assignments. `sync_db_id` changes no more of an entry than its id, and
    does so before the entry is read. -/
def discoverFrom (service : ToolExecutionService) :
    List AgentTool → Except Exn (List ToolMetadata)
  | [] => return []
  | assignment :: rest => do
      match ← service.getTool assignment.toolId with
      | none => discoverFrom service rest
      | some dbTool =>
          match service.registry.lookup dbTool.name with
          | none => discoverFrom service rest
          | some metadata =>
              let toolsMeta ← discoverFrom service rest
              return { metadata with id := dbTool.id } :: toolsMeta

/-- `discover_agent_tools`. Neither the organization nor the user is looked at. -/
def discoverAgentTools (service : ToolExecutionService) (agentId _organizationId : Int)
    (_currentUser : ServiceUserProxy) : Except Exn (List ToolMetadata) := do
  let assignments ← service.getByAgent agentId
  service.discoverFrom assignments

theorem discoverAgentTools_user (service : ToolExecutionService) (agentId organizationId : Int)
    (currentUser other : ServiceUserProxy) :
    service.discoverAgentTools agentId organizationId currentUser =
      service.discoverAgentTools agentId organizationId other := rfl

end ToolExecutionService

/-- What the services answer; `none` is a service that is not there. `retrieveMemories` is asked
    for an organization, an agent, a query and `top_k`, and `retrieveContext` for a knowledge
    base, a query, `top_k` and `max_tokens`. -/
structure Collaborators where
  toolExecutionService : Option ToolExecutionService
  retrieveMemories : Option ((orgId agentId : Int) → (query : String) → (topK : Int) →
    Except BaseExn (List Memory))
  listKnowledgeBases : Option ((organizationId : Int) → Except Exn (List KnowledgeBase))
  retrieveContext : Option ((kbId : Int) → (query : String) → (topK maxTokens : Int) →
    Except BaseExn String)

structure RuntimeContext where
  memoryContext : Option String
  knowledgeContext : Option String
  toolContext : Option String
  tools : List ToolDefinition
  deriving DecidableEq, Repr

/-- `try: … except Exception:` with a value to go on with. -/
def orElse {α : Type} (r : Except BaseExn α) (default : α) : Except BaseExn α :=
  match r with
  | .error (.exception _) => .ok default
  | r => r

/-- `_discover_tool_metadata`, as a given user. -/
def toolMetadataFor (currentUser : ServiceUserProxy) (services : Collaborators)
    (agentId organizationId : Int) : List ToolMetadata :=
  match services.toolExecutionService with
  | none => []
  | some service =>
      match service.discoverAgentTools agentId organizationId currentUser with
      | .ok tools => tools
      | .error _ => []

/-- The line of one memory. -/
def memoryLine (memory : Memory) : String :=
  match nonempty memory.title with
  | some title => "- " ++ title ++ ": " ++ memory.content
  | none => "- " ++ memory.content

/-- `_retrieve_memory_context`, with `top_k`. -/
def memoryContextOf (topK : Int) (services : Collaborators) (organizationId agentId : Int)
    (query : String) : Except BaseExn (Option String) :=
  match services.retrieveMemories with
  | none => .ok none
  | some retrieve => do
      let memories ← orElse (retrieve organizationId agentId query topK) []
      return if memories = [] then none else some ("\n".intercalate (memories.map memoryLine))

/-- The context of one knowledge base, where there is one. -/
def knowledgeSection (knowledgeBase : KnowledgeBase) (context : String) : List String :=
  if context = "" then [] else ["Knowledge base: " ++ knowledgeBase.name ++ "\n" ++ context]

/-- `_retrieve_knowledge_context`, with `top_k` and `max_tokens`. -/
def knowledgeContextOf (topK maxTokens : Int) (services : Collaborators) (organizationId : Int)
    (query : String) : Except BaseExn (Option String) :=
  match services.listKnowledgeBases, services.retrieveContext with
  | some list, some retrieve =>
      match list organizationId with
      | .error _ => .ok none
      | .ok knowledgeBases => do
          let contexts ← knowledgeBases.mapM fun knowledgeBase => do
            let context ← orElse (retrieve knowledgeBase.id query topK maxTokens) ""
            return knowledgeSection knowledgeBase context
          return if contexts.flatten = [] then none else some ("\n\n".intercalate contexts.flatten)
  | _, _ => .ok none

/-- `_format_tool_context`. -/
def toolContextOf (tools : List ToolMetadata) : Option String :=
  if tools = [] then none
  else some ("\n".intercalate (tools.map fun tool => "- " ++ tool.name ++ ": " ++ tool.description))

/-- `_to_provider_tool_definitions`. -/
def toolDefinitionsOf (tools : List ToolMetadata) : List ToolDefinition :=
  tools.map fun tool =>
    { name := tool.name
      description := tool.description
      parameters := tool.properties
      required := tool.required }

/-! ## What the services can raise -/

theorem orElse_error {α : Type} {r : Except BaseExn α} {default : α} {raised : BaseExn}
    (h : orElse r default = .error raised) : ∀ exc, raised ≠ .exception exc := by
  rintro exc rfl
  cases r with
  | ok a => cases h
  | error e => cases e <;> simp [orElse] at h

theorem memoryContextOf_error {topK : Int} {services : Collaborators}
    {organizationId agentId : Int} {query : String} {raised : BaseExn}
    (h : memoryContextOf topK services organizationId agentId query = .error raised) :
    ∀ exc, raised ≠ .exception exc := by
  unfold memoryContextOf at h
  split at h
  · cases h
  · rcases Proc.bind_error h with horElse | ⟨_, -, hpure⟩
    · exact orElse_error horElse
    · cases hpure

theorem knowledgeContextOf_error {topK maxTokens : Int} {services : Collaborators}
    {organizationId : Int} {query : String} {raised : BaseExn}
    (h : knowledgeContextOf topK maxTokens services organizationId query = .error raised) :
    ∀ exc, raised ≠ .exception exc := by
  unfold knowledgeContextOf at h
  split at h
  · split at h
    · cases h
    · rcases Proc.bind_error h with hmap | ⟨_, -, hpure⟩
      · obtain ⟨knowledgeBase, -, hone⟩ := Proc.mapM_error hmap
        rcases Proc.bind_error hone with horElse | ⟨_, -, hpure⟩
        · exact orElse_error horElse
        · cases hpure
      · cases hpure
  · cases h

end AgentCorp.Chat
