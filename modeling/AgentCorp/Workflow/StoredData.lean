/-
  What the nodes of a workflow read: memories, and the vectors and chunks of knowledge bases.

  The configuration of a node is free-form JSON. Its `kb_id` becomes a part of the text of a
  statement, so what the database makes of it is a parameter (`SearchSql`): an integer names
  the table of a knowledge base, and other values may name no table, or be SQL of their own.

  * `retrieveFor_int`: with arguments of the declared types, `RAGService.retrieve_context`.
-/
import AgentCorp.Memory.MemoryService
import AgentCorp.Rag.Histories
import AgentCorp.Workflow.WorkflowService

namespace AgentCorp.Workflows

open AgentCorp.Python AgentCorp.Knowledge AgentCorp.Rag AgentCorp.Memories AgentCorp.Tools

/-- The tables that nodes read, and the organization of each knowledge base. -/
structure TenantDb (V : Type) where
  organizationOf : Nat → Option Int
  rag : RagDb V
  memories : Table Memory
  placed : Placed rag

variable {V : Type}

/-- Chunk ids with their similarities and metadata. -/
abbrev Candidates := List (Nat × Rat × VectorMetadata)

/-- What follows `FROM kb_embeddings_` in the statement of a search. -/
inductive SearchTarget (V : Type) where
  | table (kbId : Nat)
  | missing (exc : Exn)
  | other (select : TenantDb V → V → Json → Except Exn Candidates)

/-- What the database makes of the values in the statement of a search. -/
structure SearchSql (V : Type) where
  target : (kbId : Json) → SearchTarget V
  target_int : ∀ kbId : Nat, target (.int kbId) = .table kbId
  limit : (topK : Json) → Except Exn (Option Nat)
  limit_int : ∀ topK : Int, limit (.int topK) =
    if topK < 0 then .error (.other "DataError" "LIMIT must not be negative")
    else .ok (some topK.toNat)

/-- What the executions of a workflow have in common, whatever is stored. Embeddings and tools
    answer alike in all of them. -/
structure StoreEnv (V : Type) where
  L : Lower
  T : TextTables
  E : Embeddings V
  S : VectorSearch V
  sql : SearchSql V
  round : Rat → Rat
  now : Nat → Nat → Rat
  requestError : Nat → Nat → Exn
  tool : Nat → Nat → ToolEnv
  toolLatency : Nat → Nat → Rat
  executionId : Int
  organizationId : Int
  agentId : Int

/-! ## RAGService.retrieve_context, for any values -/

/-- `query.strip().lower()`, embedded. -/
def embedQuery (env : StoreEnv V) : Json → Except Exn V
  | .str query => env.E.generateEmbedding (rewriteQuery env.L query)
  | value => .error (.attributeError ("'" ++ value.typeName ++ "' object has no attribute 'strip'"))

/-- `PGVectorStore.search`. -/
def retrieveCandidates (env : StoreEnv V) (s : TenantDb V) (kbId : Json) (vector : V)
    (topK : Json) : Except Exn Candidates :=
  match env.sql.target kbId with
  | .table kbId =>
      match s.rag.tables kbId with
      | none => .error (missingTable kbId)
      | some table => env.sql.limit topK >>= searchTable env.E env.S table vector
  | .missing exc => .error exc
  | .other select => select s vector topK

/-- `token_count > max_tokens`. -/
def exceeds (tokenCount : Int) (maxTokens : Json) : Except Exn Bool :=
  match maxTokens.asNumber with
  | some n => .ok (n < tokenCount)
  | none => .error (.typeError ("'>' not supported between instances of 'int' and '" ++
      maxTokens.typeName ++ "'"))

/-- The loop of `ChunkSelector.select_chunks`. -/
def selectWithin (maxTokens : Json) (tokenCount : Int) : List (Nat × Rat) → Except Exn (List Nat)
  | [] => .ok []
  | (chunkId, _) :: rest => do
      if ← exceeds (tokenCount + 200) maxTokens then return []
      else return chunkId :: (← selectWithin maxTokens (tokenCount + 200) rest)

/-- `RAGService.retrieve_context`. -/
def retrieveFor (env : StoreEnv V) (s : TenantDb V) (kbId query topK maxTokens : Json) :
    Except Exn String := do
  let vector ← embedQuery env query
  let candidates ← retrieveCandidates env s kbId vector topK
  let ranked ← sliceJson (rankCandidates candidates) topK
  let selected ← selectWithin maxTokens 0 ranked
  return formatContext (serveChunks s.rag.db selected)

theorem selectWithin_int (maxTokens tokenCount : Int) (ranked : List (Nat × Rat)) :
    selectWithin (.int maxTokens) tokenCount ranked =
      .ok (selectFrom maxTokens tokenCount ranked) := by
  induction ranked generalizing tokenCount with
  | nil => rfl
  | cons entry rest ih =>
      have hexceeds : exceeds (tokenCount + 200) (.int maxTokens) =
          .ok (decide (tokenCount + 200 > maxTokens)) := by
        show Except.ok (decide ((maxTokens : Rat) < ((tokenCount + 200 : Int) : Rat))) = _
        simp only [Int.cast_lt, gt_iff_lt]
      unfold selectWithin selectFrom
      rw [hexceeds, ih]
      by_cases hover : tokenCount + 200 > maxTokens
      · rw [decide_eq_true hover, if_pos hover]
        rfl
      · rw [decide_eq_false hover, if_neg hover]
        rfl

theorem selectWithin_subset {maxTokens : Json} {tokenCount : Int} {ranked : List (Nat × Rat)}
    {selected : List Nat} (h : selectWithin maxTokens tokenCount ranked = .ok selected) :
    ∀ c ∈ selected, c ∈ ranked.map (·.1) := by
  induction ranked generalizing tokenCount selected with
  | nil =>
      obtain rfl := Except.ok.inj h
      exact fun c hc => hc
  | cons entry rest ih =>
      unfold selectWithin at h
      obtain ⟨stop, -, h⟩ := Proc.bind_ok h
      cases stop with
      | true =>
          obtain rfl := Except.ok.inj h
          exact fun c hc => absurd hc List.not_mem_nil
      | false =>
          obtain ⟨others, hrest, h⟩ := Proc.bind_ok h
          obtain rfl := Except.ok.inj h
          intro c hc
          rcases List.mem_cons.mp hc with rfl | hother
          · exact List.mem_cons_self
          · exact List.mem_cons_of_mem _ (ih hrest c hother)

/-- **Values of the declared types** are those of the service. -/
theorem retrieveFor_int (env : StoreEnv V) (s : TenantDb V) (kbId : Nat) (query : String)
    (topK maxTokens : Int) :
    retrieveFor env s (.int kbId) (.str query) (.int topK) (.int maxTokens) =
      retrieveContext env.E env.S env.L s.rag kbId query topK maxTokens := by
  have hsearch : ∀ vector, retrieveCandidates env s (.int kbId) vector (.int topK) =
      search env.E env.S s.rag kbId vector topK := by
    intro vector
    unfold retrieveCandidates search
    rw [env.sql.target_int]
    dsimp only
    rw [env.sql.limit_int]
    cases s.rag.tables kbId with
    | none => rfl
    | some table =>
        dsimp only
        split <;> rfl
  unfold retrieveFor retrieveContext retrieveChunks
  show (env.E.generateEmbedding (rewriteQuery env.L query) >>= _) = _
  cases env.E.generateEmbedding (rewriteQuery env.L query) with
  | error exc => rfl
  | ok vector =>
      show (retrieveCandidates env s (.int kbId) vector (.int topK) >>= _) =
        formatContext <$> (search env.E env.S s.rag kbId vector topK >>= _)
      rw [hsearch]
      cases search env.E env.S s.rag kbId vector topK with
      | error exc => rfl
      | ok candidates =>
          show (selectWithin (.int maxTokens) 0 (takeSlice (rankCandidates candidates) topK) >>=
            _) = _
          rw [selectWithin_int]
          rfl

/-! ## The services of a node -/

/-- A memory, as a node lists it. -/
def memoryHit (entry : Nat × Memory) : MemoryHit where
  id := entry.1
  title := some entry.2.title
  content := entry.2.content

/-- What an attempt of a node meets, with this store. -/
def StoreEnv.services (env : StoreEnv V) (s : TenantDb V) (index used : Nat) : NodeServices where
  retrieveMemories := fun _ topK =>
    ((·.map memoryHit) <$> retrieveMemories env.round s.memories (env.now index used)
      env.organizationId env.agentId topK).mapError .exception
  retrieveContext := fun kbId query topK maxTokens =>
    (retrieveFor env s kbId query topK maxTokens).mapError .exception
  requestError := env.requestError index used
  tool := env.tool index used
  toolLatency := env.toolLatency index used

def StoreEnv.workflowEnv (env : StoreEnv V) (s : TenantDb V) : WorkflowEnv where
  L := env.L
  T := env.T
  services := env.services s
  executionId := env.executionId
  organizationId := env.organizationId
  agentId := env.agentId

end AgentCorp.Workflows
