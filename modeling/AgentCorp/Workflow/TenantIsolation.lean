/-
  What the data of other organizations does to the executions of a workflow.

  Two stores hold the same data of an organization (`SameData`) and differ in anything else.
  Memories are listed by organization. A search reads whatever table the configuration of its
  node names, and nothing asks whose knowledge base that is.

  * `retrieveFor_same`: a context of an own knowledge base does not tell the stores apart.
  * `loopBody_same`: neither does a pass whose node searches nothing else.
  * `tenantIsolated_of_scoped`: nor a run of such passes.
-/
import AgentCorp.Rag.DeletedDocuments
import AgentCorp.Workflow.StoredData
import AgentCorp.Workflow.Termination

namespace AgentCorp.Workflows

open AgentCorp.Python AgentCorp.Knowledge AgentCorp.Rag AgentCorp.Memories WhileLoop

variable {V : Type}

/-! ## The requirement -/

/-- A document in a knowledge base of the organization. -/
def OwnDocument (s : TenantDb V) (orgId : Int) (docId : Nat) : Prop :=
  ∃ doc, s.rag.db.documents.get docId = some doc ∧
    s.organizationOf doc.knowledgeBaseId = some orgId

/-- The stores differ in what belongs to other organizations only. -/
structure SameData (orgId : Int) (s s' : TenantDb V) : Prop where
  knowledgeBases : ∀ kbId, s.organizationOf kbId = some orgId ↔
    s'.organizationOf kbId = some orgId
  documents : ∀ docId doc, s.organizationOf doc.knowledgeBaseId = some orgId →
    (s.rag.db.documents.get docId = some doc ↔ s'.rag.db.documents.get docId = some doc)
  chunks : ∀ c chunk, OwnDocument s orgId chunk.documentId →
    (s.rag.db.chunks.get c = some chunk ↔ s'.rag.db.chunks.get c = some chunk)
  vectors : ∀ kbId, s.organizationOf kbId = some orgId → s'.rag.tables kbId = s.rag.tables kbId
  memories : ofOrganization s.memories orgId = ofOrganization s'.memories orgId

/-- The executions of a workflow with another store reach the same states, with the same
    recorded steps and context, and end alike. -/
structure SameRuns (env : StoreEnv V) (workflow : Workflow) (s s' : TenantDb V) : Prop where
  reaches : ∀ t,
    Reaches (loopBody (env.workflowEnv s') workflow) (startRun (env.workflowEnv s') workflow) t ↔
      Reaches (loopBody (env.workflowEnv s) workflow) (startRun (env.workflowEnv s) workflow) t
  result : ∀ fuel, executeWorkflow (env.workflowEnv s') (some workflow) fuel =
    executeWorkflow (env.workflowEnv s) (some workflow) fuel

def TenantIsolated (env : StoreEnv V) (workflow : Workflow) (s : TenantDb V) : Prop :=
  ∀ s', SameData env.organizationId s s' → SameRuns env workflow s s'

/-! ## The condition -/

/-- The `kb_id` of a node: `config.get("kb_id") or config.get("knowledge_base_id")`. -/
def nodeKbId (node : WorkflowNode) : Json :=
  (getJson (node.configuration.getD []) "kb_id").orElse
    (getJson (node.configuration.getD []) "knowledge_base_id")

/-- The query of a node. -/
def nodeQuery (node : WorkflowNode) (execution : WorkflowExecution) : Json :=
  (getJson (node.configuration.getD []) "query").orElse
    (getJsonD execution.executionContext "objective" (.str ""))

/-- The execution of a node gets to a search: it is attempted, and its query is embedded. -/
structure Searches (env : StoreEnv V) (node : WorkflowNode) (execution : WorkflowExecution) :
    Prop where
  nodeType : env.L.lower node.nodeType ∈ ["rag", "knowledge", "knowledge_search"]
  kbId : nodeKbId node ≠ .null
  attempted : ∃ retries, maxRetries env.T node = .ok retries ∧ 0 ≤ retries
  embedded : ∃ vector, embedQuery env (nodeQuery node execution) = .ok vector

/-- The statement reads a table of the organization, or none. -/
def Owned (env : StoreEnv V) (s : TenantDb V) (kbId : Json) : Prop :=
  match env.sql.target kbId with
  | .table kbId => s.organizationOf kbId = some env.organizationId
  | .missing _ => True
  | .other _ => False

/-- Every search of the execution reads a knowledge base of its organization. -/
def ScopedRun (env : StoreEnv V) (workflow : Workflow) (s : TenantDb V) : Prop :=
  ∀ t, Reaches (loopBody (env.workflowEnv s) workflow) (startRun (env.workflowEnv s) workflow) t →
    ∀ node, t.current = some node → Searches env node (entered t node) →
      Owned env s (nodeKbId node)

/-! ## One search -/

section Search

variable {env : StoreEnv V} {s s' : TenantDb V} {orgId : Int}

theorem serveChunks_same (h : SameData orgId s s') {selected : List Nat}
    (hown : ∀ c ∈ selected, ∃ kbId, s.rag.HasVector kbId c ∧ s.organizationOf kbId = some orgId) :
    serveChunks s'.rag.db selected = serveChunks s.rag.db selected := by
  unfold serveChunks
  apply List.filterMap_congr
  intro c hc
  obtain ⟨kbId, hvector, horg⟩ := hown c hc
  obtain ⟨chunk, doc, hchunk, hdoc, hkb⟩ := s.placed kbId c hvector
  have hdocOwn : s.organizationOf doc.knowledgeBaseId = some orgId := by rw [hkb, horg]
  rw [hchunk, (h.chunks c chunk ⟨doc, hdoc, hdocOwn⟩).mp hchunk, Option.map_some, Option.map_some,
    hdoc, (h.documents _ doc hdocOwn).mp hdoc]

theorem selected_keys {table : VectorTable V} {vector : V} {limit : Option Nat}
    {candidates : Candidates} {ranked : List (Nat × Rat)} {selected : List Nat}
    {topK maxTokens : Json} (hsearch : searchTable env.E env.S table vector limit = .ok candidates)
    (hslice : sliceJson (rankCandidates candidates) topK = .ok ranked)
    (hselect : selectWithin maxTokens 0 ranked = .ok selected) :
    ∀ c ∈ selected, c ∈ Grouping.keys table := by
  intro c hc
  obtain ⟨entry, hentry, rfl⟩ := List.mem_map.mp (selectWithin_subset hselect c hc)
  have hranked : entry.1 ∈ (rankCandidates candidates).map (·.1) :=
    List.mem_map.mpr ⟨entry, sliceJson_subset hslice entry hentry, rfl⟩
  exact searchTable_keys hsearch _ (mem_rankCandidates.mp hranked)

/-- **A context of an own knowledge base.** -/
theorem retrieveFor_same (h : SameData env.organizationId s s') {kbId query topK maxTokens : Json}
    (hown : (∃ vector, embedQuery env query = .ok vector) → Owned env s kbId) :
    retrieveFor env s' kbId query topK maxTokens = retrieveFor env s kbId query topK maxTokens := by
  unfold retrieveFor
  cases hvector : embedQuery env query with
  | error exc => rfl
  | ok vector =>
      have howned := hown ⟨vector, hvector⟩
      unfold Owned at howned
      show (retrieveCandidates env s' kbId vector topK >>= _) =
        (retrieveCandidates env s kbId vector topK >>= _)
      unfold retrieveCandidates
      cases htarget : env.sql.target kbId with
      | missing exc => rfl
      | other select =>
          rw [htarget] at howned
          exact howned.elim
      | table kbId =>
          rw [htarget] at howned
          dsimp only
          rw [h.vectors kbId howned]
          cases htable : s.rag.tables kbId with
          | none => rfl
          | some table =>
              dsimp only
              cases hcandidates : env.sql.limit topK >>= searchTable env.E env.S table vector with
              | error exc => rfl
              | ok candidates =>
                  show (sliceJson (rankCandidates candidates) topK >>= _) =
                    (sliceJson (rankCandidates candidates) topK >>= _)
                  cases hslice : sliceJson (rankCandidates candidates) topK with
                  | error exc => rfl
                  | ok ranked =>
                      show (selectWithin maxTokens 0 ranked >>= _) =
                        (selectWithin maxTokens 0 ranked >>= _)
                      cases hselect : selectWithin maxTokens 0 ranked with
                      | error exc => rfl
                      | ok selected =>
                          obtain ⟨limit, -, hsearch⟩ := Proc.bind_ok hcandidates
                          have hkeys := selected_keys hsearch hslice hselect
                          have hserve := serveChunks_same h fun c hc =>
                            ⟨kbId, ⟨table, htable, hkeys c hc⟩, howned⟩
                          exact congrArg (fun shown => Except.ok (formatContext shown)) hserve

end Search

/-! ## One node -/

section Node

variable {env : StoreEnv V} {s s' : TenantDb V} {workflow : Workflow}

theorem retrieveMemories_same (h : SameData env.organizationId s s') (now : Rat) (topK : Json) :
    retrieveMemories env.round s'.memories now env.organizationId env.agentId topK =
      retrieveMemories env.round s.memories now env.organizationId env.agentId topK := by
  unfold retrieveMemories
  rw [listActive_congr h.memories]

theorem attemptNode_same (h : SameData env.organizationId s s') {node : WorkflowNode}
    {execution : WorkflowExecution} (hattempted : ∃ retries, maxRetries env.T node = .ok retries ∧
      0 ≤ retries)
    (hscoped : Searches env node execution → Owned env s (nodeKbId node)) (index used : Nat) :
    attemptNode env.L env.T env.organizationId env.agentId node execution
        (env.services s' index used) =
      attemptNode env.L env.T env.organizationId env.agentId node execution
        (env.services s index used) := by
  have hmemories : ∀ query topK, (env.services s' index used).retrieveMemories query topK =
      (env.services s index used).retrieveMemories query topK := by
    intro query topK
    show ((·.map memoryHit) <$> retrieveMemories _ s'.memories _ _ _ _).mapError _ = _
    rw [retrieveMemories_same h]
    rfl
  have hcontext : ∀ topK maxTokens, env.L.lower node.nodeType ∈
      ["rag", "knowledge", "knowledge_search"] → nodeKbId node ≠ .null →
      (env.services s' index used).retrieveContext (nodeKbId node) (nodeQuery node execution) topK
        maxTokens = (env.services s index used).retrieveContext (nodeKbId node)
          (nodeQuery node execution) topK maxTokens := by
    intro topK maxTokens hrag hkbId
    show (retrieveFor env s' _ _ _ _).mapError _ = _
    rw [retrieveFor_same h fun hembedded => hscoped ⟨hrag, hkbId, hattempted, hembedded⟩]
    rfl
  unfold attemptNode
  dsimp only
  split
  · rfl
  · split
    · rw [hmemories]
    · split
      · next hrag =>
          have hread := fun topK maxTokens => hcontext topK maxTokens hrag
          unfold nodeKbId nodeQuery at hread
          split
          · rfl
          · next hkbId => rw [hread _ _ hkbId]
      · rfl

theorem executeNode_same (h : SameData env.organizationId s s') {node : WorkflowNode}
    {execution : WorkflowExecution}
    (hscoped : Searches env node execution → Owned env s (nodeKbId node)) (index : Nat) :
    executeNode env.L env.T (env.services s' index) env.organizationId env.agentId node execution =
      executeNode env.L env.T (env.services s index) env.organizationId env.agentId node
        execution := by
  unfold executeNode
  cases hretries : maxRetries env.T node with
  | error exc => rfl
  | ok retries =>
      show (if retries < 0 then _ else attemptFrom _ retries.toNat 0) =
        if retries < 0 then _ else attemptFrom _ retries.toNat 0
      by_cases hneg : retries < 0
      · rw [if_pos hneg, if_pos hneg]
      · rw [if_neg hneg, if_neg hneg]
        congr 1
        funext used
        exact attemptNode_same h ⟨retries, hretries, by omega⟩ hscoped index used

/-- **A pass** whose node searches an own knowledge base, or nothing. -/
theorem loopBody_same (h : SameData env.organizationId s s') {t : RunState}
    (hscoped : ∀ node, t.current = some node → Searches env node (entered t node) →
      Owned env s (nodeKbId node)) :
    loopBody (env.workflowEnv s') workflow t = loopBody (env.workflowEnv s) workflow t := by
  unfold loopBody
  cases hcurrent : t.current with
  | none => rfl
  | some node =>
      have hnode : recordNode (env.workflowEnv s') t.executed.length node (entered t node) =
          recordNode (env.workflowEnv s) t.executed.length node (entered t node) := by
        have hexecute : executeNode (env.workflowEnv s').L (env.workflowEnv s').T
            ((env.workflowEnv s').services t.executed.length) (env.workflowEnv s').organizationId
            (env.workflowEnv s').agentId node (entered t node) =
            executeNode (env.workflowEnv s).L (env.workflowEnv s).T
              ((env.workflowEnv s).services t.executed.length) (env.workflowEnv s).organizationId
              (env.workflowEnv s).agentId node (entered t node) :=
          executeNode_same h (hscoped node hcurrent) t.executed.length
        unfold recordNode
        rw [hexecute]
      dsimp only
      rw [hnode]
      rfl

/-- **An execution** whose searches are of its organization does not tell the stores apart. -/
theorem tenantIsolated_of_scoped (hscoped : ScopedRun env workflow s) :
    TenantIsolated env workflow s := by
  intro s' h
  have hbody : ∀ t, Reaches (loopBody (env.workflowEnv s) workflow)
      (startRun (env.workflowEnv s) workflow) t →
        loopBody (env.workflowEnv s') workflow t = loopBody (env.workflowEnv s) workflow t :=
    fun t hreach => loopBody_same h (hscoped t hreach)
  refine ⟨fun t => reaches_congr hbody, fun fuel => ?_⟩
  have hrun := run_congr hbody fuel
  cases hvalid : validateGraph env.L workflow with
  | error exc =>
      have hinvalid : ∀ s, executeWorkflow (env.workflowEnv s) (some workflow) fuel =
          some (.error (.exception exc)) := by
        intro s
        have hgraph : validateGraph (env.workflowEnv s).L workflow = .error exc := hvalid
        unfold executeWorkflow
        dsimp only
        rw [hgraph]
      rw [hinvalid, hinvalid]
  | ok _ =>
      have hgraph : ∀ s, validateGraph (env.workflowEnv s).L workflow = .ok () := fun _ => hvalid
      rw [executeWorkflow_valid (hgraph s'), executeWorkflow_valid (hgraph s)]
      exact congrArg (Option.map finishRun) hrun

end Node

/-- A graph whose nodes name own knowledge bases has only such searches. -/
theorem scopedRun_of_nodes {env : StoreEnv V} {workflow : Workflow} {s : TenantDb V}
    (h : ∀ node ∈ workflow.nodes,
      env.L.lower node.nodeType ∈ ["rag", "knowledge", "knowledge_search"] →
        Owned env s (nodeKbId node)) : ScopedRun env workflow s := by
  intro t hreach node hcurrent hsearches
  have hnodes := (Logged.of_reaches hreach).nodes node (by simp [hcurrent])
  exact h node hnodes hsearches.nodeType

/-! ## Another text in another organization -/

/-- The store without the text of a document. -/
def TenantDb.eraseText (docId : Nat) (s : TenantDb V) : TenantDb V where
  organizationOf := s.organizationOf
  rag := s.rag.eraseText docId
  memories := s.memories
  placed := by
    intro kbId c hvector
    obtain ⟨chunk, doc, hchunk, hdoc, hkb⟩ := s.placed kbId c hvector
    refine ⟨chunk.eraseText docId, doc, ?_, by rw [eraseText_documentId]; exact hdoc, hkb⟩
    show (s.rag.db.chunks.mapRows _).get c = _
    rw [Table.get_mapRows, hchunk, Option.map_some]

theorem sameData_eraseText {s : TenantDb V} {orgId : Int} {docId : Nat}
    (h : ¬ OwnDocument s orgId docId) : SameData orgId s (s.eraseText docId) where
  knowledgeBases := fun _ => .rfl
  documents := fun _ _ _ => .rfl
  chunks := by
    intro c chunk hown
    have hne : chunk.documentId ≠ docId := by
      intro hid
      rw [hid] at hown
      exact h hown
    show _ ↔ (s.rag.db.chunks.mapRows _).get c = some chunk
    rw [Table.get_mapRows]
    constructor
    · intro hchunk
      rw [hchunk, Option.map_some, eraseText_of_ne docId hne]
    · intro hchunk
      obtain ⟨old, hold, rfl⟩ := Option.map_eq_some_iff.mp hchunk
      rw [eraseText_documentId] at hne
      rw [hold, eraseText_of_ne docId hne]
  vectors := fun _ _ => rfl
  memories := rfl

/-! The second organization has a file in knowledge base 2, the first one in knowledge base 1. -/

def plainSql : SearchSql V where
  target := fun kbId =>
    match kbId with
    | .int n =>
        if 0 ≤ n then .table n.toNat else .missing (.other "ProgrammingError" "syntax error")
    | _ => .missing (.other "ProgrammingError" "no such table")
  target_int := by
    intro kbId
    dsimp only
    rw [if_pos (Int.natCast_nonneg kbId), Int.toNat_natCast]
  limit := fun topK =>
    match topK with
    | .int n =>
        if n < 0 then .error (.other "DataError" "LIMIT must not be negative")
        else .ok (some n.toNat)
    | _ => .error (.other "ProgrammingError" "argument of LIMIT must be type bigint")
  limit_int := fun _ => rfl

def shortCodec : Codec :=
  asciiCodec fun fileBytes =>
    if fileBytes = asciiBytes "the salaries" then
      "7666c46602e50a28f03b6fcfe4107e49e515bdae1d353f92a56bb58db86f191b"
    else "b24ccab7028c80d91fe9b02890487e86bff86f042595dea6bf7bceefd14d2e89"

def shortUpload (kbId : Nat) (filename text : String) : Upload where
  kbId := kbId
  filename := filename
  contentType := "text/plain"
  fileBytes := asciiBytes text
  userId := 1

def unitVector : List Int :=
  List.replicate tableDimensions 1

def twoFiles : List (Operation (List Int)) :=
  [.ingest (fun _ => none) (shortUpload 2 "salaries.txt" "the salaries"),
    .ingest (fun _ => none) (shortUpload 1 "menu.txt" "the menu"),
    .rebuild (constantEmbeddings unitVector) 2 "openai",
    .rebuild (constantEmbeddings unitVector) 1 "openai"]

def twoOrganizations : TenantDb (List Int) where
  organizationOf := fun kbId => if kbId = 1 then some 1 else if kbId = 2 then some 2 else none
  rag := run shortCodec .asciiOnly .empty twoFiles
  memories := .empty
  placed := placed_run shortCodec .asciiOnly placed_empty twoFiles

def firstOrganization : StoreEnv (List Int) where
  L := .asciiOnly
  T := asciiTables
  E := constantEmbeddings unitVector
  S := storedOrder
  sql := plainSql
  round := id
  now := fun _ _ => 0
  requestError := fun _ _ => quietServices.requestError
  tool := fun _ _ => quietServices.tool
  toolLatency := fun _ _ => 0
  executionId := 1
  organizationId := 1
  agentId := 1

def searchStep (kbId : Int) : WorkflowNode where
  id := 2
  nodeType := "rag"
  name := "Search"
  configuration := some [("kb_id", .int kbId)]

def searchWorkflow (kbId : Int) : Workflow where
  nodes := [startStep, searchStep kbId]
  edges := [{ sourceNodeId := 1, targetNodeId := 2 }]

/-- The contexts that were recorded. -/
def recordedContexts : Option (Except BaseExn RunState) → List String
  | some (.ok t) => t.steps.filterMap fun step =>
      match getJson step.outputData "context" with
      | .str context => some context
      | _ => none
  | _ => []

theorem sameData_twoOrganizations :
    SameData 1 twoOrganizations (twoOrganizations.eraseText 0) := by
  apply sameData_eraseText
  rintro ⟨doc, hdoc, horg⟩
  have hkb : (twoOrganizations.rag.db.documents.get 0).map (·.knowledgeBaseId) = some 2 := by
    decide
  rw [hdoc, Option.map_some] at hkb
  rw [Option.some.inj hkb] at horg
  cases horg

theorem tenantIsolated_of_scoped_own :
    TenantIsolated firstOrganization (searchWorkflow 1) twoOrganizations :=
  tenantIsolated_of_scoped (scopedRun_of_nodes (by
    intro node hnode hrag
    obtain rfl | rfl : node = startStep ∨ node = searchStep 1 := by
      simpa [searchWorkflow] using hnode
    · exact absurd hrag (by decide)
    · rfl))

theorem not_tenantIsolated_foreign :
    ¬ ∀ (env : StoreEnv (List Int)) (workflow : Workflow) (s : TenantDb (List Int)),
      TenantIsolated env workflow s := by
  intro hall
  have hresult := (hall firstOrganization (searchWorkflow 2) twoOrganizations _
    sameData_twoOrganizations).result 3
  have hcontexts := congrArg recordedContexts hresult
  revert hcontexts
  decide

end AgentCorp.Workflows
