/-
  `RAGService`: embeddings of the chunks of a knowledge base, and the context for a query.

  A knowledge base has a table of vectors once something of it has been embedded, one vector for
  a chunk. What the embedding providers compute is a parameter (`Embeddings`), and so is the order
  of a vector search (`VectorSearch`): the rows by distance, in some order where that is equal.

  * `rebuildEmbeddings_indexed`: a rebuild adds only vectors of documents that are listed.
  * `mem_retrieveChunks`: a chunk in the context has a vector.
  * `retrieveChunks_all`: with enough room, every vector's chunk is in the context.
-/
import AgentCorp.Knowledge.KnowledgeService
import AgentCorp.Lib.Grouping
import Mathlib.Data.List.Sort

namespace AgentCorp.Rag

open AgentCorp.Python AgentCorp.Knowledge

/-! ## EmbeddingProvider and PGVectorStore -/

inductive EmbeddingProvider where
  | openAI | gemini | ollama
  deriving DecidableEq, Repr

/-- `EmbeddingService._resolve_provider`. -/
def resolveProvider (L : Lower) (providerName : String) : EmbeddingProvider :=
  let name := L.lower providerName
  if name = "openai" then .openAI
  else if name = "gemini" then .gemini
  else if name = "ollama" then .ollama
  else .openAI

/-- What the providers compute. Queries are embedded by OpenAI. -/
structure Embeddings (V : Type) where
  generateEmbeddings : EmbeddingProvider → List String → Except Exn (List V)
  generateEmbedding : String → Except Exn V
  dimensions : V → Nat

structure VectorMetadata where
  documentId : Nat
  knowledgeBaseId : Nat
  language : String

structure StoredVector (V : Type) where
  embedding : V
  metadata : VectorMetadata

/-- A table `kb_embeddings_{kb_id}`, by `chunk_id`. -/
abbrev VectorTable (V : Type) := List (Nat × StoredVector V)

/-- What pgvector computes: the rows by their distance from a vector, and `1 - distance`. -/
structure VectorSearch (V : Type) where
  order : V → VectorTable V → VectorTable V
  order_perm : ∀ query table, (order query table).Perm table
  similarity : V → V → Rat

structure RagDb (V : Type) where
  db : KnowledgeDb
  tables : Nat → Option (VectorTable V)

variable {V : Type}

/-- The dimensions of a table of vectors. -/
def tableDimensions : Nat := 1536

/-- `PGVectorStore.create_index`. -/
def RagDb.createIndex (s : RagDb V) (kbId : Nat) : RagDb V :=
  { s with tables := fun kb => if kb = kbId then some ((s.tables kb).getD []) else s.tables kb }

/-- The upserts of `PGVectorStore.batch_upsert`. -/
def upsertAll (table : VectorTable V) (items : VectorTable V) : VectorTable V :=
  items.foldl (fun table item => Grouping.upsert table item.1 item.2 fun _ => item.2) table

/-- The rows of a table that a search returns, with a limit or without one. A query of other
    dimensions fails on the first row. -/
def searchTable (E : Embeddings V) (S : VectorSearch V) (table : VectorTable V) (queryVector : V)
    (limit : Option Nat) : Except Exn (List (Nat × Rat × VectorMetadata)) :=
  if table ≠ [] ∧ E.dimensions queryVector ≠ tableDimensions then
    .error (.other "DataError" "different vector dimensions")
  else
    .ok (((S.order queryVector table).take (limit.getD table.length)).map fun row =>
      (row.1, S.similarity row.2.embedding queryVector, row.2.metadata))

def missingTable (kbId : Nat) : Exn :=
  .other "ProgrammingError"
    ("relation \"kb_embeddings_" ++ toString kbId ++ "\" does not exist")

/-- `PGVectorStore.search`. -/
def search (E : Embeddings V) (S : VectorSearch V) (s : RagDb V) (kbId : Nat) (queryVector : V)
    (topK : Int) : Except Exn (List (Nat × Rat × VectorMetadata)) :=
  match s.tables kbId with
  | none => .error (missingTable kbId)
  | some table =>
      if topK < 0 then .error (.other "DataError" "LIMIT must not be negative")
      else searchTable E S table queryVector (some topK.toNat)

/-! ## EmbeddingService -/

/-- The chunks of a document that are not embedded yet, whether they are deleted or not. -/
def pendingChunks (db : KnowledgeDb) (docId : Nat) : List (Nat × KnowledgeChunk) :=
  db.chunks.select fun chunk => chunk.documentId == docId && chunk.embeddingStatus != "READY"

/-- `(chunk.id, vectors[idx], metadata)` for every chunk. -/
def upsertItems (docId : Nat) (doc : KnowledgeDocument) :
    List (Nat × KnowledgeChunk) → List V → Except Exn (VectorTable V)
  | [], _ => .ok []
  | _ :: _, [] => .error (.other "IndexError" "list index out of range")
  | (chunkId, _) :: chunks, vector :: vectors => do
      let rest ← upsertItems docId doc chunks vectors
      return (chunkId, {
        embedding := vector
        metadata := {
          documentId := docId
          knowledgeBaseId := doc.knowledgeBaseId
          language := if doc.language.getD "" = "" then "en" else doc.language.getD "" } }) :: rest

/-- The chunks that were embedded are READY. -/
def markEmbedded (db : KnowledgeDb) (chunks : List (Nat × KnowledgeChunk)) : KnowledgeDb :=
  chunks.foldl (fun db entry => db.setEmbeddingStatus entry.1 "READY") db

/-- The vectors of these chunks are stored, and the chunks are READY. -/
def RagDb.storeItems (s : RagDb V) (kbId : Nat) (chunks : List (Nat × KnowledgeChunk))
    (items : VectorTable V) : RagDb V where
  db := markEmbedded s.db chunks
  tables := fun kb =>
    if kb = kbId then some (upsertAll ((s.tables kb).getD []) items) else s.tables kb

/-- `EmbeddingService.generate_and_store_document_embeddings`. -/
def generateAndStore (E : Embeddings V) (provider : EmbeddingProvider) (docId : Nat)
    (doc : KnowledgeDocument) : Proc (RagDb V) Exn Unit := do
  let s ← get
  let chunks := pendingChunks s.db docId
  if chunks.isEmpty then pure ()
  else
    let vectors ← Proc.ofExcept
      (E.generateEmbeddings provider (chunks.map fun entry => entry.2.text))
    set (s.createIndex doc.knowledgeBaseId)
    let items ← Proc.ofExcept (upsertItems docId doc chunks vectors)
    if items.any fun item => E.dimensions item.2.embedding != tableDimensions then
      throw (.other "DataError" "expected 1536 dimensions")
    else
      set ((s.createIndex doc.knowledgeBaseId).storeItems doc.knowledgeBaseId chunks items)

/-! ## RAGService -/

/-- The loop of `rebuild_embeddings`. -/
def embedDocuments (E : Embeddings V) (provider : EmbeddingProvider) :
    List (Nat × KnowledgeDocument) → Proc (RagDb V) Exn Unit
  | [] => pure ()
  | (docId, doc) :: rest => do
      generateAndStore E provider docId doc
      embedDocuments E provider rest

/-- `RAGService.rebuild_embeddings`: the number of documents. -/
def rebuildEmbeddings (E : Embeddings V) (L : Lower) (kbId : Nat) (providerName : String) :
    Proc (RagDb V) Exn Nat := do
  let s ← get
  let docs := s.db.listByKb kbId
  embedDocuments E (resolveProvider L providerName) docs
  return docs.length

/-- `QueryRewriter.rewrite_query`. -/
def rewriteQuery (L : Lower) (query : String) : String :=
  L.lower (String.ofList (strip query.toList))

/-- `Ranker.rank_candidates`: equal scores keep their order. -/
def rankCandidates (candidates : List (Nat × Rat × VectorMetadata)) : List (Nat × Rat) :=
  (candidates.insertionSort fun a b => b.2.1 ≤ a.2.1).map fun c => (c.1, c.2.1)

/-- The loop of `ChunkSelector.select_chunks`, with the tokens that are counted so far. -/
def selectFrom (maxTokens : Int) (tokenCount : Int) : List (Nat × Rat) → List Nat
  | [] => []
  | (chunkId, _) :: rest =>
      if tokenCount + 200 > maxTokens then []
      else chunkId :: selectFrom maxTokens (tokenCount + 200) rest

def selectChunks (rankedItems : List (Nat × Rat)) (maxChunks maxTokens : Int) : List Nat :=
  selectFrom maxTokens 0 (takeSlice rankedItems maxChunks)

/-- What the context shows of a chunk: the row, and its document if there is one. -/
structure ServedChunk where
  chunkId : Nat
  chunk : KnowledgeChunk
  document : Option KnowledgeDocument

/-- The rows of the selected chunks that are there. -/
def serveChunks (db : KnowledgeDb) (selectedIds : List Nat) : List ServedChunk :=
  selectedIds.filterMap fun chunkId => (db.chunks.get chunkId).map fun chunk =>
    { chunkId, chunk, document := db.documents.get chunk.documentId }

/-- The chunks that `retrieve_context` shows. -/
def retrieveChunks (E : Embeddings V) (S : VectorSearch V) (L : Lower) (s : RagDb V)
    (kbId : Nat) (query : String) (topK maxTokens : Int) : Except Exn (List ServedChunk) := do
  let vector ← E.generateEmbedding (rewriteQuery L query)
  let candidates ← search E S s kbId vector topK
  return serveChunks s.db (selectChunks (rankCandidates candidates) topK maxTokens)

/-- The block of a chunk in the context. -/
def ServedChunk.block (served : ServedChunk) : String :=
  "Source Document: " ++ (served.document.map (·.filename)).getD "Unknown" ++ "\nContent: " ++
    served.chunk.text ++ "\n"

/-- `ContextFormatter.format_context`. -/
def formatContext (chunks : List ServedChunk) : String :=
  "\n---\n".intercalate (chunks.map ServedChunk.block)

/-- `RAGService.retrieve_context`. -/
def retrieveContext (E : Embeddings V) (S : VectorSearch V) (L : Lower) (s : RagDb V)
    (kbId : Nat) (query : String) (topK maxTokens : Int) : Except Exn String :=
  formatContext <$> retrieveChunks E S L s kbId query topK maxTokens

/-! ## What a rebuild does -/

/-- A vector of the chunk `c` is stored for a knowledge base. -/
def RagDb.HasVector (s : RagDb V) (kbId c : Nat) : Prop :=
  ∃ table, s.tables kbId = some table ∧ c ∈ Grouping.keys table

/-- A chunk of a document that is listed for a knowledge base. -/
def LiveIn (db : KnowledgeDb) (kbId c : Nat) : Prop :=
  ∃ chunk doc, db.chunks.get c = some chunk ∧ db.documents.get chunk.documentId = some doc ∧
    doc.knowledgeBaseId = kbId ∧ doc.isDeleted = false

/-- The columns of a chunk that an embedding leaves. -/
def KnowledgeChunk.ownership (chunk : KnowledgeChunk) : Nat × Bool :=
  (chunk.documentId, chunk.isDeleted)

/-- What embeddings do: new vectors are of listed documents. -/
structure Indexed (s t : RagDb V) : Prop where
  documents : t.db.documents = s.db.documents
  chunk : ∀ c, (t.db.chunks.get c).map KnowledgeChunk.ownership =
    (s.db.chunks.get c).map KnowledgeChunk.ownership
  vector : ∀ kbId c, t.HasVector kbId c → s.HasVector kbId c ∨ LiveIn s.db kbId c

theorem Indexed.refl (s : RagDb V) : Indexed s s where
  documents := rfl
  chunk := fun _ => rfl
  vector := fun _ _ hvector => .inl hvector

/-- Whether a chunk is listed depends on its document only. -/
theorem LiveIn.of_ownership {db db' : KnowledgeDb} {kbId c : Nat} (h : LiveIn db kbId c)
    (hdocuments : db'.documents = db.documents)
    (hchunk : (db'.chunks.get c).map KnowledgeChunk.ownership =
      (db.chunks.get c).map KnowledgeChunk.ownership) : LiveIn db' kbId c := by
  obtain ⟨chunk, doc, hget, hdoc, hlisted⟩ := h
  rw [hget, Option.map_some] at hchunk
  obtain ⟨chunk', hget', howner⟩ := Option.map_eq_some_iff.mp hchunk
  have hid : chunk'.documentId = chunk.documentId := congrArg (·.1) howner
  exact ⟨chunk', doc, hget', by rw [hdocuments, hid, hdoc], hlisted⟩

theorem Indexed.trans {a b c : RagDb V} (hab : Indexed a b) (hbc : Indexed b c) :
    Indexed a c where
  documents := hbc.documents.trans hab.documents
  chunk := fun i => (hbc.chunk i).trans (hab.chunk i)
  vector := by
    intro kbId i hvector
    rcases hbc.vector kbId i hvector with hold | hnew
    · exact hab.vector kbId i hold
    · exact .inr (hnew.of_ownership hab.documents.symm (hab.chunk i).symm)

theorem markEmbedded_documents (db : KnowledgeDb) (chunks : List (Nat × KnowledgeChunk)) :
    (markEmbedded db chunks).documents = db.documents := by
  unfold markEmbedded
  induction chunks generalizing db with
  | nil => rfl
  | cons entry rest ih => exact ih (db.setEmbeddingStatus entry.1 "READY")

theorem markEmbedded_chunk (db : KnowledgeDb) (chunks : List (Nat × KnowledgeChunk)) (c : Nat) :
    ((markEmbedded db chunks).chunks.get c).map KnowledgeChunk.ownership =
      (db.chunks.get c).map KnowledgeChunk.ownership := by
  unfold markEmbedded
  induction chunks generalizing db with
  | nil => rfl
  | cons entry rest ih =>
      rw [List.foldl_cons, ih]
      show ((db.chunks.modify entry.1 _).get c).map _ = _
      rw [Table.get_modify]
      split
      · next hc =>
          rw [Option.map_map, hc]
          rfl
      · rfl

theorem keys_upsertAll (table items : VectorTable V) {c : Nat}
    (h : c ∈ Grouping.keys (upsertAll table items)) :
    c ∈ Grouping.keys table ∨ c ∈ Grouping.keys items := by
  unfold upsertAll at h
  induction items generalizing table with
  | nil => exact .inl h
  | cons item rest ih =>
      rcases ih _ h with hfirst | hrest
      · rw [Grouping.keys_upsert] at hfirst
        split at hfirst
        · exact .inl hfirst
        · rcases List.mem_append.mp hfirst with hold | hnew
          · exact .inl hold
          · exact .inr (List.mem_cons.mpr (.inl (List.mem_singleton.mp hnew)))
      · exact .inr (List.mem_cons_of_mem _ hrest)

theorem upsertItems_keys {docId : Nat} {doc : KnowledgeDocument}
    {chunks : List (Nat × KnowledgeChunk)} {vectors : List V} {items : VectorTable V}
    (h : upsertItems docId doc chunks vectors = .ok items) :
    Grouping.keys items = chunks.map (·.1) := by
  induction chunks generalizing vectors items with
  | nil =>
      obtain rfl := Except.ok.inj h
      rfl
  | cons entry rest ih =>
      cases vectors with
      | nil => cases h
      | cons vector vectors =>
          obtain ⟨items', hrest, h⟩ := Proc.bind_ok h
          obtain rfl := Except.ok.inj h
          exact congrArg (entry.1 :: ·) (ih hrest)

theorem hasVector_createIndex {s : RagDb V} {kb kbId c : Nat} :
    (s.createIndex kb).HasVector kbId c ↔ s.HasVector kbId c := by
  unfold RagDb.HasVector RagDb.createIndex
  by_cases hkb : kbId = kb
  · rw [hkb]
    cases htable : s.tables kb with
    | none => simp [htable, Grouping.keys]
    | some table => simp [htable]
  · simp [hkb]

theorem indexed_createIndex (s : RagDb V) (kbId : Nat) : Indexed s (s.createIndex kbId) where
  documents := rfl
  chunk := fun _ => rfl
  vector := fun _ _ hvector => .inl (hasVector_createIndex.mp hvector)

theorem hasVector_storeItems {s : RagDb V} {kb : Nat} {chunks : List (Nat × KnowledgeChunk)}
    {items : VectorTable V} {kbId c : Nat} (h : (s.storeItems kb chunks items).HasVector kbId c) :
    s.HasVector kbId c ∨ (kbId = kb ∧ c ∈ Grouping.keys items) := by
  obtain ⟨table, htable, hc⟩ := h
  change (if kbId = kb then _ else _) = some table at htable
  by_cases hkb : kbId = kb
  · rw [if_pos hkb] at htable
    obtain rfl := Option.some.inj htable
    rcases keys_upsertAll _ _ hc with hold | hnew
    · cases hstored : s.tables kbId with
      | none =>
          rw [hstored] at hold
          exact absurd hold List.not_mem_nil
      | some stored =>
          rw [hstored] at hold
          exact .inl ⟨stored, hstored, hold⟩
    · exact .inr ⟨hkb, hnew⟩
  · rw [if_neg hkb] at htable
    exact .inl ⟨table, htable, hc⟩

variable {E : Embeddings V} {provider : EmbeddingProvider}

/-- The embedding of a listed document, however it ends. -/
theorem generateAndStore_indexed {s : RagDb V} {docId : Nat} {doc : KnowledgeDocument}
    (hget : s.db.documents.get docId = some doc) (hlive : doc.isDeleted = false) :
    Indexed s (Proc.after (generateAndStore E provider docId doc) s) := by
  unfold generateAndStore
  rw [Proc.after_bind, EStateM.run_get]
  dsimp only
  by_cases hempty : (pendingChunks s.db docId).isEmpty = true
  · rw [if_pos hempty]
    exact .refl s
  · rw [if_neg hempty]
    cases hvectors : E.generateEmbeddings provider
        ((pendingChunks s.db docId).map fun entry => entry.2.text) with
    | error exc => exact .refl s
    | ok vectors =>
        rw [Proc.ofExcept_ok_bind, Proc.after_set_bind]
        have hindex := indexed_createIndex s doc.knowledgeBaseId
        cases hitems : upsertItems docId doc (pendingChunks s.db docId) vectors with
        | error exc => exact hindex
        | ok items =>
            rw [Proc.ofExcept_ok_bind]
            split
            · exact hindex
            · refine ⟨markEmbedded_documents _ _, markEmbedded_chunk _ _, ?_⟩
              intro kbId c hvector
              rcases hasVector_storeItems hvector with hold | ⟨rfl, hnew⟩
              · exact hindex.vector kbId c hold
              · rw [upsertItems_keys hitems] at hnew
                obtain ⟨entry, hentry, rfl⟩ := List.mem_map.mp hnew
                obtain ⟨hchunk, hpending⟩ := Table.mem_select.mp hentry
                simp only [Bool.and_eq_true, beq_iff_eq] at hpending
                exact .inr ⟨entry.2, doc, hchunk, by rw [hpending.1, hget], rfl, hlive⟩

theorem embedDocuments_indexed {s : RagDb V} {docs : List (Nat × KnowledgeDocument)}
    (h : ∀ entry ∈ docs, s.db.documents.get entry.1 = some entry.2 ∧
      entry.2.isDeleted = false) :
    Indexed s (Proc.after (embedDocuments E provider docs) s) := by
  induction docs generalizing s with
  | nil => exact .refl s
  | cons entry rest ih =>
      have hfirst := h entry List.mem_cons_self
      have hindexed : Indexed s (Proc.after (generateAndStore E provider entry.1 entry.2) s) :=
        generateAndStore_indexed hfirst.1 hfirst.2
      unfold embedDocuments
      rw [Proc.after_bind]
      cases hrun : (generateAndStore E provider entry.1 entry.2).run s with
      | ok _ t =>
          rw [Proc.after_of_ok hrun] at hindexed
          refine hindexed.trans (ih ?_)
          intro entry' hentry'
          rw [hindexed.documents]
          exact h entry' (List.mem_cons_of_mem _ hentry')
      | error exc t =>
          rw [Proc.after_of_error hrun] at hindexed
          exact hindexed

/-- **A rebuild**, however it ends. -/
theorem rebuildEmbeddings_indexed (E : Embeddings V) (L : Lower) (kbId : Nat)
    (providerName : String) (s : RagDb V) :
    Indexed s (Proc.after (rebuildEmbeddings E L kbId providerName) s) := by
  unfold rebuildEmbeddings
  rw [Proc.after_bind, EStateM.run_get]
  dsimp only
  rw [Proc.after_bind_pure]
  apply embedDocuments_indexed
  intro entry hentry
  obtain ⟨hget, hlisted⟩ := Table.mem_select.mp hentry
  simp only [Bool.and_eq_true, Bool.not_eq_true'] at hlisted
  exact ⟨hget, hlisted.2⟩

/-! ## What is retrieved -/

section Retrieve

variable {S : VectorSearch V} {L : Lower} {s : RagDb V} {kbId : Nat} {query : String}
  {topK maxTokens : Int}

theorem selectFrom_subset {tokenCount : Int} {ranked : List (Nat × Rat)} :
    ∀ c ∈ selectFrom maxTokens tokenCount ranked, c ∈ ranked.map (·.1) := by
  induction ranked generalizing tokenCount with
  | nil => exact fun c hc => hc
  | cons entry rest ih =>
      intro c hc
      unfold selectFrom at hc
      split at hc
      · cases hc
      · rcases List.mem_cons.mp hc with rfl | hrest
        · exact List.mem_cons_self
        · exact List.mem_cons_of_mem _ (ih c hrest)

theorem mem_rankCandidates {candidates : List (Nat × Rat × VectorMetadata)} {c : Nat} :
    c ∈ (rankCandidates candidates).map (·.1) ↔ c ∈ candidates.map (·.1) := by
  unfold rankCandidates
  rw [List.map_map]
  exact ((List.perm_insertionSort _ candidates).map _).mem_iff

/-- A search finds rows of its table. -/
theorem searchTable_keys {table : VectorTable V} {queryVector : V} {limit : Option Nat}
    {candidates : List (Nat × Rat × VectorMetadata)}
    (h : searchTable E S table queryVector limit = .ok candidates) :
    ∀ c ∈ candidates.map (·.1), c ∈ Grouping.keys table := by
  unfold searchTable at h
  split at h
  · cases h
  · intro c hc
    rw [← Except.ok.inj h, List.map_map] at hc
    obtain ⟨row, hrow, rfl⟩ := List.mem_map.mp hc
    have hmem := (S.order_perm queryVector table).subset (List.mem_of_mem_take hrow)
    exact List.mem_map.mpr ⟨row, hmem, rfl⟩

theorem search_hasVector {queryVector : V} {candidates : List (Nat × Rat × VectorMetadata)}
    (h : search E S s kbId queryVector topK = .ok candidates) :
    ∀ c ∈ candidates.map (·.1), s.HasVector kbId c := by
  unfold search at h
  cases htable : s.tables kbId with
  | none =>
      rw [htable] at h
      cases h
  | some table =>
      rw [htable] at h
      dsimp only at h
      split at h
      · cases h
      · exact fun c hc => ⟨table, htable, searchTable_keys h c hc⟩

theorem selected_hasVector {queryVector : V} {candidates : List (Nat × Rat × VectorMetadata)}
    (h : search E S s kbId queryVector topK = .ok candidates) :
    ∀ c ∈ selectChunks (rankCandidates candidates) topK maxTokens, s.HasVector kbId c := by
  intro c hc
  obtain ⟨entry, hentry, rfl⟩ := List.mem_map.mp (selectFrom_subset c hc)
  have hranked : entry.1 ∈ (rankCandidates candidates).map (·.1) :=
    List.mem_map.mpr ⟨entry, takeSlice_subset _ _ entry hentry, rfl⟩
  exact search_hasVector h _ (mem_rankCandidates.mp hranked)

/-- **A chunk in the context** has a vector, and is shown as it is stored. -/
theorem mem_retrieveChunks {served : List ServedChunk}
    (h : retrieveChunks E S L s kbId query topK maxTokens = .ok served) :
    ∀ shown ∈ served, s.HasVector kbId shown.chunkId ∧
      s.db.chunks.get shown.chunkId = some shown.chunk ∧
      shown.document = s.db.documents.get shown.chunk.documentId := by
  obtain ⟨vector, -, h⟩ := Proc.bind_ok h
  obtain ⟨candidates, hsearch, h⟩ := Proc.bind_ok h
  obtain rfl := Except.ok.inj h
  intro shown hshown
  obtain ⟨c, hc, hserve⟩ := List.mem_filterMap.mp hshown
  obtain ⟨chunk, hchunk, rfl⟩ := Option.map_eq_some_iff.mp hserve
  exact ⟨selected_hasVector hsearch c hc, hchunk, rfl⟩

theorem selectFrom_all {tokenCount : Int} {ranked : List (Nat × Rat)}
    (h : tokenCount + 200 * ranked.length ≤ maxTokens) :
    selectFrom maxTokens tokenCount ranked = ranked.map (·.1) := by
  induction ranked generalizing tokenCount with
  | nil => rfl
  | cons entry rest ih =>
      rw [List.length_cons] at h
      push_cast at h
      unfold selectFrom
      rw [if_neg (by omega), ih (by omega)]
      rfl

/-- Embeddings that answer every query with one vector. -/
def constantEmbeddings (v : V) : Embeddings V where
  generateEmbeddings := fun _ texts => .ok (texts.map fun _ => v)
  generateEmbedding := fun _ => .ok v
  dimensions := fun _ => tableDimensions

/-- A search that keeps the order of the table. -/
def storedOrder : VectorSearch V where
  order := fun _ table => table
  order_perm := fun _ table => .refl table
  similarity := fun _ _ => 0

/-- What the search in the order of the table returns. -/
def storedCandidates (table : VectorTable V) : List (Nat × Rat × VectorMetadata) :=
  table.map fun row => (row.1, 0, row.2.metadata)

theorem search_stored {table : VectorTable V} (htable : s.tables kbId = some table) (v : V) :
    search (constantEmbeddings v) storedOrder s kbId v table.length =
      .ok (storedCandidates table) := by
  unfold search
  rw [htable]
  dsimp only
  rw [if_neg (by omega), Int.toNat_natCast]
  unfold searchTable
  rw [if_neg (fun hdim => hdim.2 rfl)]
  show Except.ok ((table.take table.length).map _) = _
  rw [List.take_length]
  rfl

theorem selectChunks_stored (table : VectorTable V) :
    selectChunks (rankCandidates (storedCandidates table)) table.length (200 * table.length) =
      (rankCandidates (storedCandidates table)).map (·.1) := by
  have hlength : (rankCandidates (storedCandidates table)).length = table.length := by
    unfold rankCandidates storedCandidates
    rw [List.length_map, List.length_insertionSort, List.length_map]
  unfold selectChunks takeSlice
  rw [if_neg (by omega), Int.toNat_natCast, ← hlength, List.take_length]
  exact selectFrom_all (by omega)

/-- **With enough room**, the chunk of every vector is in the context. -/
theorem retrieveChunks_all {table : VectorTable V} (htable : s.tables kbId = some table) (v : V)
    {c : Nat} {chunk : KnowledgeChunk} (hc : c ∈ Grouping.keys table)
    (hchunk : s.db.chunks.get c = some chunk) :
    ∃ served, retrieveChunks (constantEmbeddings v) storedOrder L s kbId query table.length
        (200 * table.length) = .ok served ∧
      { chunkId := c, chunk, document := s.db.documents.get chunk.documentId } ∈ served := by
  refine ⟨serveChunks s.db ((rankCandidates (storedCandidates table)).map (·.1)), ?_, ?_⟩
  · show (search (constantEmbeddings v) storedOrder s kbId v table.length >>= _) = _
    rw [search_stored htable v]
    show Except.ok (serveChunks s.db (selectChunks _ _ _)) = _
    rw [selectChunks_stored]
  · have hranked : c ∈ (rankCandidates (storedCandidates table)).map (·.1) := by
      rw [mem_rankCandidates]
      unfold storedCandidates
      rw [List.map_map]
      exact hc
    refine List.mem_filterMap.mpr ⟨c, hranked, ?_⟩
    rw [hchunk]
    rfl

end Retrieve

end AgentCorp.Rag
