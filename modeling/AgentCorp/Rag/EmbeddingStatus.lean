/-
  Embedding statuses, between the commits of the session that writes them.

  `generate_and_store_document_embeddings` marks a chunk object as READY while it assembles the
  batch, and upserts the batch after that. A session has objects and executed statements that are
  not committed yet (`current`); nothing rolls them back when a step raises. The session starts
  with nothing uncommitted, and every step of the call may fail.

  * `run_assembleItems_ok`, `run_assembleItems_short`: which objects are marked.
  * `run_executeUpserts`: which vectors are upserted.
  * `generateAndStoreSession_committed`: without failures, what is committed is what
    `generateAndStore` says.
  * `committed_truthful`: what is committed as READY has its vector, however the call ends.
  * `embeddingTruthful_iff`: when this holds of the objects, too.
-/
import AgentCorp.Rag.RagService

namespace AgentCorp.Rag

open AgentCorp.Python AgentCorp.Knowledge

variable {V : Type}

/-! ## The call, step by step -/

/-- A session, with the upserts that the call has executed. -/
structure EmbeddingSession (V : Type) where
  committed : RagDb V
  current : RagDb V
  upserts : VectorTable V

def EmbeddingSession.start (s : RagDb V) : EmbeddingSession V where
  committed := s
  current := s
  upserts := []

/-- A commit that fails. If it was its flush, the session has rolled back. -/
structure CommitFailure where
  raised : Exn
  rolledBack : Bool

/-- What fails. The upserts are counted from 0. -/
structure EmbeddingFaults where
  createIndex : Option Exn := none
  upsert : Nat → Option Exn := fun _ => none
  batchCommit : Option CommitFailure := none
  lastCommit : Option CommitFailure := none

/-- The row that is upserted for a chunk. -/
def storedVector (docId : Nat) (doc : KnowledgeDocument) (vector : V) : StoredVector V where
  embedding := vector
  metadata := {
    documentId := docId
    knowledgeBaseId := doc.knowledgeBaseId
    language := if doc.language.getD "" = "" then "en" else doc.language.getD "" }

/-- `db.commit()`. -/
def sessionCommit : Option CommitFailure → Proc (EmbeddingSession V) Exn Unit
  | none => modify fun s => { s with committed := s.current }
  | some failure => do
      if failure.rolledBack then modify fun s => { s with current := s.committed }
      throw failure.raised

/-- `PGVectorStore.create_index`. -/
def sessionCreateIndex (kbId : Nat) : Option Exn → Proc (EmbeddingSession V) Exn Unit
  | none => do
      modify fun s => { s with current := s.current.createIndex kbId }
      sessionCommit none
  | some exc => throw exc

/-- The loop that assembles the batch. -/
def assembleItems (docId : Nat) (doc : KnowledgeDocument) :
    List (Nat × KnowledgeChunk) → List V → Proc (EmbeddingSession V) Exn (VectorTable V)
  | [], _ => pure []
  | _ :: _, [] => throw (.other "IndexError" "list index out of range")
  | (chunkId, chunk) :: chunks, vector :: vectors => do
      modify fun s =>
        { s with current := { s.current with db := markEmbedded s.current.db [(chunkId, chunk)] } }
      let rest ← assembleItems docId doc chunks vectors
      return (chunkId, storedVector docId doc vector) :: rest

/-- The upserts, on the table that the call has made sure of. -/
def RagDb.upsert (s : RagDb V) (kbId : Nat) (items : VectorTable V) : RagDb V :=
  { s with tables := fun kb =>
      if kb = kbId then (s.tables kb).map fun table => upsertAll table items else s.tables kb }

def EmbeddingSession.execute (s : EmbeddingSession V) (kbId : Nat) (items : VectorTable V) :
    EmbeddingSession V :=
  { s with current := s.current.upsert kbId items, upserts := s.upserts ++ items }

/-- What an upsert raises: a vector of other dimensions fails, too. -/
def upsertFault (E : Embeddings V) (faults : EmbeddingFaults) (i : Nat)
    (item : Nat × StoredVector V) : Option Exn :=
  if E.dimensions item.2.embedding ≠ tableDimensions then
    some (.other "DataError" "expected 1536 dimensions")
  else faults.upsert i

/-- The loop of `PGVectorStore.batch_upsert`, from the statement `i` on. -/
def executeUpserts (E : Embeddings V) (faults : EmbeddingFaults) (kbId : Nat) :
    Nat → VectorTable V → Proc (EmbeddingSession V) Exn Unit
  | _, [] => pure ()
  | i, item :: rest =>
      match upsertFault E faults i item with
      | some exc => throw exc
      | none => do
          modify fun s => s.execute kbId [item]
          executeUpserts E faults kbId (i + 1) rest

/-- `EmbeddingService.generate_and_store_document_embeddings`, on its session. -/
def generateAndStoreSession (E : Embeddings V) (faults : EmbeddingFaults)
    (provider : EmbeddingProvider) (docId : Nat) (doc : KnowledgeDocument) :
    Proc (EmbeddingSession V) Exn Unit := do
  let s ← get
  let chunks := pendingChunks s.current.db docId
  if chunks.isEmpty then pure ()
  else
    let vectors ← Proc.ofExcept
      (E.generateEmbeddings provider (chunks.map fun entry => entry.2.text))
    sessionCreateIndex doc.knowledgeBaseId faults.createIndex
    let items ← assembleItems docId doc chunks vectors
    executeUpserts E faults doc.knowledgeBaseId 0 items
    sessionCommit faults.batchCommit
    sessionCommit faults.lastCommit

/-! ## Marks -/

def EmbeddingSession.mark (s : EmbeddingSession V) (chunks : List (Nat × KnowledgeChunk)) :
    EmbeddingSession V :=
  { s with current := { s.current with db := markEmbedded s.current.db chunks } }

/-- The object, marked. -/
def asReady (chunk : KnowledgeChunk) : KnowledgeChunk :=
  { chunk with embeddingStatus := "READY" }

theorem get_markEmbedded (db : KnowledgeDb) (chunks : List (Nat × KnowledgeChunk)) (c : Nat) :
    (markEmbedded db chunks).chunks.get c =
      if c ∈ chunks.map (·.1) then (db.chunks.get c).map asReady else db.chunks.get c := by
  unfold markEmbedded
  induction chunks generalizing db with
  | nil => rfl
  | cons entry rest ih =>
    have hone : (db.setEmbeddingStatus entry.1 "READY").chunks.get c =
        if c = entry.1 then (db.chunks.get entry.1).map asReady else db.chunks.get c :=
      Table.get_modify db.chunks entry.1 asReady c
    have htwice : asReady ∘ asReady = asReady := rfl
    rw [List.foldl_cons, ih, hone]
    by_cases hc : c = entry.1
    · subst hc
      simp [htwice]
    · simp only [hc, if_false, List.map_cons, List.mem_cons, false_or]

/-- The items of the batch. -/
def batchItems (docId : Nat) (doc : KnowledgeDocument) (chunks : List (Nat × KnowledgeChunk))
    (vectors : List V) : VectorTable V :=
  (chunks.zip vectors).map fun entry => (entry.1.1, storedVector docId doc entry.2)

section Assemble

variable (docId : Nat) (doc : KnowledgeDocument)

/-- With a vector for every chunk, all are marked. -/
theorem run_assembleItems_ok {chunks : List (Nat × KnowledgeChunk)} {vectors : List V}
    (h : chunks.length ≤ vectors.length) (t : EmbeddingSession V) :
    (assembleItems docId doc chunks vectors).run t =
      .ok (batchItems docId doc chunks vectors) (t.mark chunks) := by
  induction chunks generalizing vectors t with
  | nil => rfl
  | cons entry rest ih =>
    obtain ⟨chunkId, chunk⟩ := entry
    match vectors with
    | [] => simp at h
    | vector :: vectors =>
      have hrest : rest.length ≤ vectors.length := by simpa using h
      show ((assembleItems docId doc rest vectors >>= fun items =>
        pure ((chunkId, storedVector docId doc vector) :: items)).run
          (t.mark [(chunkId, chunk)])) = _
      rw [Proc.run_bind_of_ok (ih hrest _)]
      rfl

/-- With too few vectors, those that have one are marked all the same. -/
theorem run_assembleItems_short {chunks : List (Nat × KnowledgeChunk)} {vectors : List V}
    (h : vectors.length < chunks.length) (t : EmbeddingSession V) :
    (assembleItems docId doc chunks vectors).run t =
      .error (.other "IndexError" "list index out of range")
        (t.mark (chunks.take vectors.length)) := by
  induction chunks generalizing vectors t with
  | nil => simp at h
  | cons entry rest ih =>
    obtain ⟨chunkId, chunk⟩ := entry
    match vectors with
    | [] => rfl
    | vector :: vectors =>
      have hrest : vectors.length < rest.length := by simpa using h
      show ((assembleItems docId doc rest vectors >>= fun items =>
        pure ((chunkId, storedVector docId doc vector) :: items)).run
          (t.mark [(chunkId, chunk)])) = _
      rw [Proc.run_bind_of_error (ih hrest _)]
      rfl

end Assemble

/-! ## Upserts -/

theorem RagDb.upsert_nil (s : RagDb V) (kbId : Nat) : s.upsert kbId [] = s := by
  have htables : (s.upsert kbId []).tables = s.tables := by
    funext kb
    show (if kb = kbId then (s.tables kb).map fun table => table else s.tables kb) = _
    rw [Option.map_id', ite_self]
  exact congrArg (RagDb.mk s.db) htables

theorem RagDb.upsert_cons (s : RagDb V) (kbId : Nat) (item : Nat × StoredVector V)
    (items : VectorTable V) : s.upsert kbId (item :: items) = (s.upsert kbId [item]).upsert kbId items := by
  unfold RagDb.upsert
  congr 1
  funext kb
  by_cases hkb : kb = kbId
  · simp only [hkb, if_true, Option.map_map]
    rfl
  · simp [hkb]

theorem EmbeddingSession.execute_nil (s : EmbeddingSession V) (kbId : Nat) :
    s.execute kbId [] = s := by
  unfold EmbeddingSession.execute
  rw [RagDb.upsert_nil, List.append_nil]

theorem EmbeddingSession.execute_cons (s : EmbeddingSession V) (kbId : Nat)
    (item : Nat × StoredVector V) (items : VectorTable V) :
    s.execute kbId (item :: items) = (s.execute kbId [item]).execute kbId items := by
  unfold EmbeddingSession.execute
  rw [RagDb.upsert_cons]
  simp

section Upserts

variable (E : Embeddings V) (faults : EmbeddingFaults) (kbId : Nat)

/-- Every statement goes through, or one is the first that does not. -/
theorem run_executeUpserts (i : Nat) (items : VectorTable V) (t : EmbeddingSession V) :
    ((∀ j item, items[j]? = some item → upsertFault E faults (i + j) item = none) ∧
        (executeUpserts E faults kbId i items).run t = .ok () (t.execute kbId items)) ∨
      ∃ j item exc, items[j]? = some item ∧ upsertFault E faults (i + j) item = some exc ∧
        (executeUpserts E faults kbId i items).run t =
          .error exc (t.execute kbId (items.take j)) := by
  induction items generalizing i t with
  | nil =>
    refine .inl ⟨by simp, ?_⟩
    rw [EmbeddingSession.execute_nil]
    rfl
  | cons item rest ih =>
    match hfault : upsertFault E faults i item with
    | some exc =>
      refine .inr ⟨0, item, exc, rfl, hfault, ?_⟩
      unfold executeUpserts
      rw [hfault, List.take_zero, EmbeddingSession.execute_nil]
      rfl
    | none =>
      have hrun : (executeUpserts E faults kbId i (item :: rest)).run t =
          (executeUpserts E faults kbId (i + 1) rest).run (t.execute kbId [item]) := by
        conv_lhs => unfold executeUpserts
        rw [hfault]
        rfl
      rw [hrun]
      obtain ⟨hnone, hok⟩ | ⟨j, item', exc, hitem, hraises, herror⟩ :=
        ih (i + 1) (t.execute kbId [item])
      · refine .inl ⟨?_, ?_⟩
        · intro j item' hitem
          match j with
          | 0 =>
            obtain rfl := Option.some.inj hitem
            exact hfault
          | j + 1 =>
            have hlater := hnone j item' hitem
            rwa [Nat.add_right_comm, Nat.add_assoc] at hlater
        · rw [hok, ← EmbeddingSession.execute_cons]
      · refine .inr ⟨j + 1, item', exc, hitem, ?_, ?_⟩
        · rwa [Nat.add_right_comm, Nat.add_assoc] at hraises
        · rw [herror, List.take_succ_cons, ← EmbeddingSession.execute_cons]

end Upserts

/-! ## How the call ends -/

section Call

variable (E : Embeddings V) (faults : EmbeddingFaults) (provider : EmbeddingProvider)
  (docId : Nat) (doc : KnowledgeDocument) (s : RagDb V)

/-- The vectors that the provider returns for the chunks that are not embedded yet. -/
def providedVectors : Except Exn (List V) :=
  E.generateEmbeddings provider ((pendingChunks s.db docId).map fun entry => entry.2.text)

/-- The session when the table of vectors is there. -/
def indexed : EmbeddingSession V :=
  .start (s.createIndex doc.knowledgeBaseId)

/-- The session when the batch has been assembled. -/
def assembled : EmbeddingSession V :=
  (indexed doc s).mark (pendingChunks s.db docId)

/-- The batch of the call. -/
def batch (vectors : List V) : VectorTable V :=
  batchItems docId doc (pendingChunks s.db docId) vectors

/-- The session when the batch has been upserted. -/
def upserted (vectors : List V) : EmbeddingSession V :=
  (assembled docId doc s).execute doc.knowledgeBaseId (batch docId doc s vectors)

/-- The session after a commit that failed. -/
def EmbeddingSession.failed (t : EmbeddingSession V) (rolledBack : Bool) : EmbeddingSession V :=
  if rolledBack then { t with current := t.committed } else t

def EmbeddingSession.commit (t : EmbeddingSession V) : EmbeddingSession V :=
  { t with committed := t.current }

/-- The call comes to the batch, with these vectors. -/
structure Provided (vectors : List V) : Prop where
  pending : pendingChunks s.db docId ≠ []
  provided : providedVectors E provider docId s = .ok vectors
  index : faults.createIndex = none

/-- There is a vector for every chunk, and no upsert fails. -/
structure Upserted (vectors : List V) : Prop extends
    Provided E faults provider docId s vectors where
  enough : (pendingChunks s.db docId).length ≤ vectors.length
  upserts : ∀ i item, (batch docId doc s vectors)[i]? = some item →
    upsertFault E faults i item = none

/-- The ways in which the call ends, with what it leaves. -/
inductive CallEnds : EStateM.Result Exn (EmbeddingSession V) Unit → Prop
  | idle (h : pendingChunks s.db docId = []) : CallEnds (.ok () (.start s))
  | early {exc : Exn} (h : ∀ vectors, ¬ Provided E faults provider docId s vectors) :
      CallEnds (.error exc (.start s))
  | short {exc : Exn} (vectors : List V) (h : Provided E faults provider docId s vectors)
      (hshort : vectors.length < (pendingChunks s.db docId).length) :
      CallEnds (.error exc
        ((indexed doc s).mark ((pendingChunks s.db docId).take vectors.length)))
  | notUpserted {exc : Exn} (vectors : List V) {i : Nat} {item : Nat × StoredVector V}
      (h : Provided E faults provider docId s vectors)
      (henough : (pendingChunks s.db docId).length ≤ vectors.length)
      (hitem : (batch docId doc s vectors)[i]? = some item)
      (hfault : upsertFault E faults i item = some exc) :
      CallEnds (.error exc ((assembled docId doc s).execute doc.knowledgeBaseId
        ((batch docId doc s vectors).take i)))
  | notCommitted {exc : Exn} {vectors : List V} (rolledBack : Bool)
      (hcommit : faults.batchCommit ≠ none) (h : Upserted E faults provider docId doc s vectors) :
      CallEnds (.error exc ((upserted docId doc s vectors).failed rolledBack))
  | committed {vectors : List V} (h : Upserted E faults provider docId doc s vectors) :
      CallEnds (.ok () (upserted docId doc s vectors).commit)
  | notFinished {exc : Exn} {vectors : List V} (hcommit : faults.lastCommit ≠ none)
      (h : Upserted E faults provider docId doc s vectors) :
      CallEnds (.error exc (upserted docId doc s vectors).commit)

theorem run_sessionCommit_none (t : EmbeddingSession V) :
    (sessionCommit none).run t = .ok () t.commit := rfl

theorem run_sessionCommit_some (failure : CommitFailure) (t : EmbeddingSession V) :
    (sessionCommit (some failure)).run t = .error failure.raised (t.failed failure.rolledBack) := by
  obtain ⟨raised, rolledBack⟩ := failure
  match rolledBack with
  | true => rfl
  | false => rfl

/-- Where everything is committed, a rollback changes nothing. -/
theorem EmbeddingSession.failed_commit (t : EmbeddingSession V) (rolledBack : Bool) :
    t.commit.failed rolledBack = t.commit := by
  match rolledBack with
  | true => rfl
  | false => rfl

theorem generateAndStoreSession_ends :
    CallEnds E faults provider docId doc s
      ((generateAndStoreSession E faults provider docId doc).run (.start s)) := by
  show CallEnds E faults provider docId doc s (EStateM.run
    (if (pendingChunks s.db docId).isEmpty then pure ()
    else do
      let vectors ← Proc.ofExcept (providedVectors E provider docId s)
      sessionCreateIndex doc.knowledgeBaseId faults.createIndex
      let items ← assembleItems docId doc (pendingChunks s.db docId) vectors
      executeUpserts E faults doc.knowledgeBaseId 0 items
      sessionCommit faults.batchCommit
      sessionCommit faults.lastCommit) (.start s))
  by_cases hempty : (pendingChunks s.db docId).isEmpty = true
  · rw [if_pos hempty]
    exact .idle (List.isEmpty_iff.mp hempty)
  have hpending : pendingChunks s.db docId ≠ [] := fun h => hempty (List.isEmpty_iff.mpr h)
  rw [if_neg hempty]
  match hvectors : providedVectors E provider docId s with
  | .error exc =>
    refine .early fun vectors h => ?_
    rw [h.provided] at hvectors
    cases hvectors
  | .ok vectors =>
    rw [Proc.ofExcept_ok_bind]
    match hindex : faults.createIndex with
    | some exc =>
      refine .early fun vectors' h => ?_
      rw [h.index] at hindex
      cases hindex
    | none =>
      have hprovided : Provided E faults provider docId s vectors := ⟨hpending, hvectors, hindex⟩
      have hcreated : (sessionCreateIndex doc.knowledgeBaseId none).run (.start s) =
          .ok () (indexed doc s) := rfl
      rw [Proc.run_bind_of_ok hcreated]
      by_cases hshort : vectors.length < (pendingChunks s.db docId).length
      · rw [Proc.run_bind_of_error (run_assembleItems_short docId doc hshort (indexed doc s))]
        exact .short vectors hprovided hshort
      have henough : (pendingChunks s.db docId).length ≤ vectors.length := by omega
      rw [Proc.run_bind_of_ok (run_assembleItems_ok docId doc henough (indexed doc s))]
      show CallEnds E faults provider docId doc s (EStateM.run
        (executeUpserts E faults doc.knowledgeBaseId 0 (batch docId doc s vectors) >>= fun _ =>
          sessionCommit faults.batchCommit >>= fun _ => sessionCommit faults.lastCommit)
        (assembled docId doc s))
      obtain ⟨hnone, hrun⟩ | ⟨i, item, exc, hitem, hfault, hrun⟩ :=
        run_executeUpserts E faults doc.knowledgeBaseId 0 (batch docId doc s vectors)
          (assembled docId doc s)
      · simp only [Nat.zero_add] at hnone
        have hupserted : Upserted E faults provider docId doc s vectors :=
          { hprovided with enough := henough, upserts := hnone }
        rw [Proc.run_bind_of_ok hrun]
        match hcommit : faults.batchCommit with
        | some failure =>
          rw [Proc.run_bind_of_error (run_sessionCommit_some failure _)]
          exact .notCommitted failure.rolledBack (by simp [hcommit]) hupserted
        | none =>
          rw [Proc.run_bind_of_ok (run_sessionCommit_none _)]
          match hlast : faults.lastCommit with
          | none => exact .committed hupserted
          | some failure =>
            rw [run_sessionCommit_some, EmbeddingSession.failed_commit]
            exact .notFinished (by simp [hlast]) hupserted
      · rw [Nat.zero_add] at hfault
        rw [Proc.run_bind_of_error hrun]
        exact .notUpserted vectors hprovided henough hitem hfault

/-! ## Truthful statuses -/

def IsReady (db : KnowledgeDb) (c : Nat) : Prop :=
  ∃ chunk, db.chunks.get c = some chunk ∧ chunk.embeddingStatus = "READY"

/-- The vector at the position that the chunk has among those that are not embedded yet. -/
def OwnVector (c : Nat) (vector : V) : Prop :=
  ∃ (vectors : List V) (i : Nat) (entry : Nat × KnowledgeChunk),
    providedVectors E provider docId s = .ok vectors ∧
    (pendingChunks s.db docId)[i]? = some entry ∧ entry.1 = c ∧ vectors[i]? = some vector

def RagDb.HasRow (t : RagDb V) (kbId c : Nat) (row : StoredVector V) : Prop :=
  ∃ table, t.tables kbId = some table ∧ table.lookup c = some row

/-- What the statuses say after the call: a chunk that has become READY had its own vector
    upserted, and if the call returns all that are not deleted are READY, with their vectors. -/
structure Truthful (outcome : Except Exn Unit) (t : EmbeddingSession V) : Prop where
  ready : ∀ c, IsReady t.current.db c → ¬ IsReady s.db c →
    ∃ vector, OwnVector E provider docId s c vector ∧
      (c, storedVector docId doc vector) ∈ t.upserts
  complete : outcome = .ok () → ∀ c chunk, t.committed.db.chunks.get c = some chunk →
    chunk.documentId = docId → chunk.isDeleted = false →
      IsReady t.committed.db c ∧ (¬ IsReady s.db c →
        ∃ vector, OwnVector E provider docId s c vector ∧
          t.committed.HasRow doc.knowledgeBaseId c (storedVector docId doc vector))

def EmbeddingTruthful : Prop :=
  Truthful E provider docId doc s
    (Proc.outcome (generateAndStoreSession E faults provider docId doc) (.start s))
    (Proc.after (generateAndStoreSession E faults provider docId doc) (.start s))

/-- Objects are marked, and the batch is not upserted as a whole. -/
def MarkedTooEarly : Prop :=
  ∃ vectors, Provided E faults provider docId s vectors ∧ vectors ≠ [] ∧
    (vectors.length < (pendingChunks s.db docId).length ∨
      ∃ i item exc, (batch docId doc s vectors)[i]? = some item ∧
        upsertFault E faults i item = some exc)

theorem mem_pendingChunks {db : KnowledgeDb} {c : Nat} {chunk : KnowledgeChunk} :
    (c, chunk) ∈ pendingChunks db docId ↔ db.chunks.get c = some chunk ∧
      chunk.documentId = docId ∧ chunk.embeddingStatus ≠ "READY" := by
  unfold pendingChunks
  rw [Table.mem_select]
  simp

theorem nodup_pendingChunks (db : KnowledgeDb) : ((pendingChunks db docId).map (·.1)).Nodup :=
  (List.filter_sublist.map _).nodup db.chunks.nodup

theorem isReady_markEmbedded {db : KnowledgeDb} {chunks : List (Nat × KnowledgeChunk)} {c : Nat}
    (h : IsReady (markEmbedded db chunks) c) : IsReady db c ∨ c ∈ chunks.map (·.1) := by
  obtain ⟨chunk, hget, hstatus⟩ := h
  rw [get_markEmbedded] at hget
  by_cases hc : c ∈ chunks.map (·.1)
  · exact .inr hc
  · rw [if_neg hc] at hget
    exact .inl ⟨chunk, hget, hstatus⟩

/-- A marked object that is not READY in the table. -/
theorem isReady_of_mem {chunks : List (Nat × KnowledgeChunk)} {entry : Nat × KnowledgeChunk}
    (hentry : entry ∈ pendingChunks s.db docId) (hmarked : entry ∈ chunks) :
    IsReady (markEmbedded s.db chunks) entry.1 ∧ ¬ IsReady s.db entry.1 := by
  obtain ⟨hget, -, hstatus⟩ := (mem_pendingChunks docId).mp hentry
  constructor
  · refine ⟨asReady entry.2, ?_, rfl⟩
    rw [get_markEmbedded, if_pos (List.mem_map_of_mem hmarked), hget]
    rfl
  · intro hready
    obtain ⟨chunk, hchunk, hready⟩ := hready
    rw [hget] at hchunk
    obtain rfl := Option.some.inj hchunk
    exact hstatus hready

theorem getElem?_batch {vectors : List V} {i : Nat} {item : Nat × StoredVector V} :
    (batch docId doc s vectors)[i]? = some item ↔
      ∃ entry vector, (pendingChunks s.db docId)[i]? = some entry ∧ vectors[i]? = some vector ∧
        item = (entry.1, storedVector docId doc vector) := by
  unfold batch batchItems
  rw [List.getElem?_map, List.zip, List.getElem?_zipWith]
  match (pendingChunks s.db docId)[i]?, vectors[i]? with
  | none, _ => simp
  | some entry, none => simp
  | some entry, some vector => simp [eq_comm]

variable {E faults provider docId doc s}

/-- With enough vectors, each chunk of the batch has its own. -/
theorem own_of_mem (doc : KnowledgeDocument) {vectors : List V}
    (h : Provided E faults provider docId s vectors)
    (henough : (pendingChunks s.db docId).length ≤ vectors.length) {c : Nat}
    (hc : c ∈ (pendingChunks s.db docId).map (·.1)) :
    ∃ vector, OwnVector E provider docId s c vector ∧
      (c, storedVector docId doc vector) ∈ batch docId doc s vectors := by
  obtain ⟨entry, hentry, rfl⟩ := List.mem_map.mp hc
  obtain ⟨i, hi⟩ := List.mem_iff_getElem?.mp hentry
  have hlt : i < vectors.length := by
    have hbound := (List.getElem?_eq_some_iff.mp hi).1
    omega
  have hvector : vectors[i]? = some vectors[i] := List.getElem?_eq_getElem hlt
  have hitem := (getElem?_batch docId doc s).mpr ⟨entry, vectors[i], hi, hvector, rfl⟩
  exact ⟨vectors[i], ⟨vectors, i, entry, h.provided, hi, rfl, hvector⟩, List.mem_of_getElem? hitem⟩

/-! ## The ends, one by one -/

theorem Provided.unique {vectors vectors' : List V}
    (h : Provided E faults provider docId s vectors)
    (h' : Provided E faults provider docId s vectors') : vectors = vectors' :=
  Except.ok.inj (h.provided.symm.trans h'.provided)

theorem Upserted.not_tooEarly {vectors : List V}
    (h : Upserted E faults provider docId doc s vectors) :
    ¬ MarkedTooEarly E faults provider docId doc s := by
  intro hearly
  obtain ⟨vectors', hprovided, -, hshort | ⟨i, item, exc, hitem, hfault⟩⟩ := hearly
  · obtain rfl := h.toProvided.unique hprovided
    have henough := h.enough
    omega
  · obtain rfl := h.toProvided.unique hprovided
    rw [h.upserts i item hitem] at hfault
    cases hfault

theorem truthful_idle (h : pendingChunks s.db docId = []) {outcome : Except Exn Unit} :
    Truthful E provider docId doc s outcome (.start s) where
  ready := fun c hready hnot => absurd hready hnot
  complete := by
    intro _ c chunk hget hdoc _
    by_cases hstatus : chunk.embeddingStatus = "READY"
    · have hready : IsReady s.db c := ⟨chunk, hget, hstatus⟩
      exact ⟨hready, fun hnot => absurd hready hnot⟩
    · have hmem : (c, chunk) ∈ pendingChunks s.db docId :=
        (mem_pendingChunks docId).mpr ⟨hget, hdoc, hstatus⟩
      rw [h] at hmem
      cases hmem

/-- What the table has after the upserts. -/
theorem lookup_upsertAll {table items : VectorTable V} (h : (items.map (·.1)).Nodup) {c : Nat}
    {row : StoredVector V} (hmem : (c, row) ∈ items) :
    (upsertAll table items).lookup c = some row := by
  have hkeep : ∀ (items table : VectorTable V), c ∉ items.map (·.1) →
      (upsertAll table items).lookup c = table.lookup c := by
    intro items
    induction items with
    | nil => exact fun table _ => rfl
    | cons item rest ih =>
      intro table hnot
      rw [List.map_cons, List.mem_cons, not_or] at hnot
      show (upsertAll (Grouping.upsert table item.1 item.2 fun _ => item.2) rest).lookup c = _
      rw [ih _ hnot.2, Grouping.lookup_upsert, if_neg hnot.1]
  induction items generalizing table with
  | nil => cases hmem
  | cons item rest ih =>
    rw [List.map_cons, List.nodup_cons] at h
    show (upsertAll (Grouping.upsert table item.1 item.2 fun _ => item.2) rest).lookup c = _
    obtain hfirst | hrest := List.mem_cons.mp hmem
    · subst hfirst
      rw [hkeep rest _ h.1, Grouping.lookup_upsert, if_pos rfl]
      match table.lookup c with
      | none => rfl
      | some old => rfl
    · exact ih h.2 hrest

theorem map_fst_batch {vectors : List V}
    (henough : (pendingChunks s.db docId).length ≤ vectors.length) :
    (batch docId doc s vectors).map (·.1) = (pendingChunks s.db docId).map (·.1) := by
  unfold batch batchItems
  rw [List.map_map]
  show ((pendingChunks s.db docId).zip vectors).map ((·.1) ∘ Prod.fst) = _
  rw [← List.map_map, List.map_fst_zip henough]

/-- The committed table has the batch. -/
theorem hasRow_upserted {vectors : List V}
    (henough : (pendingChunks s.db docId).length ≤ vectors.length) {c : Nat}
    {row : StoredVector V} (hmem : (c, row) ∈ batch docId doc s vectors) :
    (upserted docId doc s vectors).current.HasRow doc.knowledgeBaseId c row := by
  have hnodup : ((batch docId doc s vectors).map (·.1)).Nodup := by
    rw [map_fst_batch henough]
    exact nodup_pendingChunks docId s.db
  refine ⟨upsertAll ((s.tables doc.knowledgeBaseId).getD []) (batch docId doc s vectors), ?_,
    lookup_upsertAll hnodup hmem⟩
  show (if doc.knowledgeBaseId = doc.knowledgeBaseId then
    ((if doc.knowledgeBaseId = doc.knowledgeBaseId then _ else _ : Option (VectorTable V)).map _)
      else _) = _
  rw [if_pos rfl, if_pos rfl]
  rfl

/-- After the upserts, whatever becomes of the commits. -/
theorem truthful_upserted {vectors : List V}
    (h : Upserted E faults provider docId doc s vectors) {outcome : Except Exn Unit}
    {t : EmbeddingSession V}
    (hcurrent : ∀ c, IsReady t.current.db c →
      IsReady s.db c ∨ c ∈ (pendingChunks s.db docId).map (·.1))
    (hupserts : t.upserts = batch docId doc s vectors)
    (hcommitted : outcome = .ok () → t.committed = (upserted docId doc s vectors).current) :
    Truthful E provider docId doc s outcome t where
  ready := by
    intro c hready hnot
    rw [hupserts]
    exact own_of_mem doc h.toProvided h.enough ((hcurrent c hready).resolve_left hnot)
  complete := by
    intro hok c chunk hget hdoc _
    rw [hcommitted hok] at hget ⊢
    have hmarked : (markEmbedded s.db (pendingChunks s.db docId)).chunks.get c = some chunk := hget
    rw [get_markEmbedded] at hmarked
    by_cases hc : c ∈ (pendingChunks s.db docId).map (·.1)
    · rw [if_pos hc] at hmarked
      obtain ⟨old, -, hold⟩ := Option.map_eq_some_iff.mp hmarked
      have hstatus : chunk.embeddingStatus = "READY" := by
        rw [← hold]
        rfl
      obtain ⟨vector, hown, hmem⟩ := own_of_mem doc h.toProvided h.enough hc
      exact ⟨⟨chunk, hget, hstatus⟩, fun _ => ⟨vector, hown, hasRow_upserted h.enough hmem⟩⟩
    · rw [if_neg hc] at hmarked
      have hstatus : chunk.embeddingStatus = "READY" := by
        by_contra hnot
        have hpending := (mem_pendingChunks docId).mpr ⟨hmarked, hdoc, hnot⟩
        exact hc (List.mem_map_of_mem hpending)
      exact ⟨⟨chunk, hget, hstatus⟩, fun hnot => absurd ⟨chunk, hmarked, hstatus⟩ hnot⟩

/-- With too few vectors, the first chunk is READY and nothing is upserted. -/
theorem not_truthful_short {vectors : List V} (hne : vectors ≠ [])
    (hshort : vectors.length < (pendingChunks s.db docId).length) {outcome : Except Exn Unit} :
    ¬ Truthful E provider docId doc s outcome
      ((indexed doc s).mark ((pendingChunks s.db docId).take vectors.length)) := by
  intro h
  obtain ⟨entry, rest, hpending⟩ : ∃ entry rest, pendingChunks s.db docId = entry :: rest :=
    List.exists_cons_of_length_pos (by omega)
  have hentry : entry ∈ pendingChunks s.db docId := by simp [hpending]
  have hmarked : entry ∈ (pendingChunks s.db docId).take vectors.length := by
    have hlength : 0 < vectors.length := List.length_pos_iff.mpr hne
    rw [hpending, ← Nat.succ_pred_eq_of_pos hlength, List.take_succ_cons]
    exact List.mem_cons_self
  obtain ⟨hready, hnot⟩ := isReady_of_mem docId s hentry hmarked
  obtain ⟨vector, -, hmem⟩ := h.ready entry.1 hready hnot
  cases hmem

/-- Where an upsert fails, its chunk is READY and has not been upserted. -/
theorem not_truthful_notUpserted {vectors : List V} {i : Nat} {item : Nat × StoredVector V}
    (henough : (pendingChunks s.db docId).length ≤ vectors.length)
    (hitem : (batch docId doc s vectors)[i]? = some item) {outcome : Except Exn Unit} :
    ¬ Truthful E provider docId doc s outcome ((assembled docId doc s).execute
      doc.knowledgeBaseId ((batch docId doc s vectors).take i)) := by
  intro h
  obtain ⟨entry, vector, hi, -, rfl⟩ := (getElem?_batch docId doc s).mp hitem
  have hentry : entry ∈ pendingChunks s.db docId := List.mem_of_getElem? hi
  obtain ⟨hready, hnot⟩ := isReady_of_mem docId s hentry hentry
  obtain ⟨vector', -, hmem⟩ := h.ready entry.1 hready hnot
  have hupserted : (entry.1, storedVector docId doc vector') ∈
      (batch docId doc s vectors).take i := hmem
  -- The id of the chunk stands at one place of the batch only.
  have hnodup : ((batch docId doc s vectors).map (·.1)).Nodup := by
    rw [map_fst_batch henough]
    exact nodup_pendingChunks docId s.db
  obtain ⟨j, hj⟩ := List.mem_iff_getElem?.mp hupserted
  have hji : j < i := by
    have hbound := (List.getElem?_eq_some_iff.mp hj).1
    rw [List.length_take] at hbound
    omega
  rw [List.getElem?_take_of_lt hji] at hj
  have hidj : ((batch docId doc s vectors).map (·.1))[j]? = some entry.1 := by
    rw [List.getElem?_map, hj]
    rfl
  have hidi : ((batch docId doc s vectors).map (·.1))[i]? = some entry.1 := by
    rw [List.getElem?_map, hitem]
    rfl
  have hlt : j < ((batch docId doc s vectors).map (·.1)).length :=
    (List.getElem?_eq_some_iff.mp hidj).1
  have hsame : j = i := (List.getElem?_inj hlt hnodup).mp (hidj.trans hidi.symm)
  omega

/-- **What is committed** as READY has its own vector, however the call ends. -/
theorem committed_truthful (E : Embeddings V) (faults : EmbeddingFaults)
    (provider : EmbeddingProvider) (docId : Nat) (doc : KnowledgeDocument) (s : RagDb V) {c : Nat}
    (hready : IsReady (Proc.after (generateAndStoreSession E faults provider docId doc)
      (.start s)).committed.db c) (hnew : ¬ IsReady s.db c) :
    ∃ vector, OwnVector E provider docId s c vector ∧
      (Proc.after (generateAndStoreSession E faults provider docId doc)
        (.start s)).committed.HasRow doc.knowledgeBaseId c (storedVector docId doc vector) := by
  have hends := generateAndStoreSession_ends E faults provider docId doc s
  unfold Proc.after at hready ⊢
  generalize (generateAndStoreSession E faults provider docId doc).run (.start s) = result
    at hends hready ⊢
  have hcommitted : ∀ {vectors : List V}, Upserted E faults provider docId doc s vectors →
      IsReady (upserted docId doc s vectors).current.db c →
      ∃ vector, OwnVector E provider docId s c vector ∧
        (upserted docId doc s vectors).current.HasRow doc.knowledgeBaseId c
          (storedVector docId doc vector) := by
    intro vectors h hready
    have hmarked := (isReady_markEmbedded hready).resolve_left hnew
    obtain ⟨vector, hown, hmem⟩ := own_of_mem doc h.toProvided h.enough hmarked
    exact ⟨vector, hown, hasRow_upserted h.enough hmem⟩
  match hends with
  | .idle _ | .early _ | .short _ _ _ | .notUpserted _ _ _ _ _ => exact absurd hready hnew
  | .notCommitted rolledBack _ h =>
    match rolledBack with
    | true | false => exact absurd hready hnew
  | .committed h | .notFinished _ h => exact hcommitted h hready

/-! ## Without failures -/

theorem upsertItems_short (docId : Nat) (doc : KnowledgeDocument)
    {chunks : List (Nat × KnowledgeChunk)} {vectors : List V} (h : vectors.length < chunks.length) : ∃ exc, upsertItems docId doc chunks vectors = .error exc := by
  induction chunks generalizing vectors with
  | nil => simp at h
  | cons entry rest ih =>
    match vectors with
    | [] => exact ⟨_, rfl⟩
    | vector :: vectors =>
      have hshort : vectors.length < rest.length := by simpa using h
      obtain ⟨exc, hrest⟩ := ih hshort
      refine ⟨exc, ?_⟩
      unfold upsertItems
      rw [hrest]
      rfl

theorem upsertItems_ok {chunks : List (Nat × KnowledgeChunk)} {vectors : List V}
    (h : chunks.length ≤ vectors.length) :
    upsertItems docId doc chunks vectors = .ok (batchItems docId doc chunks vectors) := by
  induction chunks generalizing vectors with
  | nil => rfl
  | cons entry rest ih =>
    match vectors with
    | [] => simp at h
    | vector :: vectors =>
      have henough : rest.length ≤ vectors.length := by simpa using h
      unfold upsertItems
      rw [ih henough]
      rfl

/-- The batch of the session is the one that `generateAndStore` stores at once. -/
theorem upserted_current (vectors : List V) : (upserted docId doc s vectors).current =
    (s.createIndex doc.knowledgeBaseId).storeItems doc.knowledgeBaseId (pendingChunks s.db docId)
      (batch docId doc s vectors) := by
  have htables : (upserted docId doc s vectors).current.tables =
      ((s.createIndex doc.knowledgeBaseId).storeItems doc.knowledgeBaseId
        (pendingChunks s.db docId) (batch docId doc s vectors)).tables := by
    funext kb
    show (if kb = doc.knowledgeBaseId then _ else _) = if kb = doc.knowledgeBaseId then _ else _
    by_cases hkb : kb = doc.knowledgeBaseId
    · rw [if_pos hkb, if_pos hkb, hkb]
      show ((s.createIndex doc.knowledgeBaseId).tables doc.knowledgeBaseId).map _ = _
      unfold RagDb.createIndex
      simp
    · rw [if_neg hkb, if_neg hkb]
      rfl
  exact congrArg (RagDb.mk (markEmbedded s.db (pendingChunks s.db docId))) htables

/-- What `generateAndStore` leaves when the provider has returned. -/
theorem after_generateAndStore {vectors : List V} (hpending : pendingChunks s.db docId ≠ [])
    (hvectors : providedVectors E provider docId s = .ok vectors) :
    Proc.after (generateAndStore E provider docId doc) s =
      match upsertItems docId doc (pendingChunks s.db docId) vectors with
      | .error _ => s.createIndex doc.knowledgeBaseId
      | .ok items =>
          if items.any fun item => E.dimensions item.2.embedding != tableDimensions then
            s.createIndex doc.knowledgeBaseId
          else (s.createIndex doc.knowledgeBaseId).storeItems doc.knowledgeBaseId
            (pendingChunks s.db docId) items := by
  have hempty : ¬ (pendingChunks s.db docId).isEmpty = true :=
    fun h => hpending (List.isEmpty_iff.mp h)
  unfold providedVectors at hvectors
  unfold generateAndStore
  rw [Proc.after_bind, EStateM.run_get]
  dsimp only
  rw [if_neg hempty, hvectors, Proc.ofExcept_ok_bind, Proc.after_set_bind]
  match upsertItems docId doc (pendingChunks s.db docId) vectors with
  | .error exc => rfl
  | .ok items =>
    rw [Proc.ofExcept_ok_bind]
    dsimp only
    split
    · rfl
    · rfl

/-- Without failures, only the dimensions are in the way of an upsert. -/
theorem upsertFault_none {i : Nat} {item : Nat × StoredVector V} :
    upsertFault E {} i item = none ↔ E.dimensions item.2.embedding = tableDimensions := by
  unfold upsertFault
  by_cases hdimensions : E.dimensions item.2.embedding = tableDimensions
  · simp [hdimensions]
  · simp [hdimensions]

/-- **Without failures**, the call commits what `generateAndStore` says. -/
theorem generateAndStoreSession_committed (E : Embeddings V) (provider : EmbeddingProvider)
    (docId : Nat) (doc : KnowledgeDocument) (s : RagDb V) :
    (Proc.after (generateAndStoreSession E {} provider docId doc) (.start s)).committed =
      Proc.after (generateAndStore E provider docId doc) s := by
  have hends := generateAndStoreSession_ends E {} provider docId doc s
  conv_lhs => unfold Proc.after
  generalize (generateAndStoreSession E {} provider docId doc).run (.start s) = result at hends ⊢
  match hends with
  | .idle hnone =>
    unfold generateAndStore
    rw [Proc.after_bind, EStateM.run_get]
    dsimp only
    rw [if_pos (List.isEmpty_iff.mpr hnone)]
    rfl
  | .early hnone =>
    unfold generateAndStore
    rw [Proc.after_bind, EStateM.run_get]
    dsimp only
    by_cases hempty : (pendingChunks s.db docId).isEmpty = true
    · rw [if_pos hempty]
      rfl
    · have hpending : pendingChunks s.db docId ≠ [] := fun h => hempty (List.isEmpty_iff.mpr h)
      rw [if_neg hempty]
      match hvectors : providedVectors E provider docId s with
      | .ok vectors => exact absurd ⟨hpending, hvectors, rfl⟩ (hnone vectors)
      | .error exc =>
        unfold providedVectors at hvectors
        rw [hvectors]
        rfl
  | .short vectors h hshort =>
    obtain ⟨exc, hitems⟩ := upsertItems_short docId doc hshort
    rw [after_generateAndStore h.pending h.provided, hitems]
    rfl
  | .notUpserted vectors h henough hitem hfault =>
    rw [after_generateAndStore h.pending h.provided, upsertItems_ok henough]
    dsimp only
    rw [if_pos]
    · rfl
    · refine List.any_eq_true.mpr ⟨_, List.mem_of_getElem? hitem, ?_⟩
      rw [bne_iff_ne]
      intro hdimensions
      rw [upsertFault_none.mpr hdimensions] at hfault
      cases hfault
  | .notCommitted _ hcommit _ => exact absurd rfl hcommit
  | .notFinished hcommit _ => exact absurd rfl hcommit
  | .committed h =>
    rw [after_generateAndStore h.pending h.provided, upsertItems_ok h.enough]
    dsimp only
    rw [if_neg]
    · exact upserted_current _
    · intro hany
      obtain ⟨item, hmem, hdimensions⟩ := List.any_eq_true.mp hany
      obtain ⟨i, hi⟩ := List.mem_iff_getElem?.mp hmem
      rw [bne_iff_ne] at hdimensions
      exact hdimensions (upsertFault_none.mp (h.upserts i item hi))

/-- **Embedding statuses are truthful** after the call exactly if it does not come to mark chunks
    with fewer vectors than chunks, or before an upsert that fails. -/
theorem embeddingTruthful_iff (E : Embeddings V) (faults : EmbeddingFaults)
    (provider : EmbeddingProvider) (docId : Nat) (doc : KnowledgeDocument) (s : RagDb V) :
    EmbeddingTruthful E faults provider docId doc s ↔
      ¬ MarkedTooEarly E faults provider docId doc s := by
  have hends := generateAndStoreSession_ends E faults provider docId doc s
  unfold EmbeddingTruthful Proc.outcome Proc.after
  generalize (generateAndStoreSession E faults provider docId doc).run (.start s) = result at hends ⊢
  match hends with
  | .idle hnone =>
    have hnot : ¬ MarkedTooEarly E faults provider docId doc s := by
      intro hearly
      obtain ⟨vectors, hprovided, -⟩ := hearly
      exact hprovided.pending hnone
    exact iff_of_true (truthful_idle hnone) hnot
  | .early hnone =>
    have hnot : ¬ MarkedTooEarly E faults provider docId doc s := by
      intro hearly
      obtain ⟨vectors, hprovided, -⟩ := hearly
      exact hnone vectors hprovided
    exact iff_of_true ⟨fun c hready hnew => absurd hready hnew, fun hok => nomatch hok⟩ hnot
  | .short vectors hprovided hshort =>
    match hvectors : vectors with
    | [] =>
      have hnot : ¬ MarkedTooEarly E faults provider docId doc s := by
        intro hearly
        obtain ⟨vectors', hprovided', hne, -⟩ := hearly
        exact hne (hprovided'.unique hprovided)
      refine iff_of_true ⟨?_, fun hok => nomatch hok⟩ hnot
      intro c hready hnew
      exact absurd hready hnew
    | vector :: rest =>
      have hearly : MarkedTooEarly E faults provider docId doc s :=
        ⟨vector :: rest, hprovided, List.cons_ne_nil vector rest, .inl hshort⟩
      exact iff_of_false (not_truthful_short (List.cons_ne_nil vector rest) hshort) (not_not.mpr hearly)
  | .notUpserted vectors hprovided henough hitem hfault =>
    have hne : vectors ≠ [] := by
      intro hempty
      obtain ⟨entry, vector, -, hvector, -⟩ := (getElem?_batch docId doc s).mp hitem
      rw [hempty] at hvector
      cases hvector
    have hearly : MarkedTooEarly E faults provider docId doc s :=
      ⟨vectors, hprovided, hne, .inr ⟨_, _, _, hitem, hfault⟩⟩
    exact iff_of_false (not_truthful_notUpserted henough hitem) (not_not.mpr hearly)
  | .notCommitted rolledBack _ h =>
    refine iff_of_true (truthful_upserted h ?_ ?_ fun hok => nomatch hok) h.not_tooEarly
    · intro c hready
      match rolledBack with
      | true => exact .inl hready
      | false => exact isReady_markEmbedded hready
    · match rolledBack with
      | true => rfl
      | false => rfl
  | .committed h =>
    refine iff_of_true (truthful_upserted h ?_ rfl fun _ => rfl) h.not_tooEarly
    exact fun c hready => isReady_markEmbedded hready
  | .notFinished _ h =>
    refine iff_of_true (truthful_upserted h ?_ rfl fun hok => nomatch hok) h.not_tooEarly
    exact fun c hready => isReady_markEmbedded hready

end Call

/-! A document of one chunk, and a provider whose vectors have 768 dimensions. -/

def slides : KnowledgeDocument where
  knowledgeBaseId := 1
  filename := "slides"
  originalFilename := "slides.txt"
  mimeType := "text/plain"
  fileSize := 2
  checksum := "c"
  uploadedBy := 7

def slidesDb : RagDb Nat where
  db := {
    documents := Table.empty.insert slides
    chunks := Table.empty.insert
      { documentId := 0, chunkIndex := 0, text := "hi", tokenCount := 1, characterCount := 2 }
    document_exists := by
      intro id chunk hget
      rw [Table.get_insert] at hget
      split at hget
      · rw [← Option.some.inj hget]
        rfl
      · cases hget }
  tables := fun _ => none

/-- A vector is given by its dimensions. -/
def shortVectors : Embeddings Nat where
  generateEmbeddings := fun _ texts => .ok (texts.map fun _ => 768)
  generateEmbedding := fun _ => .ok 1536
  dimensions := id

theorem not_embeddingTruthful_slides :
    ¬ ∀ (V : Type) (E : Embeddings V) (faults : EmbeddingFaults) (provider : EmbeddingProvider)
      (docId : Nat) (doc : KnowledgeDocument) (s : RagDb V),
      EmbeddingTruthful E faults provider docId doc s := by
  intro h
  have htruthful := h Nat shortVectors {} .gemini 0 slides slidesDb
  have hafter : Proc.after (generateAndStoreSession shortVectors {} .gemini 0 slides)
      (.start slidesDb) = (assembled 0 slides slidesDb).execute slides.knowledgeBaseId
        ((batch 0 slides slidesDb [768]).take 0) := by
    rw [List.take_zero, EmbeddingSession.execute_nil]
    rfl
  unfold EmbeddingTruthful at htruthful
  rw [hafter] at htruthful
  have hitem : (batch 0 slides slidesDb [768])[0]? = some (0, storedVector 0 slides 768) := rfl
  exact not_truthful_notUpserted (by decide) hitem htruthful

end AgentCorp.Rag
