/-
  The context of a query against its budget.

  `select_chunks` charges 200 tokens for every chunk. A chunk has the tokens that the chunker has
  counted in it, which is a quarter of its characters, and no bound.

  * `sound_run`: what every history keeps of token counts and vector tables.
  * `selectChunks_eq`: the chunks that are selected are the first ones in order of similarity.
  * `retrieveContext_withinBudget_iff`: the queries whose context respects its budget.
-/
import AgentCorp.Knowledge.Pieces
import AgentCorp.Knowledge.Replacement
import AgentCorp.Lib.PriorityChoice
import AgentCorp.Rag.Histories

namespace AgentCorp.Rag

open AgentCorp.Python AgentCorp.Knowledge

variable {V : Type}

/-! ## Token counts -/

/-- Every chunk has the token count of its text. -/
def Counted (db : KnowledgeDb) : Prop :=
  ∀ c chunk, db.chunks.get c = some chunk → chunk.tokenCount = chunk.text.length / 4

def KeepsCounted (s t : IngestState) : Prop :=
  Counted s.db → Counted t.db

instance : IsPreorder IngestState KeepsCounted where
  refl := fun _ h => h
  trans := fun _ _ _ hab hbc h => hbc (hab h)

section Ingest

variable (codec : Codec) (faults : Faults) (filename contentType : String)
  (fileBytes : List UInt8) (id : Nat)

theorem keepsCounted_setStatus (status : ProcessingStatus) :
    Proc.Within KeepsCounted (setStatus id status) :=
  Proc.Within.modify fun _ h => h

theorem keepsCounted_commitChunk {info : ChunkInfo} (hinfo : info.tokenCount = info.text.length / 4)
    (idx : Nat) : Proc.Within KeepsCounted (commitChunk filename id info idx) := by
  intro s
  have hrun := run_commitChunk filename id info idx s
  match hinsert : (s.db.updateDocument id fun _ => s.doc).insertChunk
      (chunkRow filename id info idx) with
  | none =>
      rw [hinsert] at hrun
      rw [Proc.after_of_error hrun]
      exact refl_of _ s
  | some db =>
      rw [hinsert] at hrun
      rw [Proc.after_of_ok hrun]
      intro h c chunk hchunk
      have hchunks : db.chunks = s.db.chunks.insert _ := (insertChunk_eq_some hinsert).2
      have hget : (s.db.chunks.insert (chunkRow filename id info idx)).get c = some chunk := by
        rw [← hchunks]
        exact hchunk
      rw [Table.get_insert] at hget
      split at hget
      · rw [← Option.some.inj hget]
        exact hinfo
      · exact h c chunk hget

theorem tokenCount_chunkText {text : String} {info : ChunkInfo} (h : info ∈ chunkText text) :
    info.tokenCount = info.text.length / 4 := by
  obtain ⟨run, -, rfl⟩ := mem_chunkText.mp h
  rfl

theorem keepsCounted_ingestPipeline :
    Proc.Within KeepsCounted (ingestPipeline codec faults filename contentType fileBytes id) := by
  have hchunks : Proc.Within KeepsCounted
      (ingestChunks codec faults filename contentType fileBytes id) :=
    within_ingestChunks_of (fun status _ => keepsCounted_setStatus id status)
      (fun _ => Proc.Within.modify fun _ h => h)
      fun _ _ hinfo idx => keepsCounted_commitChunk filename id (tokenCount_chunkText hinfo) idx
  unfold ingestPipeline
  refine Proc.Within.tryCatch (hchunks.bind fun _ => keepsCounted_setStatus id _) fun exc => ?_
  exact (within_reach _).bind fun _ => (keepsCounted_setStatus id _).bind fun _ =>
    Proc.Within.throw _

end Ingest

theorem Counted.deleteDocument {db : KnowledgeDb} (h : Counted db) (docId : Nat) :
    Counted (db.deleteDocument docId) := by
  intro c chunk hchunk
  rw [deleteDocument_chunk] at hchunk
  obtain ⟨old, hold, rfl⟩ := Option.map_eq_some_iff.mp hchunk
  exact h c old hold

theorem Counted.ingestDocument {codec : Codec} {db : KnowledgeDb} (h : Counted db)
    (faults : Faults) (upload : Upload) :
    Counted (Proc.after (ingestDocument codec faults upload) db) := by
  have hreplaced : Counted (withoutReplaced codec upload db) := by
    unfold withoutReplaced
    match replacedDuplicate codec upload db with
    | none => exact h
    | some docId => exact h.deleteDocument docId
  rcases ingestDocument_after codec faults upload db with hafter | hafter
  · rw [hafter]
    exact hreplaced
  · rw [hafter]
    generalize withoutReplaced codec upload db = db' at hreplaced
    have hpipeline := keepsCounted_ingestPipeline codec faults upload.filename upload.contentType
      upload.fileBytes db'.documents.next
      { db := db'.insertDocument (newDocument codec upload), doc := newDocument codec upload }
      hreplaced
    have hstore := run_storeDocument codec faults upload db'
    match hrun : (ingestPipeline codec faults upload.filename upload.contentType upload.fileBytes
        db'.documents.next).run {
          db := db'.insertDocument (newDocument codec upload)
          doc := newDocument codec upload } with
    | .ok _ t =>
        rw [hrun] at hstore
        rw [Proc.after_of_ok hstore]
        rw [Proc.after_of_ok hrun] at hpipeline
        exact hpipeline
    | .error exc t =>
        rw [hrun] at hstore
        rw [Proc.after_of_error hstore]
        rw [Proc.after_of_error hrun] at hpipeline
        exact hpipeline

/-! ## What every history keeps -/

/-- Every chunk has the token count of its text, and a table has one vector for a chunk. -/
structure Sound (s : RagDb V) : Prop where
  counted : Counted s.db
  keyed : ∀ kbId table, s.tables kbId = some table → (Grouping.keys table).Nodup

theorem sound_empty : Sound (V := V) .empty where
  counted := fun _ _ hchunk => nomatch hchunk
  keyed := fun _ _ htable => nomatch htable

theorem Counted.markEmbedded {db : KnowledgeDb} (h : Counted db)
    (chunks : List (Nat × KnowledgeChunk)) : Counted (markEmbedded db chunks) := by
  unfold Rag.markEmbedded
  induction chunks generalizing db with
  | nil => exact h
  | cons entry rest ih =>
      refine @ih (db.setEmbeddingStatus entry.1 "READY") fun c chunk hchunk => ?_
      have hget : (db.chunks.modify entry.1 fun chunk =>
          { chunk with embeddingStatus := "READY" }).get c = some chunk := hchunk
      rw [Table.get_modify] at hget
      split at hget
      · next hc =>
          obtain ⟨old, hold, rfl⟩ := Option.map_eq_some_iff.mp hget
          exact h c old (hc ▸ hold)
      · exact h c chunk hget

theorem nodup_upsertAll {table : VectorTable V} (h : (Grouping.keys table).Nodup)
    (items : VectorTable V) : (Grouping.keys (upsertAll table items)).Nodup := by
  unfold upsertAll
  induction items generalizing table with
  | nil => exact h
  | cons item rest ih => exact ih (Grouping.nodup_upsert _ _ _ h)

theorem Sound.createIndex {s : RagDb V} (h : Sound s) (kbId : Nat) : Sound (s.createIndex kbId) where
  counted := h.counted
  keyed := by
    intro kb table htable
    change (if kb = kbId then some ((s.tables kb).getD []) else s.tables kb) = some table at htable
    split at htable
    · rw [← Option.some.inj htable]
      match hstored : s.tables kb with
      | none => exact List.nodup_nil
      | some stored => exact h.keyed kb stored hstored
    · exact h.keyed kb table htable

theorem Sound.storeItems {s : RagDb V} (h : Sound s) (kbId : Nat)
    (chunks : List (Nat × KnowledgeChunk)) (items : VectorTable V) :
    Sound (s.storeItems kbId chunks items) where
  counted := h.counted.markEmbedded chunks
  keyed := by
    intro kb table htable
    change (if kb = kbId then some (upsertAll ((s.tables kb).getD []) items) else s.tables kb) =
      some table at htable
    split at htable
    · rw [← Option.some.inj htable]
      apply nodup_upsertAll
      match hstored : s.tables kb with
      | none => exact List.nodup_nil
      | some stored => exact h.keyed kb stored hstored
    · exact h.keyed kb table htable

section Rebuild

variable {E : Embeddings V} {provider : EmbeddingProvider}

theorem Sound.generateAndStore {s : RagDb V} (h : Sound s) (docId : Nat) (doc : KnowledgeDocument) :
    Sound (Proc.after (generateAndStore E provider docId doc) s) := by
  have hindex := h.createIndex doc.knowledgeBaseId
  unfold Rag.generateAndStore
  rw [Proc.after_bind, EStateM.run_get]
  dsimp only
  by_cases hempty : (pendingChunks s.db docId).isEmpty = true
  · rw [if_pos hempty]
    exact h
  · rw [if_neg hempty]
    cases E.generateEmbeddings provider
        ((pendingChunks s.db docId).map fun entry => entry.2.text) with
    | error exc => exact h
    | ok vectors =>
        rw [Proc.ofExcept_ok_bind, Proc.after_set_bind]
        cases upsertItems docId doc (pendingChunks s.db docId) vectors with
        | error exc => exact hindex
        | ok items =>
            rw [Proc.ofExcept_ok_bind]
            split
            · exact hindex
            · exact hindex.storeItems _ _ _

theorem Sound.embedDocuments {s : RagDb V} (h : Sound s) (docs : List (Nat × KnowledgeDocument)) :
    Sound (Proc.after (embedDocuments E provider docs) s) := by
  induction docs generalizing s with
  | nil => exact h
  | cons entry rest ih =>
      have hfirst : Sound (Proc.after (Rag.generateAndStore E provider entry.1 entry.2) s) :=
        h.generateAndStore entry.1 entry.2
      unfold Rag.embedDocuments
      rw [Proc.after_bind]
      cases hrun : (Rag.generateAndStore E provider entry.1 entry.2).run s with
      | ok _ t =>
          rw [Proc.after_of_ok hrun] at hfirst
          exact ih hfirst
      | error exc t =>
          rw [Proc.after_of_error hrun] at hfirst
          exact hfirst

end Rebuild

/-- **One step**. -/
theorem Sound.step {s : RagDb V} (h : Sound s) (codec : Codec) (L : Lower) (op : Operation V) :
    Sound (step codec L s op) := by
  match op with
  | .ingest faults upload => exact ⟨h.counted.ingestDocument faults upload, h.keyed⟩
  | .rebuild E kbId providerName =>
      show Sound (Proc.after (rebuildEmbeddings E L kbId providerName) s)
      unfold rebuildEmbeddings
      rw [Proc.after_bind, EStateM.run_get]
      dsimp only
      rw [Proc.after_bind_pure]
      exact h.embedDocuments _
  | .delete docId => exact ⟨h.counted.deleteDocument docId, h.keyed⟩

/-- **Every history**. -/
theorem sound_run (codec : Codec) (L : Lower) {s : RagDb V} (h : Sound s)
    (history : List (Operation V)) : Sound (run codec L s history) := by
  induction history generalizing s with
  | nil => exact h
  | cons op rest ih => exact ih (h.step codec L op)

/-! ## What is selected -/

/-- How many chunks there is room for, at 200 tokens each. -/
def room (topK maxTokens : Int) : Nat :=
  (min topK (maxTokens / 200)).toNat

theorem selectFrom_eq (maxTokens tokenCount : Int) (ranked : List (Nat × Rat)) :
    selectFrom maxTokens tokenCount ranked =
      (ranked.take ((maxTokens - tokenCount) / 200).toNat).map (·.1) := by
  induction ranked generalizing tokenCount with
  | nil => simp [selectFrom]
  | cons entry rest ih =>
      unfold selectFrom
      split
      · next hover =>
          have hnone : ((maxTokens - tokenCount) / 200).toNat = 0 := by omega
          rw [hnone]
          rfl
      · next hroom =>
          have hmore : ((maxTokens - tokenCount) / 200).toNat =
              ((maxTokens - (tokenCount + 200)) / 200).toNat + 1 := by
            omega
          rw [hmore, ih]
          rfl

/-- **The selected chunks** are the first ones. -/
theorem selectChunks_eq (ranked : List (Nat × Rat)) {topK : Int} (htop : 0 ≤ topK)
    (maxTokens : Int) :
    selectChunks ranked topK maxTokens = (ranked.take (room topK maxTokens)).map (·.1) := by
  have hroom : room topK maxTokens = min ((maxTokens - 0) / 200).toNat topK.toNat := by
    unfold room
    omega
  unfold selectChunks takeSlice
  rw [if_neg (by omega), selectFrom_eq, List.take_take, hroom]

/-- A candidate: the chunk, its similarity and the metadata of its vector. -/
abbrev Candidate := Nat × Rat × VectorMetadata

/-- `Retriever.retrieve_candidates`. -/
def retrieveCandidates (E : Embeddings V) (S : VectorSearch V) (L : Lower) (s : RagDb V)
    (kbId : Nat) (query : String) (topK : Int) : Except Exn (List Candidate) := do
  let vector ← E.generateEmbedding (rewriteQuery L query)
  search E S s kbId vector topK

section Context

variable {E : Embeddings V} {S : VectorSearch V} {L : Lower} {s : RagDb V} {kbId : Nat}
  {query : String} {topK maxTokens : Int}

theorem retrieveChunks_of_ok {candidates : List Candidate}
    (h : retrieveCandidates E S L s kbId query topK = .ok candidates) :
    retrieveChunks E S L s kbId query topK maxTokens =
      .ok (serveChunks s.db (selectChunks (rankCandidates candidates) topK maxTokens)) := by
  obtain ⟨vector, hvector, hsearch⟩ := Proc.bind_ok h
  unfold retrieveChunks
  rw [hvector]
  show (search E S s kbId vector topK >>= _) = _
  rw [hsearch]
  rfl

/-- The candidates are rows of a table, and no more than were asked for. -/
theorem retrieveCandidates_spec (hsound : Sound s) {candidates : List Candidate}
    (h : retrieveCandidates E S L s kbId query topK = .ok candidates) :
    0 ≤ topK ∧ (candidates.map (·.1)).Nodup := by
  obtain ⟨vector, -, hsearch⟩ := Proc.bind_ok h
  unfold search at hsearch
  split at hsearch
  · cases hsearch
  · next table htable =>
      split at hsearch
      · cases hsearch
      · next htop =>
          unfold searchTable at hsearch
          split at hsearch
          · cases hsearch
          · rw [← Except.ok.inj hsearch, List.map_map]
            have hkeys : ((S.order vector table).map (·.1)).Nodup :=
              ((S.order_perm vector table).map _).nodup_iff.mpr (hsound.keyed kbId table htable)
            exact ⟨by omega, ((List.take_sublist _ _).map _).nodup hkeys⟩

theorem serveChunks_ids (db : KnowledgeDb) (ids : List Nat) :
    (serveChunks db ids).map (·.chunkId) = ids.filter fun c => (db.chunks.get c).isSome := by
  induction ids with
  | nil => rfl
  | cons c rest ih =>
      unfold serveChunks at ih ⊢
      cases hget : db.chunks.get c with
      | none => simpa [hget] using ih
      | some chunk => simpa [hget] using ih

/-- The tokens of the text of a chunk, if it is there. -/
def textTokens (db : KnowledgeDb) (c : Nat) : Nat :=
  ((db.chunks.get c).map fun chunk => chunk.text.length / 4).getD 0

/-- The stored token counts of a context. -/
def contextTokens (served : List ServedChunk) : Nat :=
  (served.map (·.chunk.tokenCount)).sum

theorem contextTokens_serveChunks {db : KnowledgeDb} (h : Counted db) (ids : List Nat) :
    contextTokens (serveChunks db ids) = (ids.map (textTokens db)).sum := by
  unfold contextTokens
  induction ids with
  | nil => rfl
  | cons c rest ih =>
      unfold serveChunks at ih ⊢
      cases hget : db.chunks.get c with
      | none => simpa [hget, textTokens] using ih
      | some chunk => simpa [hget, textTokens, h c chunk hget] using ih

/-- The similarities of the candidates. -/
def scores (candidates : List Candidate) : List (Nat × Rat) :=
  candidates.map fun c => (c.1, c.2.1)

theorem rankCandidates_perm (candidates : List Candidate) :
    (rankCandidates candidates).Perm (scores candidates) :=
  (List.perm_insertionSort _ candidates).map _

/-- Earlier in the ranking is not less similar. -/
theorem rankCandidates_ordered (candidates : List Candidate) :
    (rankCandidates candidates).Pairwise fun a b => b.2 ≤ a.2 :=
  List.pairwise_map.mpr (PriorityChoice.pairwise_sorted (fun c : Candidate => c.2.1) candidates)

/-- The budget of a context. What is served is a first part of the ranking, of the chunks that
    are there. -/
structure WithinBudget (db : KnowledgeDb) (candidates : List Candidate) (served : List ServedChunk)
    (topK maxTokens : Int) : Prop where
  tokens : (contextTokens served : Int) ≤ maxTokens
  count : (served.length : Int) ≤ topK
  distinct : (served.map (·.chunkId)).Nodup
  ordered : served.Pairwise fun earlier later => ∀ a b, (earlier.chunkId, a) ∈ scores candidates →
    (later.chunkId, b) ∈ scores candidates → b ≤ a
  unskipped : served.map (·.chunkId) <+:
    ((rankCandidates candidates).map (·.1)).filter fun c => (db.chunks.get c).isSome

/-- The tokens of the candidates that there is room for. -/
def firstTokens (db : KnowledgeDb) (candidates : List Candidate) (topK maxTokens : Int) : Nat :=
  (((rankCandidates candidates).take (room topK maxTokens)).map fun entry =>
    textTokens db entry.1).sum

/-- The ids of the ranking, in order of similarity. -/
theorem ids_ordered {candidates : List Candidate} (hnodup : (candidates.map (·.1)).Nodup) :
    ((rankCandidates candidates).map (·.1)).Pairwise fun c d => ∀ a b,
      (c, a) ∈ scores candidates → (d, b) ∈ scores candidates → b ≤ a := by
  have hkeys : ((scores candidates).map (·.1)).Nodup := by
    unfold scores
    rw [List.map_map]
    exact hnodup
  refine List.pairwise_map.mpr ((rankCandidates_ordered candidates).imp_of_mem ?_)
  intro x y hx hy hle a b ha hb
  have hx' := (rankCandidates_perm candidates).mem_iff.mp hx
  have hy' := (rankCandidates_perm candidates).mem_iff.mp hy
  -- A chunk has one similarity.
  have hxa : (x.1, a) = x := List.inj_on_of_nodup_map hkeys ha hx' rfl
  have hyb : (y.1, b) = y := List.inj_on_of_nodup_map hkeys hb hy' rfl
  rw [← hxa, ← hyb] at hle
  exact hle

/-- **The budget is respected** but for the tokens. -/
theorem withinBudget_iff (hsound : Sound s) {candidates : List Candidate}
    (h : retrieveCandidates E S L s kbId query topK = .ok candidates) :
    WithinBudget s.db candidates
        (serveChunks s.db (selectChunks (rankCandidates candidates) topK maxTokens)) topK maxTokens ↔
      (firstTokens s.db candidates topK maxTokens : Int) ≤ maxTokens := by
  obtain ⟨htop, hnodup⟩ := retrieveCandidates_spec hsound h
  rw [selectChunks_eq _ htop]
  have htokens := contextTokens_serveChunks hsound.counted
    (((rankCandidates candidates).take (room topK maxTokens)).map (·.1))
  have hids := serveChunks_ids s.db
    (((rankCandidates candidates).take (room topK maxTokens)).map (·.1))
  have hfront : (((rankCandidates candidates).take (room topK maxTokens)).map (·.1)).filter
      (fun c => (s.db.chunks.get c).isSome) <+:
        ((rankCandidates candidates).map (·.1)).filter fun c => (s.db.chunks.get c).isSome :=
    ((List.take_prefix _ _).map _).filter _
  rw [List.map_map] at htokens
  constructor
  · intro hbudget
    have hsum := hbudget.tokens
    rw [htokens] at hsum
    exact hsum
  · intro hfirst
    refine ⟨by rw [htokens]; exact hfirst, ?_, ?_, ?_, by rw [hids]; exact hfront⟩
    · have hlength := congrArg List.length hids
      have hfilter := List.length_filter_le (fun c => (s.db.chunks.get c).isSome)
        (((rankCandidates candidates).take (room topK maxTokens)).map (·.1))
      have htake := List.length_take_le (room topK maxTokens) (rankCandidates candidates)
      have hroom : (room topK maxTokens : Int) ≤ topK := by
        unfold room
        omega
      rw [List.length_map] at hlength hfilter
      omega
    · rw [hids]
      have hranked : ((rankCandidates candidates).map (·.1)).Nodup := by
        refine ((rankCandidates_perm candidates).map _).nodup_iff.mpr ?_
        unfold scores
        rw [List.map_map]
        exact hnodup
      exact (hfront.sublist.trans List.filter_sublist).nodup hranked
    · have hordered := (ids_ordered hnodup).sublist (hfront.sublist.trans List.filter_sublist)
      rw [← hids] at hordered
      exact List.pairwise_map.mp hordered

end Context

/-- **A context respects its budget** exactly when the chunks that there is room for, at 200 tokens
    each, have no more tokens together. -/
theorem retrieveContext_withinBudget_iff (codec : Codec) (L : Lower) (history : List (Operation V))
    (E : Embeddings V) (S : VectorSearch V) (kbId : Nat) (query : String) (topK maxTokens : Int) :
    (∀ candidates served,
        retrieveCandidates E S L (run codec L .empty history) kbId query topK = .ok candidates →
        retrieveChunks E S L (run codec L .empty history) kbId query topK maxTokens = .ok served →
          WithinBudget (run codec L .empty history).db candidates served topK maxTokens) ↔
      ∀ candidates,
        retrieveCandidates E S L (run codec L .empty history) kbId query topK = .ok candidates →
          (firstTokens (run codec L .empty history).db candidates topK maxTokens : Int) ≤
            maxTokens := by
  have hsound : Sound (run codec L .empty history) := sound_run codec L sound_empty history
  constructor
  · intro h candidates hcandidates
    exact (withinBudget_iff hsound hcandidates).mp
      (h candidates _ hcandidates (retrieveChunks_of_ok hcandidates))
  · intro h candidates served hcandidates hserved
    obtain rfl := Except.ok.inj (hserved.symm.trans (retrieveChunks_of_ok hcandidates))
    exact (withinBudget_iff hsound hcandidates).mpr (h candidates hcandidates)

/-- Where no text has more than 200 tokens, every budget is respected. -/
theorem firstTokens_le_of_short {db : KnowledgeDb} (candidates : List Candidate) (topK : Int)
    {maxTokens : Int} (hmax : 0 ≤ maxTokens) (hshort : ∀ c, textTokens db c ≤ 200) :
    (firstTokens db candidates topK maxTokens : Int) ≤ maxTokens := by
  have hsum : ∀ ranked : List (Nat × Rat),
      (ranked.map fun entry => textTokens db entry.1).sum ≤ 200 * ranked.length := by
    intro ranked
    induction ranked with
    | nil => simp
    | cons entry rest ih =>
        have hentry := hshort entry.1
        simp only [List.map_cons, List.sum_cons, List.length_cons]
        omega
  have htokens := hsum ((rankCandidates candidates).take (room topK maxTokens))
  have htake := List.length_take_le (room topK maxTokens) (rankCandidates candidates)
  have hroom : 200 * (room topK maxTokens : Int) ≤ maxTokens := by
    unfold room
    omega
  unfold firstTokens
  omega

/-! A file with one long line, and a budget of 200 tokens. -/

def minutesCodec : Codec :=
  asciiCodec fun _ => "41edece42d63e8d9bf515a9ba6932e1c20cbc9f5a5d134645adb5db1b9737ea3"

def minutesUpload (text : String) : Upload where
  kbId := 1
  filename := "minutes.txt"
  contentType := "text/plain"
  fileBytes := asciiBytes text
  userId := 1

section Minutes

variable {text : String} {info : ChunkInfo}

/-- The database with the document of the file, where its pipeline starts. -/
def minutesState (text : String) : IngestState where
  db := KnowledgeDb.empty.insertDocument (newDocument minutesCodec (minutesUpload text))
  doc := newDocument minutesCodec (minutesUpload text)

def ingestMinutes (text : String) : KnowledgeDb :=
  Proc.after (ingestDocument minutesCodec (fun _ => none) (minutesUpload text)) .empty

theorem ingestChunks_minutes (hascii : ∀ c ∈ text.toList, c.toNat < 128)
    (h : chunkText text = [info]) :
    ∃ t, (ingestChunks minutesCodec (fun _ => none) "minutes.txt" "text/plain" (asciiBytes text)
        0).run (minutesState text) = .ok () t ∧
      t.db.chunks.rows = [(0, chunkRow "minutes.txt" 0 info 0)] ∧
      (∃ row, t.db.documents.rows = [(0, row)]) ∧ t.doc.knowledgeBaseId = 1 ∧
      t.doc.isDeleted = false := by
  have hdecode : minutesCodec.decode (asciiBytes text) = text := decode_asciiBytes _ hascii
  rw [run_ingestChunks rfl rfl rfl]
  show ∃ t, (createChunks _ _ _
    (chunkText (minutesCodec.decode (asciiBytes text))).zipIdx).run _ = _ ∧ _
  rw [hdecode, h]
  exact ⟨_, rfl, rfl, ⟨_, rfl⟩, rfl, rfl⟩

/-- No upload came before this one, so it is stored. -/
theorem ingestMinutes_eq (hsize : text.length ≤ maxFileSizeBytes) :
    ingestMinutes text =
      Proc.after (storeDocument minutesCodec (fun _ => none) (minutesUpload text)) .empty := by
  have hvalid : validateFile (minutesUpload text).filename (minutesUpload text).contentType
      (minutesUpload text).fileBytes.length = .ok () := by
    show validateFile "minutes.txt" "text/plain" (asciiBytes text).length = .ok ()
    rw [asciiBytes, List.length_map, String.length_toList]
    unfold validateFile
    rw [if_neg (by decide), if_neg (Nat.not_lt.mpr hsize), if_neg (by decide)]
  have hchecked : (Proc.ofExcept (.ok ()) : Proc KnowledgeDb Exn Unit).run .empty =
      .ok () .empty := rfl
  have hresolve : (resolveDuplicate minutesCodec (minutesUpload text)).run .empty =
      .ok () .empty := run_resolveDuplicate ..
  refine Proc.after_congr ?_
  unfold ingestDocument
  rw [hvalid, Proc.run_bind_of_ok hchecked, Proc.run_bind_of_ok hresolve]

theorem ingestMinutes_rows (hascii : ∀ c ∈ text.toList, c.toNat < 128)
    (hsize : text.length ≤ maxFileSizeBytes) (h : chunkText text = [info]) :
    ∃ doc, (ingestMinutes text).documents.rows = [(0, doc)] ∧ doc.knowledgeBaseId = 1 ∧
      doc.isDeleted = false ∧
      (ingestMinutes text).chunks.rows = [(0, chunkRow "minutes.txt" 0 info 0)] := by
  obtain ⟨t, hrun, hchunks, ⟨row, hrow⟩, hkb, hlive⟩ := ingestChunks_minutes hascii h
  have hpipeline : (ingestPipeline minutesCodec (fun _ => none) (minutesUpload text).filename
      (minutesUpload text).contentType (minutesUpload text).fileBytes
      KnowledgeDb.empty.documents.next).run
        { db := KnowledgeDb.empty.insertDocument (newDocument minutesCodec (minutesUpload text))
          doc := newDocument minutesCodec (minutesUpload text) } =
        (setStatus 0 .ready).run t := by
    show (ingestPipeline _ _ "minutes.txt" "text/plain" (asciiBytes text) 0).run
      (minutesState text) = _
    unfold ingestPipeline
    rw [Proc.run_tryCatch, Proc.run_bind_of_ok hrun]
    rfl
  have hstore := run_storeDocument minutesCodec (fun _ => none) (minutesUpload text) .empty
  rw [hpipeline, run_setStatus] at hstore
  rw [ingestMinutes_eq hsize, Proc.after_of_ok hstore]
  refine ⟨{ t.doc with processingStatus := .ready }, ?_, hkb, hlive, hchunks⟩
  show t.db.documents.rows.map _ = _
  rw [hrow]
  rfl

/-- The rebuild stores the vector of the one chunk there is. -/
theorem rebuild_single {db : KnowledgeDb} {doc : KnowledgeDocument} {chunk : KnowledgeChunk}
    (hdocuments : db.documents.rows = [(0, doc)]) (hkb : doc.knowledgeBaseId = 1)
    (hlive : doc.isDeleted = false) (hchunks : db.chunks.rows = [(0, chunk)])
    (hid : chunk.documentId = 0) (hpending : chunk.embeddingStatus = "PENDING") (L : Lower) (v : V) :
    ∃ stored chunk', (Proc.after (rebuildEmbeddings (constantEmbeddings v) L 1 "openai")
        { db, tables := fun _ => none }).tables 1 = some [(0, stored)] ∧
      (Proc.after (rebuildEmbeddings (constantEmbeddings v) L 1 "openai")
        { db, tables := fun _ => none }).db.chunks.get 0 = some chunk' ∧
      chunk'.tokenCount = chunk.tokenCount := by
  have hlisted : db.listByKb 1 = [(0, doc)] := by
    simp [KnowledgeDb.listByKb, Table.select, hdocuments, hkb, hlive]
  have hselected : pendingChunks db 0 = [(0, chunk)] := by
    simp [pendingChunks, Table.select, hchunks, hid, hpending]
  have hget : db.chunks.get 0 = some chunk := by
    unfold Table.get
    rw [hchunks]
    rfl
  have hembed : ∃ item : StoredVector V, Proc.after
      (generateAndStore (constantEmbeddings v) (resolveProvider L "openai") 0 doc)
        { db, tables := fun _ => none } =
      (RagDb.createIndex { db, tables := fun _ => none } 1).storeItems 1 [(0, chunk)]
        [(0, item)] := by
    unfold generateAndStore
    rw [Proc.after_bind, EStateM.run_get]
    dsimp only
    rw [hselected, hkb]
    exact ⟨_, rfl⟩
  obtain ⟨item, hembed⟩ := hembed
  have hafter : Proc.after (rebuildEmbeddings (constantEmbeddings v) L 1 "openai")
      { db, tables := fun _ => none } = Proc.after
        (generateAndStore (constantEmbeddings v) (resolveProvider L "openai") 0 doc)
          { db, tables := fun _ => none } := by
    unfold rebuildEmbeddings
    rw [Proc.after_bind, EStateM.run_get]
    dsimp only
    rw [Proc.after_bind_pure, hlisted]
    unfold embedDocuments
    rw [embedDocuments, Proc.after_bind_pure]
  rw [hafter, hembed]
  refine ⟨item, { chunk with embeddingStatus := "READY" }, rfl, ?_, rfl⟩
  show (db.chunks.modify 0 _).get 0 = _
  rw [Table.get_modify, if_pos rfl, hget]
  rfl

end Minutes

/-- A line of `n` characters. -/
def longLine (n : Nat) : String :=
  String.ofList (List.replicate n 'a')

theorem ascii_longLine (n : Nat) : ∀ c ∈ (longLine n).toList, c.toNat < 128 := by
  intro c hc
  rw [longLine, String.toList_ofList] at hc
  rw [List.eq_of_mem_replicate hc]
  decide

theorem chunkText_longLine (n : Nat) : chunkText (longLine n) = [chunkInfo [longLine n]] := by
  refine chunkText_single (fun hline => ?_) 1000
  rw [longLine, String.toList_ofList] at hline
  exact absurd (List.eq_of_mem_replicate hline) (by decide)

theorem tokenCount_longLine (n : Nat) : (chunkInfo [longLine n]).tokenCount = n / 4 := by
  show ("\n\n".intercalate [longLine n]).length / 4 = n / 4
  rw [String.intercalate_singleton, longLine, String.length_ofList, List.length_replicate]

def minutesHistory (text : String) (v : V) : List (Operation V) :=
  [.ingest (fun _ => none) (minutesUpload text), .rebuild (constantEmbeddings v) 1 "openai"]

/-- One chunk in the table, and room for it. -/
theorem retrieveChunks_single {s : RagDb V} {stored : StoredVector V} {chunk : KnowledgeChunk}
    (htable : s.tables 1 = some [(0, stored)]) (hchunk : s.db.chunks.get 0 = some chunk)
    (L : Lower) (query : String) (v : V) :
    ∃ candidates served,
      retrieveCandidates (constantEmbeddings v) storedOrder L s 1 query 1 = .ok candidates ∧
      retrieveChunks (constantEmbeddings v) storedOrder L s 1 query 1 200 = .ok served ∧
      chunk.tokenCount ≤ contextTokens served := by
  have hkey : 0 ∈ Grouping.keys [(0, stored)] := List.mem_cons_self
  have hsearch : search (constantEmbeddings v) storedOrder s 1 v 1 =
      .ok (storedCandidates [(0, stored)]) := search_stored htable v
  obtain ⟨served, hserved, hmem⟩ : ∃ served,
      retrieveChunks (constantEmbeddings v) storedOrder L s 1 query 1 200 = .ok served ∧
        { chunkId := 0, chunk, document := s.db.documents.get chunk.documentId } ∈ served :=
    retrieveChunks_all htable v hkey hchunk
  refine ⟨_, served, hsearch, hserved, ?_⟩
  obtain ⟨before, after, rfl⟩ := List.append_of_mem hmem
  unfold contextTokens
  simp only [List.map_append, List.map_cons, List.sum_append, List.sum_cons]
  omega

/-- The context is the line, whatever its length is. -/
theorem retrieveChunks_longLine {n : Nat} (hn : n ≤ maxFileSizeBytes) (v : V) :
    ∃ candidates served,
      retrieveCandidates (constantEmbeddings v) storedOrder Lower.asciiOnly
        (run minutesCodec Lower.asciiOnly .empty (minutesHistory (longLine n) v)) 1 "minutes" 1 =
          .ok candidates ∧
      retrieveChunks (constantEmbeddings v) storedOrder Lower.asciiOnly
        (run minutesCodec Lower.asciiOnly .empty (minutesHistory (longLine n) v)) 1 "minutes" 1
          200 = .ok served ∧ n / 4 ≤ contextTokens served := by
  have hsize : (longLine n).length ≤ maxFileSizeBytes := by
    rwa [longLine, String.length_ofList, List.length_replicate]
  obtain ⟨doc, hdocuments, hkb, hlive, hchunks⟩ :=
    ingestMinutes_rows (ascii_longLine n) hsize (chunkText_longLine n)
  obtain ⟨stored, chunk, htable, hchunk, htokens⟩ := rebuild_single hdocuments hkb hlive hchunks
    rfl rfl Lower.asciiOnly v
  have hingest : step (V := V) minutesCodec Lower.asciiOnly .empty
      (.ingest (fun _ => none) (minutesUpload (longLine n))) =
        { db := ingestMinutes (longLine n), tables := fun _ => none } := rfl
  have hrun : run minutesCodec Lower.asciiOnly .empty (minutesHistory (longLine n) v) =
      Proc.after (rebuildEmbeddings (constantEmbeddings v) Lower.asciiOnly 1 "openai")
        { db := ingestMinutes (longLine n), tables := fun _ => none } := by
    unfold run minutesHistory
    rw [List.foldl_cons, hingest, List.foldl_cons, List.foldl_nil]
    rfl
  have hrow : chunk.tokenCount = n / 4 := htokens.trans (tokenCount_longLine n)
  rw [hrun, ← hrow]
  exact retrieveChunks_single htable hchunk Lower.asciiOnly "minutes" v

theorem not_withinBudget_longLine :
    ¬ ∀ (codec : Codec) (L : Lower) (history : List (Operation (List Int)))
        (E : Embeddings (List Int)) (S : VectorSearch (List Int)) (kbId : Nat) (query : String)
        (topK maxTokens : Int) candidates served,
      retrieveCandidates E S L (run codec L .empty history) kbId query topK = .ok candidates →
      retrieveChunks E S L (run codec L .empty history) kbId query topK maxTokens = .ok served →
        WithinBudget (run codec L .empty history).db candidates served topK maxTokens := by
  intro hall
  obtain ⟨candidates, served, hcandidates, hserved, htokens⟩ :=
    retrieveChunks_longLine (n := 1000) (by decide) (List.replicate tableDimensions (1 : Int))
  have hbudget := (hall _ _ _ _ _ _ _ _ _ candidates served hcandidates hserved).tokens
  omega

end AgentCorp.Rag
