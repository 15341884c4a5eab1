/-
  When deleted documents are served.

  A deletion marks rows. The vectors stay in their table, and `retrieve_context` gets the rows it
  finds by id, whether they are marked or not. So a deleted document is served from the moment
  on that it is deleted with a vector, and never where that does not happen.

  * `onlyActive_of_current`, `not_onlyActive`: what a context shows.
  * `run_eraseText`, `retrieveContext_eraseText`: the text of a deleted document is not read.
  * `deletedNeverServed_iff`: the condition on a history.
-/
import AgentCorp.Knowledge.Erasure
import AgentCorp.Rag.Histories

namespace AgentCorp.Rag

open AgentCorp.Python AgentCorp.Knowledge

variable {V : Type}

/-! ## The requirement -/

/-- Every context shows chunks that are not deleted, of documents that are not deleted. -/
def OnlyActive (L : Lower) (s : RagDb V) : Prop :=
  ∀ (E : Embeddings V) (S : VectorSearch V) (kbId : Nat) (query : String) (topK maxTokens : Int)
    (served : List ServedChunk), retrieveChunks E S L s kbId query topK maxTokens = .ok served →
    ∀ shown ∈ served, shown.chunk.isDeleted = false ∧
      ∃ doc, shown.document = some doc ∧ doc.isDeleted = false

/-- Two rows of a table, which may differ in the embedding of a chunk of the document. -/
def SameVector (db : KnowledgeDb) (docId : Nat) (row row' : Nat × StoredVector V) : Prop :=
  row.1 = row'.1 ∧ (row.2 = row'.2 ∨
    ∃ chunk, db.chunks.get row.1 = some chunk ∧ chunk.documentId = docId)

/-- Two states that differ at most in the texts of a document's chunks, and what is computed from
    them. -/
structure SameButText (docId : Nat) (s s' : RagDb V) : Prop where
  rows : s.db.eraseText docId = s'.db.eraseText docId
  tables : ∀ kbId, Option.Rel (List.Forall₂ (SameVector s.db docId)) (s.tables kbId)
    (s'.tables kbId)

/-- After the deletion of the document and some calls, no context depends on its text. -/
def TextForgotten (codec : Codec) (L : Lower) (s : RagDb V) (docId : Nat)
    (after : List (Operation V)) : Prop :=
  ∀ s', SameButText docId s s' → ∀ (E : Embeddings V) (S : VectorSearch V) (kbId : Nat)
    (query : String) (topK maxTokens : Int),
    retrieveContext E S L (run codec L s (.delete docId :: after)) kbId query topK maxTokens =
      retrieveContext E S L (run codec L s' (.delete docId :: after)) kbId query topK maxTokens

/-- Deleted documents are not served after a history. -/
structure DeletedNeverServed (codec : Codec) (L : Lower) (history : List (Operation V)) :
    Prop where
  active : OnlyActive L (run codec L .empty history)
  forgotten : ∀ before docId after, history = before ++ .delete docId :: after →
    TextForgotten codec L (run codec L .empty before) docId after

/-! ## What a context shows -/

theorem onlyActive_of_current {s : RagDb V} (L : Lower) (h : Current s) : OnlyActive L s := by
  intro E S kbId query topK maxTokens served hserved shown hshown
  obtain ⟨hvector, hchunk, hdocument⟩ := mem_retrieveChunks hserved shown hshown
  obtain ⟨chunk, hchunk', hcurrent⟩ := h.vector kbId shown.chunkId hvector
  obtain rfl := Option.some.inj (hchunk.symm.trans hchunk')
  obtain ⟨doc, hdoc⟩ := Option.isSome_iff_exists.mp (s.db.document_exists _ _ hchunk)
  have hlive : doc.isDeleted = false := by
    rw [← Bool.not_eq_true]
    exact fun hdeleted => hcurrent ⟨doc, hdoc, hdeleted⟩
  have hchunkLive : shown.chunk.isDeleted = false := by
    rw [← Bool.not_eq_true]
    exact fun hdeleted => hcurrent (h.chunk _ _ hchunk hdeleted)
  exact ⟨hchunkLive, doc, by rw [hdocument, hdoc], hlive⟩

/-- A document that is deleted with a vector is served. -/
theorem not_onlyActive {s t : RagDb V} {docId : Nat} (L : Lower)
    (heffect : Effect (some docId) s t) (hembedded : Embedded s docId) : ¬ OnlyActive L t := by
  intro hactive
  obtain ⟨kbId, c, chunk, ⟨table, htable, hc⟩, hchunk, hid⟩ := hembedded
  obtain ⟨chunk', hchunk', hid'⟩ := heffect.marks.chunk c chunk hchunk
  obtain ⟨doc, hdoc, hdeleted⟩ := (heffect.marks.deleted docId).mpr (.inr rfl)
  rw [← heffect.tables (by simp)] at htable
  obtain ⟨row, -, -⟩ := List.mem_map.mp hc
  have hserved : ∃ served, retrieveChunks (constantEmbeddings row.2.embedding) storedOrder L t kbId
      "" table.length (200 * table.length) = .ok served ∧
        { chunkId := c, chunk := chunk', document := t.db.documents.get chunk'.documentId } ∈
          served := retrieveChunks_all htable row.2.embedding hc hchunk'
  obtain ⟨served, hserved, hmem⟩ := hserved
  obtain ⟨-, doc', hdoc', hlive⟩ := hactive _ _ _ _ _ _ served hserved _ hmem
  have hsame : t.db.documents.get chunk'.documentId = some doc' := hdoc'
  rw [hid', hid, hdoc] at hsame
  rw [← Option.some.inj hsame, hdeleted] at hlive
  cases hlive

/-! ## The text of a deleted document -/

def RagDb.eraseText (docId : Nat) (s : RagDb V) : RagDb V :=
  { s with db := s.db.eraseText docId }

theorem pendingChunks_eraseText (db : KnowledgeDb) {docId other : Nat} (hne : other ≠ docId) :
    pendingChunks (db.eraseText docId) other = pendingChunks db other := by
  have hselect : pendingChunks (db.eraseText docId) other =
      (pendingChunks db other).map fun row => (row.1, row.2.eraseText docId) :=
    Table.select_mapRows db.chunks (·.eraseText docId) fun chunk => by simp
  rw [hselect]
  refine (List.map_congr_left fun row hrow => ?_).trans (List.map_id _)
  obtain ⟨-, hpending⟩ := Table.mem_select.mp hrow
  simp only [Bool.and_eq_true, beq_iff_eq] at hpending
  have hother : row.2.documentId ≠ docId := by
    rw [hpending.1]
    exact hne
  rw [eraseText_of_ne docId hother]
  rfl

theorem markEmbedded_eraseText (db : KnowledgeDb) (docId : Nat)
    (chunks : List (Nat × KnowledgeChunk)) :
    markEmbedded (db.eraseText docId) chunks = (markEmbedded db chunks).eraseText docId := by
  unfold markEmbedded
  induction chunks generalizing db with
  | nil => rfl
  | cons entry rest ih =>
      rw [List.foldl_cons, List.foldl_cons, KnowledgeDb.eraseText_setEmbeddingStatus, ih]

theorem storeItems_eraseText (s : RagDb V) (docId kbId : Nat)
    (chunks : List (Nat × KnowledgeChunk)) (items : VectorTable V) :
    (s.eraseText docId).storeItems kbId chunks items =
      (s.storeItems kbId chunks items).eraseText docId := by
  unfold RagDb.storeItems RagDb.eraseText
  dsimp only
  rw [markEmbedded_eraseText]

section Rebuild

variable {E : Embeddings V} {provider : EmbeddingProvider} {docId : Nat} {s : RagDb V}

theorem commutes_generateAndStore {other : Nat} {doc : KnowledgeDocument} (hne : other ≠ docId) :
    Proc.Commutes (RagDb.eraseText docId) (generateAndStore E provider other doc) s := by
  unfold generateAndStore
  apply Proc.Commutes.get_bind
  have hpending : pendingChunks (s.eraseText docId).db other = pendingChunks s.db other :=
    pendingChunks_eraseText s.db hne
  rw [hpending]
  dsimp only
  by_cases hempty : (pendingChunks s.db other).isEmpty = true
  · rw [if_pos hempty, if_pos hempty]
    rfl
  · rw [if_neg hempty, if_neg hempty]
    cases E.generateEmbeddings provider
        ((pendingChunks s.db other).map fun entry => entry.2.text) with
    | error exc => rfl
    | ok vectors =>
        rw [Proc.ofExcept_ok_bind, Proc.ofExcept_ok_bind]
        cases hitems : upsertItems other doc (pendingChunks s.db other) vectors with
        | error exc => rfl
        | ok items =>
            have hstore := storeItems_eraseText (s.createIndex doc.knowledgeBaseId) docId
              doc.knowledgeBaseId (pendingChunks s.db other) items
            by_cases hdimensions : (items.any fun item =>
                E.dimensions item.2.embedding != tableDimensions) = true
            · simp only [Proc.ofExcept_ok_bind, if_pos hdimensions]
              rfl
            · simp only [Proc.ofExcept_ok_bind, if_neg hdimensions]
              exact congrArg (EStateM.Result.ok ()) hstore

theorem commutes_embedDocuments {docs : List (Nat × KnowledgeDocument)}
    (h : ∀ entry ∈ docs, entry.1 ≠ docId) :
    Proc.Commutes (RagDb.eraseText docId) (embedDocuments E provider docs) s := by
  induction docs generalizing s with
  | nil => exact .pure ()
  | cons entry rest ih =>
      have hfirst := h entry List.mem_cons_self
      refine (commutes_generateAndStore hfirst).bind fun _ _ _ => ih ?_
      exact fun entry' hentry' => h entry' (List.mem_cons_of_mem _ hentry')

/-- A rebuild embeds no deleted document. -/
theorem commutes_rebuildEmbeddings {L : Lower} {kbId : Nat} {providerName : String}
    (hdeleted : Deleted s.db docId) :
    Proc.Commutes (RagDb.eraseText docId) (rebuildEmbeddings E L kbId providerName) s := by
  obtain ⟨doc, hdoc, hmark⟩ := hdeleted
  have hlisted : ∀ entry ∈ s.db.listByKb kbId, entry.1 ≠ docId := by
    intro entry hentry heq
    obtain ⟨hget, hmatch⟩ := Table.mem_select.mp hentry
    rw [heq, hdoc] at hget
    simp only [Bool.and_eq_true, Bool.not_eq_true'] at hmatch
    rw [← Option.some.inj hget, hmark] at hmatch
    cases hmatch.2
  have hdocs : Proc.Commutes (RagDb.eraseText docId)
      (embedDocuments E (resolveProvider L providerName) (s.db.listByKb kbId) >>= fun _ =>
        pure (s.db.listByKb kbId).length) s :=
    (commutes_embedDocuments hlisted).bind fun _ _ _ => .pure _
  unfold rebuildEmbeddings
  exact .get_bind hdocs

end Rebuild

section Run

variable {codec : Codec} {L : Lower} {docId : Nat} {s : RagDb V}

theorem step_delete_eraseText (other : Nat) :
    step codec L (s.eraseText docId) (.delete other) =
      (step codec L s (.delete other)).eraseText docId := by
  show RagDb.mk ((s.db.eraseText docId).deleteDocument other) s.tables = _
  rw [KnowledgeDb.eraseText_deleteDocument]
  rfl

theorem step_eraseText (hdeleted : Deleted s.db docId) (op : Operation V) :
    step codec L (s.eraseText docId) op = (step codec L s op).eraseText docId := by
  cases op with
  | ingest faults upload =>
      obtain ⟨doc, hdoc, -⟩ := hdeleted
      have hcommutes : Proc.Commutes (KnowledgeDb.eraseText · docId)
          (ingestDocument codec faults upload) s.db :=
        commutes_ingestDocument (Table.get_lt hdoc)
      show RagDb.mk (Proc.after (ingestDocument codec faults upload) (s.db.eraseText docId))
        s.tables = _
      rw [hcommutes.after]
      rfl
  | rebuild E kbId providerName => exact (commutes_rebuildEmbeddings hdeleted).after
  | delete other => exact step_delete_eraseText other

/-- **After its deletion**, the text of a document makes no difference to a history. -/
theorem run_eraseText (hdeleted : Deleted s.db docId) (history : List (Operation V)) :
    run codec L (s.eraseText docId) history = (run codec L s history).eraseText docId := by
  induction history generalizing s with
  | nil => rfl
  | cons op rest ih =>
      show run codec L (step codec L (s.eraseText docId) op) rest = _
      rw [step_eraseText hdeleted]
      exact ih (((effect_step codec L s op).marks.deleted docId).mpr (.inl hdeleted))

end Run

theorem serveChunks_eraseText {db : KnowledgeDb} {docId : Nat} {selected : List Nat}
    (h : ∀ c ∈ selected, ∀ chunk, db.chunks.get c = some chunk → chunk.documentId ≠ docId) :
    serveChunks (db.eraseText docId) selected = serveChunks db selected := by
  unfold serveChunks
  apply List.filterMap_congr
  intro c hc
  have herased : (db.eraseText docId).chunks.get c = db.chunks.get c := by
    show (db.chunks.mapRows _).get c = _
    rw [Table.get_mapRows]
    cases hget : db.chunks.get c with
    | none => rfl
    | some chunk => rw [Option.map_some, eraseText_of_ne docId (h c hc chunk hget)]
  rw [herased]
  rfl

/-- **A context** does not read the text of a document without vectors. -/
theorem retrieveContext_eraseText {s : RagDb V} {docId : Nat} (h : ¬ Embedded s docId)
    (E : Embeddings V) (S : VectorSearch V) (L : Lower) (kbId : Nat) (query : String)
    (topK maxTokens : Int) :
    retrieveContext E S L (s.eraseText docId) kbId query topK maxTokens =
      retrieveContext E S L s kbId query topK maxTokens := by
  have hsearch : ∀ vector, search E S (s.eraseText docId) kbId vector topK =
      search E S s kbId vector topK := fun _ => rfl
  unfold retrieveContext retrieveChunks
  cases E.generateEmbedding (rewriteQuery L query) with
  | error exc => rfl
  | ok vector =>
      show formatContext <$> (search E S (s.eraseText docId) kbId vector topK >>= _) =
        formatContext <$> (search E S s kbId vector topK >>= _)
      rw [hsearch]
      cases hcandidates : search E S s kbId vector topK with
      | error exc => rfl
      | ok candidates =>
          have hserve : serveChunks (s.db.eraseText docId)
              (selectChunks (rankCandidates candidates) topK maxTokens) =
              serveChunks s.db (selectChunks (rankCandidates candidates) topK maxTokens) :=
            serveChunks_eraseText fun c hc chunk hchunk hid =>
              h ⟨kbId, c, chunk, selected_hasVector hcandidates c hc, hchunk, hid⟩
          exact congrArg (fun served => Except.ok (formatContext served)) hserve

/-! ## Two states -/

theorem eraseText_eq_self {db : KnowledgeDb} {docId : Nat}
    (h : db.documents.get docId = none) : db.eraseText docId = db := by
  refine KnowledgeDb.ext rfl (Table.ext ?_ rfl)
  show db.chunks.rows.map (fun row => (row.1, row.2.eraseText docId)) = db.chunks.rows
  refine (List.map_congr_left fun row hrow => ?_).trans (List.map_id _)
  have hne : row.2.documentId ≠ docId := by
    intro hid
    have hexists := db.document_exists row.1 row.2 (Table.mem_rows_iff.mp hrow)
    rw [hid, h] at hexists
    cases hexists
  rw [eraseText_of_ne docId hne]
  rfl

theorem sameVectors_eq {db : KnowledgeDb} {docId : Nat} {table table' : VectorTable V}
    (h : List.Forall₂ (SameVector db docId) table table')
    (hnone : ∀ c ∈ Grouping.keys table, ∀ chunk, db.chunks.get c = some chunk →
      chunk.documentId ≠ docId) : table = table' := by
  induction h with
  | nil => rfl
  | cons hrow _ ih =>
      obtain ⟨hkey, hvector | ⟨chunk, hchunk, hid⟩⟩ := hrow
      · rw [Prod.ext hkey hvector, ih fun c hc => hnone c (List.mem_cons_of_mem _ hc)]
      · exact absurd hid (hnone _ List.mem_cons_self chunk hchunk)

/-- Without vectors of the document, the tables are the same. -/
theorem SameButText.tables_eq {s s' : RagDb V} {docId : Nat} (h : SameButText docId s s')
    (hnone : ¬ Embedded s docId) : s'.tables = s.tables := by
  funext kbId
  have hrel := h.tables kbId
  cases htable : s.tables kbId with
  | none =>
      rw [htable] at hrel
      cases htable' : s'.tables kbId with
      | none => rfl
      | some table' =>
          rw [htable'] at hrel
          cases hrel
  | some table =>
      rw [htable] at hrel
      cases htable' : s'.tables kbId with
      | none =>
          rw [htable'] at hrel
          cases hrel
      | some table' =>
          rw [htable'] at hrel
          cases hrel with
          | some hrows =>
              have hsame : table = table' := sameVectors_eq hrows fun c hc chunk hchunk hid =>
                hnone ⟨kbId, c, chunk, ⟨table, htable, hc⟩, hchunk, hid⟩
              rw [hsame]

theorem embedded_eraseText {s : RagDb V} {docId : Nat} :
    Embedded (s.eraseText docId) docId ↔ Embedded s docId := by
  have hget : ∀ c, (s.eraseText docId).db.chunks.get c =
      (s.db.chunks.get c).map (·.eraseText docId) := fun c => Table.get_mapRows _ _ c
  constructor
  · rintro ⟨kbId, c, chunk, hvector, hchunk, hid⟩
    rw [hget] at hchunk
    obtain ⟨old, hold, rfl⟩ := Option.map_eq_some_iff.mp hchunk
    rw [eraseText_documentId] at hid
    exact ⟨kbId, c, old, hvector, hold, hid⟩
  · rintro ⟨kbId, c, chunk, hvector, hchunk, hid⟩
    refine ⟨kbId, c, chunk.eraseText docId, hvector, ?_, by rw [eraseText_documentId, hid]⟩
    rw [hget, hchunk, Option.map_some]

/-- A document that is not there, or is deleted, has no vectors while those are current. -/
theorem Current.not_embedded_of_inactive {s : RagDb V} (h : Current s) {docId : Nat}
    (hinactive : ¬ (s.db.getActive docId).isSome = true) : ¬ Embedded s docId := by
  intro hembedded
  obtain ⟨kbId, c, chunk, -, hchunk, hid⟩ := id hembedded
  obtain ⟨doc, hdoc⟩ := Option.isSome_iff_exists.mp (s.db.document_exists c chunk hchunk)
  rw [hid] at hdoc
  refine h.not_embedded ⟨doc, hdoc, ?_⟩ hembedded
  rw [← Bool.not_eq_false]
  exact fun hlive => hinactive (getActive_isSome.mpr ⟨doc, hdoc, hlive⟩)

/-- **A deletion without vectors** is one that the text is forgotten by. -/
theorem textForgotten {codec : Codec} {L : Lower} {s : RagDb V} {docId : Nat}
    {after : List (Operation V)} (hs : Current s)
    (hhistory : NoStaleDeletion codec L s (.delete docId :: after)) :
    TextForgotten codec L s docId after := by
  intro s' hsame E S kbId query topK maxTokens
  have hnone : ¬ Embedded s docId := by
    by_cases hactive : (s.db.getActive docId).isSome = true
    · intro hembedded
      exact (NoStaleDeletion.cons.mp hhistory).1 ⟨docId, if_pos hactive, hembedded⟩
    · exact hs.not_embedded_of_inactive hactive
  have htables := hsame.tables_eq hnone
  have hdocuments : s'.db.documents = s.db.documents :=
    (congrArg KnowledgeDb.documents hsame.rows).symm
  have herase : s.eraseText docId = s'.eraseText docId := by
    unfold RagDb.eraseText
    rw [hsame.rows, htables]
  cases hdoc : s.db.documents.get docId with
  | none =>
      -- There is no such document, so nothing differs.
      have hself : s.eraseText docId = s := by
        unfold RagDb.eraseText
        rw [eraseText_eq_self hdoc]
      have hself' : s'.eraseText docId = s' := by
        unfold RagDb.eraseText
        rw [eraseText_eq_self (hdocuments ▸ hdoc)]
      rw [← hself, herase, hself']
  | some doc =>
      have hdeleted : ∀ t : RagDb V, t.db.documents = s.db.documents →
          Deleted (step codec L t (.delete docId)).db docId := by
        intro t ht
        have hget := deleteDocument_get t.db docId docId
        rw [if_pos rfl, ht, hdoc, Option.map_some] at hget
        exact ⟨_, hget, rfl⟩
      have hrun : ∀ t : RagDb V, t.db.documents = s.db.documents →
          run codec L (t.eraseText docId) (.delete docId :: after) =
            (run codec L t (.delete docId :: after)).eraseText docId := by
        intro t ht
        show run codec L (step codec L (t.eraseText docId) _) after = _
        rw [step_delete_eraseText, run_eraseText (hdeleted t ht)]
        rfl
      have hruns : (run codec L s (.delete docId :: after)).eraseText docId =
          (run codec L s' (.delete docId :: after)).eraseText docId := by
        rw [← hrun s rfl, herase, hrun s' hdocuments]
      have hend : ¬ Embedded (run codec L s (.delete docId :: after)) docId :=
        (current_run hs hhistory).not_embedded (deleted_run codec L (hdeleted s rfl) after)
      have hend' : ¬ Embedded (run codec L s' (.delete docId :: after)) docId := by
        rw [← embedded_eraseText, ← hruns, embedded_eraseText]
        exact hend
      rw [← retrieveContext_eraseText hend, hruns, retrieveContext_eraseText hend']

/-! ## Histories -/

theorem run_append (codec : Codec) (L : Lower) (s : RagDb V) (before after : List (Operation V)) :
    run codec L s (before ++ after) = run codec L (run codec L s before) after :=
  List.foldl_append

theorem NoStaleDeletion.append {codec : Codec} {L : Lower} {s : RagDb V}
    {before after : List (Operation V)} (h : NoStaleDeletion codec L s (before ++ after)) :
    NoStaleDeletion codec L s before ∧ NoStaleDeletion codec L (run codec L s before) after := by
  constructor
  · intro before' op after' hsplit
    exact h before' op (after' ++ after) (by rw [hsplit, List.append_assoc, List.cons_append])
  · intro before' op after' hsplit
    rw [← run_append]
    exact h (before ++ before') op after' (by rw [hsplit, List.append_assoc])

theorem deletedNeverServed_of_noStaleDeletion {codec : Codec} {L : Lower}
    {history : List (Operation V)} (h : NoStaleDeletion codec L .empty history) :
    DeletedNeverServed codec L history where
  active := onlyActive_of_current L (current_run current_empty h)
  forgotten := by
    rintro before docId after rfl
    obtain ⟨hbefore, hafter⟩ := h.append
    exact textForgotten (current_run current_empty hbefore) hafter

/-- **Deleted documents are served** in a state of a history exactly when a call of it deletes a
    document that is embedded. -/
theorem deletedNeverServed_iff (codec : Codec) (L : Lower) (history : List (Operation V)) :
    (∀ reached, reached <+: history → DeletedNeverServed codec L reached) ↔
      NoStaleDeletion codec L .empty history := by
  constructor
  · intro h before op after hsplit hstales
    obtain ⟨docId, hgone, hembedded⟩ := hstales
    have hreached : before ++ [op] <+: history := ⟨after, by rw [hsplit, List.append_assoc]; rfl⟩
    have hactive := (h _ hreached).active
    rw [run_append] at hactive
    have heffect := effect_step codec L (run codec L .empty before) op
    rw [hgone] at heffect
    exact not_onlyActive L heffect hembedded hactive
  · rintro h reached ⟨rest, rfl⟩
    exact deletedNeverServed_of_noStaleDeletion h.append.1

/-! A file is uploaded, embedded and deleted, and then served. -/

def secretCodec : Codec :=
  asciiCodec fun _ => "527d48226e55797322b976c84969758acce30497b35c0a7ab8d042cc14dbf503"

def secretUpload : Upload where
  kbId := 1
  filename := "salaries.txt"
  contentType := "text/plain"
  fileBytes := asciiBytes "the old salaries"
  userId := 1

def flatVector : List Int :=
  List.replicate tableDimensions 1

def secretHistory : List (Operation (List Int)) :=
  [.ingest (fun _ => none) secretUpload, .rebuild (constantEmbeddings flatVector) 1 "openai",
    .delete 0]

theorem not_deletedNeverServed_secret :
    ¬ ∀ (codec : Codec) (L : Lower) (history : List (Operation (List Int))),
      DeletedNeverServed codec L history := by
  intro hall
  have hactive := (hall secretCodec Lower.asciiOnly secretHistory).active
    (constantEmbeddings flatVector) storedOrder 1 "salaries" 5 3000
  have hshown : (match retrieveChunks (constantEmbeddings flatVector) storedOrder Lower.asciiOnly
      (run secretCodec Lower.asciiOnly .empty secretHistory) 1 "salaries" 5 3000 with
    | .ok served => served.any fun shown => shown.chunk.isDeleted
    | .error _ => false) = true := by decide
  cases hserved : retrieveChunks (constantEmbeddings flatVector) storedOrder Lower.asciiOnly
      (run secretCodec Lower.asciiOnly .empty secretHistory) 1 "salaries" 5 3000 with
  | error exc =>
      rw [hserved] at hshown
      cases hshown
  | ok served =>
      rw [hserved] at hshown
      obtain ⟨shown, hmem, hdeleted⟩ := List.any_eq_true.mp hshown
      rw [(hactive served hserved shown hmem).1] at hdeleted
      cases hdeleted

end AgentCorp.Rag
