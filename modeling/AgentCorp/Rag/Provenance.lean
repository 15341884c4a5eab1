/-
  Where a context comes from.

  Over every history of ingestions, rebuilds and deletions, the documents are the uploads that were
  let in, and a context for a knowledge base shows chunks of files that were uploaded into it.

  * `sourced_run`: what is stored after a history, row by row.
  * `retrieveContext_provenance`: what a context is made of.
-/
import AgentCorp.Knowledge.Contents
import AgentCorp.Rag.Histories

namespace AgentCorp.Rag

open AgentCorp.Python AgentCorp.Knowledge

variable {V : Type}

/-! ## Embeddings change no content -/

section Rules

variable {E : Embeddings V} {provider : EmbeddingProvider} {R : RagDb V → RagDb V → Prop}
  [IsPreorder (RagDb V) R]

/-- What its writes do, the embedding of a document does. -/
theorem within_generateAndStore_of (hindex : ∀ s kbId, R s (s.createIndex kbId))
    (hstore : ∀ s kbId chunks items, R s (s.storeItems kbId chunks items)) (docId : Nat)
    (doc : KnowledgeDocument) : Proc.Within R (generateAndStore E provider docId doc) := by
  intro s
  have hindexed := hindex s doc.knowledgeBaseId
  unfold generateAndStore
  rw [Proc.after_bind, EStateM.run_get]
  dsimp only
  by_cases hempty : (pendingChunks s.db docId).isEmpty = true
  · rw [if_pos hempty]
    exact refl_of R s
  · rw [if_neg hempty]
    cases E.generateEmbeddings provider
        ((pendingChunks s.db docId).map fun entry => entry.2.text) with
    | error exc => exact refl_of R s
    | ok vectors =>
        rw [Proc.ofExcept_ok_bind, Proc.after_set_bind]
        cases upsertItems docId doc (pendingChunks s.db docId) vectors with
        | error exc => exact hindexed
        | ok items =>
            rw [Proc.ofExcept_ok_bind]
            split
            · exact hindexed
            · exact trans_of R hindexed (hstore _ _ _ _)

/-- What its writes do, a rebuild does, however it ends. -/
theorem within_rebuildEmbeddings_of (hindex : ∀ s kbId, R s (s.createIndex kbId))
    (hstore : ∀ s kbId chunks items, R s (s.storeItems kbId chunks items)) (L : Lower)
    (kbId : Nat) (providerName : String) :
    Proc.Within R (rebuildEmbeddings E L kbId providerName) := by
  have hdocs : ∀ docs, Proc.Within R (embedDocuments E (resolveProvider L providerName) docs) := by
    intro docs
    induction docs with
    | nil => exact Proc.Within.pure ()
    | cons entry rest ih =>
        exact (within_generateAndStore_of hindex hstore entry.1 entry.2).bind fun _ => ih
  intro s
  unfold rebuildEmbeddings
  rw [Proc.after_bind, EStateM.run_get]
  dsimp only
  rw [Proc.after_bind_pure]
  exact hdocs _ s

end Rules

/-- The documents are these uploads still. -/
def KeepsSources (codec : Codec) (stored : List Upload) (s t : RagDb V) : Prop :=
  Sourced codec stored s.db → Sourced codec stored t.db

instance (codec : Codec) (stored : List Upload) :
    IsPreorder (RagDb V) (KeepsSources codec stored) where
  refl := fun _ h => h
  trans := fun _ _ _ hab hbc h => hbc (hab h)

theorem sourced_markEmbedded {codec : Codec} {stored : List Upload} {db : KnowledgeDb}
    (h : Sourced codec stored db) (chunks : List (Nat × KnowledgeChunk)) :
    Sourced codec stored (markEmbedded db chunks) := by
  have hcreated : (markEmbedded db chunks).created = db.created := by
    unfold markEmbedded
    clear h
    induction chunks generalizing db with
    | nil => rfl
    | cons entry rest ih =>
        rw [List.foldl_cons, ih]
        exact created_updateChunk db entry.1
          (f := fun chunk => { chunk with embeddingStatus := "READY" }) (fun _ => rfl) fun _ => rfl
  refine ⟨(congrArg Table.next (markEmbedded_documents db chunks)).trans h.next, ?_⟩
  intro id upload hstored
  obtain ⟨doc, hdoc, hholds⟩ := h.holds id upload hstored
  refine ⟨doc, by rw [markEmbedded_documents, hdoc], hholds.congr ?_ ?_⟩
  · unfold KnowledgeDb.chunksOf
    rw [hcreated]
  · intro c chunk hchunk hown
    have howner := markEmbedded_chunk db chunks c
    rw [hchunk, Option.map_some] at howner
    obtain ⟨old, hold, hsame⟩ := Option.map_eq_some_iff.mp howner.symm
    exact ⟨old, hold, (congrArg (·.1) hsame).trans hown, (congrArg (·.2) hsame).symm⟩

/-! ## Histories -/

/-- The uploads that the checks let in, in the order of the history. -/
def admitted (codec : Codec) (L : Lower) (s : RagDb V) : List (Operation V) → List Upload
  | [] => []
  | op :: rest =>
      (match op with
      | .ingest _ upload => if upload.admitted codec s.db = true then [upload] else []
      | .rebuild .. => []
      | .delete _ => []) ++ admitted codec L (step codec L s op) rest

theorem mem_admitted {codec : Codec} {L : Lower} {s : RagDb V} {history : List (Operation V)}
    {upload : Upload} (h : upload ∈ admitted codec L s history) :
    ∃ faults, .ingest faults upload ∈ history := by
  induction history generalizing s with
  | nil => cases h
  | cons op rest ih =>
      rcases List.mem_append.mp h with hfirst | hrest
      · cases op with
        | ingest faults other =>
            dsimp only at hfirst
            split at hfirst
            · obtain rfl := List.mem_singleton.mp hfirst
              exact ⟨faults, List.mem_cons_self⟩
            · cases hfirst
        | rebuild E kbId providerName => cases hfirst
        | delete docId => cases hfirst
      · obtain ⟨faults, hmem⟩ := ih hrest
        exact ⟨faults, List.mem_cons_of_mem op hmem⟩

theorem sourced_of_run (codec : Codec) (L : Lower) {s : RagDb V} {stored : List Upload}
    (h : Sourced codec stored s.db) (history : List (Operation V)) :
    Sourced codec (stored ++ admitted codec L s history) (run codec L s history).db := by
  induction history generalizing s stored with
  | nil =>
      rw [show admitted codec L s [] = [] from rfl, List.append_nil]
      exact h
  | cons op rest ih =>
      unfold admitted
      rw [← List.append_assoc]
      refine ih (s := step codec L s op) ?_
      cases op with
      | ingest faults upload => exact h.ingestDocument faults
      | rebuild E kbId providerName =>
          rw [List.append_nil]
          have hrebuild : Proc.Within (KeepsSources codec stored)
              (rebuildEmbeddings E L kbId providerName) :=
            within_rebuildEmbeddings_of (fun _ _ h => h)
              (fun _ _ chunks _ h => sourced_markEmbedded h chunks) L kbId providerName
          exact hrebuild s h
      | delete docId =>
          rw [List.append_nil]
          exact h.deleteDocument docId

/-! ## Contexts -/

/-- The block of a context that shows a chunk of an upload. -/
def sourceBlock (upload : Upload) (info : ChunkInfo) : String :=
  "Source Document: " ++ upload.filename ++ "\nContent: " ++ info.text ++ "\n"

/-- A chunk of a document is one of its file. -/
theorem text_of_holds {codec : Codec} {upload : Upload} {db : KnowledgeDb} {c id : Nat}
    {doc : KnowledgeDocument} {chunk : KnowledgeChunk} (h : Holds codec upload db id doc)
    (hchunk : db.chunks.get c = some chunk) (hid : chunk.documentId = id) :
    ∃ info ∈ chunkText (upload.extracted codec).1, chunk.text = info.text := by
  have hcreated : chunk.asCreated ∈ db.created :=
    List.mem_map.mpr ⟨(c, chunk), Table.mem_rows_iff.mpr hchunk, rfl⟩
  have hmem : chunk.asCreated ∈ db.chunksOf id :=
    List.mem_filter.mpr ⟨hcreated, decide_eq_true hid⟩
  obtain ⟨entry, hentry, hrow⟩ := List.mem_map.mp (h.chunks.subset hmem)
  exact ⟨entry.1, List.fst_mem_of_mem_zipIdx hentry,
    (congrArg KnowledgeChunk.text hrow).symm⟩

/-- Every element of a list has an image, so the list has. -/
theorem exists_map_eq {α β γ : Type} {f : α → γ} {g : β → γ} {P : β → Prop} {l : List α}
    (h : ∀ a ∈ l, ∃ b, g b = f a ∧ P b) : ∃ l' : List β, l'.map g = l.map f ∧ ∀ b ∈ l', P b := by
  induction l with
  | nil => exact ⟨[], rfl, fun _ hb => nomatch hb⟩
  | cons a l ih =>
      obtain ⟨⟨b, hb, hP⟩, hrest⟩ := List.forall_mem_cons.mp h
      obtain ⟨l', hmap, hall⟩ := ih hrest
      exact ⟨b :: l', by rw [List.map_cons, List.map_cons, hb, hmap],
        List.forall_mem_cons.mpr ⟨hP, hall⟩⟩

/-- **Every context has its sources.** After any history, a context for a knowledge base is made of
    chunks of files that were uploaded into this knowledge base, each under the name of its file. -/
theorem retrieveContext_provenance {codec : Codec} {L L' : Lower} {history : List (Operation V)}
    {E : Embeddings V} {S : VectorSearch V} {kbId : Nat} {query : String} {topK maxTokens : Int}
    {context : String}
    (h : retrieveContext E S L' (run codec L .empty history) kbId query topK maxTokens =
      .ok context) :
    ∃ sources : List (Upload × ChunkInfo),
      context = "\n---\n".intercalate (sources.map fun source => sourceBlock source.1 source.2) ∧
      ∀ source ∈ sources, (∃ faults, .ingest faults source.1 ∈ history) ∧
        source.1.kbId = kbId ∧ source.2 ∈ chunkText (source.1.extracted codec).1 := by
  unfold retrieveContext at h
  cases hserved : retrieveChunks E S L' (run codec L .empty history) kbId query topK maxTokens with
  | error exc =>
      rw [hserved] at h
      cases h
  | ok served =>
      rw [hserved] at h
      obtain rfl := Except.ok.inj h
      have hsourced := sourced_of_run codec L (s := .empty) (sourced_empty codec) history
      rw [List.nil_append] at hsourced
      have hplaced := placed_run (V := V) codec L placed_empty history
      obtain ⟨sources, hblocks, hall⟩ : ∃ sources : List (Upload × ChunkInfo),
          (sources.map fun source => sourceBlock source.1 source.2) =
              served.map ServedChunk.block ∧
            ∀ source ∈ sources, (∃ faults, .ingest faults source.1 ∈ history) ∧
              source.1.kbId = kbId ∧ source.2 ∈ chunkText (source.1.extracted codec).1 := by
        refine exists_map_eq fun shown hshown => ?_
        obtain ⟨hvector, hchunk, hdocument⟩ := mem_retrieveChunks hserved shown hshown
        obtain ⟨chunk, doc, hchunk', hdoc, hkb⟩ := hplaced kbId shown.chunkId hvector
        obtain rfl := Option.some.inj (hchunk'.symm.trans hchunk)
        have hlt := Table.get_lt hdoc
        rw [hsourced.next] at hlt
        obtain ⟨doc', hdoc', hholds⟩ := hsourced.holds _ _ (List.getElem?_eq_getElem hlt)
        obtain rfl := Option.some.inj (hdoc'.symm.trans hdoc)
        obtain ⟨info, hinfo, htext⟩ := text_of_holds hholds hchunk rfl
        refine ⟨(_, info), ?_, mem_admitted (List.getElem_mem hlt), ?_, hinfo⟩
        · unfold ServedChunk.block sourceBlock
          rw [hdocument, hdoc, htext]
          have hname := congrArg KnowledgeDocument.filename hholds.columns
          exact congrArg (fun name => "Source Document: " ++ name ++ "\nContent: " ++ info.text ++
            "\n") hname.symm
        · exact (congrArg KnowledgeDocument.knowledgeBaseId hholds.columns).symm.trans hkb
      exact ⟨sources, by rw [hblocks]; rfl, hall⟩

/-! A file is uploaded and embedded, and then asked about. -/

def manualCodec : Codec :=
  asciiCodec fun _ => "e758a0b092fc2ceb83356cf0af0694b2e9306670a1b64eee25b42d0a9ef577f5"

def manualUpload : Upload where
  kbId := 1
  filename := "manual.txt"
  contentType := "text/plain"
  fileBytes := asciiBytes "open the valve"
  userId := 1

def manualHistory : List (Operation Unit) :=
  [.ingest (fun _ => none) manualUpload, .rebuild (constantEmbeddings ()) 1 "openai"]

theorem retrieveContext_manual :
    retrieveContext (constantEmbeddings ()) storedOrder .asciiOnly
        (run manualCodec .asciiOnly .empty manualHistory) 1 "valve" 5 3000 =
      .ok "Source Document: manual.txt\nContent: open the valve\n" := by
  decide +kernel

theorem retrieveContext_provenance_manual : ∃ sources : List (Upload × ChunkInfo),
    "Source Document: manual.txt\nContent: open the valve\n" =
      "\n---\n".intercalate (sources.map fun source => sourceBlock source.1 source.2) ∧
    ∀ source ∈ sources, (∃ faults, .ingest faults source.1 ∈ manualHistory) ∧
      source.1.kbId = 1 ∧ source.2 ∈ chunkText (source.1.extracted manualCodec).1 :=
  retrieveContext_provenance retrieveContext_manual

end AgentCorp.Rag
