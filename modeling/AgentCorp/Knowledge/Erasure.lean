/-
  The texts of one document that nobody asks for.

  `eraseText` blanks the chunks of a document. The service never reads the text of a chunk, so
  every call commutes with it, as long as it creates no chunk of that document.

  * `eraseText_deleteDocument`, `commutes_ingestDocument`: the calls.
-/
import AgentCorp.Knowledge.Lifecycle

namespace AgentCorp.Knowledge

open AgentCorp.Python

/-! ## Rows -/

/-- A chunk without its text, if it is one of the document. -/
def KnowledgeChunk.eraseText (docId : Nat) (chunk : KnowledgeChunk) : KnowledgeChunk :=
  if chunk.documentId = docId then { chunk with text := "" } else chunk

section Chunk

variable (docId : Nat) (chunk : KnowledgeChunk)

@[simp] theorem eraseText_documentId :
    (chunk.eraseText docId).documentId = chunk.documentId := by
  unfold KnowledgeChunk.eraseText
  split <;> rfl

@[simp] theorem eraseText_isDeleted : (chunk.eraseText docId).isDeleted = chunk.isDeleted := by
  unfold KnowledgeChunk.eraseText
  split <;> rfl

@[simp] theorem eraseText_embeddingStatus :
    (chunk.eraseText docId).embeddingStatus = chunk.embeddingStatus := by
  unfold KnowledgeChunk.eraseText
  split <;> rfl

theorem eraseText_of_ne {chunk : KnowledgeChunk} (h : chunk.documentId ≠ docId) :
    chunk.eraseText docId = chunk :=
  if_neg h

end Chunk

namespace KnowledgeDb

def eraseText (db : KnowledgeDb) (docId : Nat) : KnowledgeDb where
  documents := db.documents
  chunks := db.chunks.mapRows (·.eraseText docId)
  document_exists := by
    intro id chunk hchunk
    rw [Table.get_mapRows] at hchunk
    obtain ⟨old, hold, rfl⟩ := Option.map_eq_some_iff.mp hchunk
    rw [eraseText_documentId]
    exact db.document_exists id old hold

variable (db : KnowledgeDb) (docId : Nat)

theorem ext {db db' : KnowledgeDb} (hdocuments : db.documents = db'.documents)
    (hchunks : db.chunks = db'.chunks) : db = db' := by
  cases db
  cases db'
  subst hdocuments
  subst hchunks
  rfl

theorem eraseText_updateChunk (id : Nat) (f : KnowledgeChunk → KnowledgeChunk)
    (hf : ∀ chunk, (f chunk).documentId = chunk.documentId)
    (h : ∀ chunk, f (chunk.eraseText docId) = (f chunk).eraseText docId) :
    (db.eraseText docId).updateChunk id f hf = (db.updateChunk id f hf).eraseText docId :=
  ext rfl (Table.mapRows_modify _ _ id h)

theorem eraseText_deleteChunk (id : Nat) :
    (db.eraseText docId).deleteChunk id = (db.deleteChunk id).eraseText docId := by
  refine eraseText_updateChunk db docId id _ _ fun chunk => ?_
  unfold KnowledgeChunk.eraseText
  dsimp only
  split <;> rfl

theorem eraseText_setEmbeddingStatus (id : Nat) (status : String) :
    (db.eraseText docId).setEmbeddingStatus id status =
      (db.setEmbeddingStatus id status).eraseText docId := by
  refine eraseText_updateChunk db docId id _ _ fun chunk => ?_
  unfold KnowledgeChunk.eraseText
  dsimp only
  split <;> rfl

theorem eraseText_insertChunk {chunk : KnowledgeChunk} (h : chunk.documentId ≠ docId) :
    (db.eraseText docId).insertChunk chunk =
      (db.insertChunk chunk).map fun db' => db'.eraseText docId := by
  unfold insertChunk
  have hdocuments : (db.eraseText docId).documents = db.documents := rfl
  by_cases hexists : (db.documents.get chunk.documentId).isSome = true
  · rw [dif_pos (hdocuments ▸ hexists), dif_pos hexists, Option.map_some]
    exact congrArg some (ext rfl (Table.mapRows_insert _ _ (eraseText_of_ne docId h)))
  · rw [dif_neg (hdocuments ▸ hexists), dif_neg hexists, Option.map_none]

theorem listByDocument_eraseText (id : Nat) :
    (db.eraseText docId).listByDocument id =
      (db.listByDocument id).map fun row => (row.1, row.2.eraseText docId) :=
  Table.select_mapRows db.chunks (·.eraseText docId) fun chunk => by simp

theorem eraseText_deleteChunks (entries : List (Nat × KnowledgeChunk)) :
    entries.foldl (fun db entry => db.deleteChunk entry.1) (db.eraseText docId) =
      (entries.foldl (fun db entry => db.deleteChunk entry.1) db).eraseText docId := by
  induction entries generalizing db with
  | nil => rfl
  | cons entry rest ih => rw [List.foldl_cons, List.foldl_cons, eraseText_deleteChunk, ih]

theorem eraseText_deleteDocument (id : Nat) :
    (db.eraseText docId).deleteDocument id = (db.deleteDocument id).eraseText docId := by
  unfold deleteDocument
  have hactive : (db.eraseText docId).getActive id = db.getActive id := rfl
  rw [hactive]
  cases db.getActive id with
  | none => rfl
  | some doc =>
      dsimp only
      have hupdate : (db.eraseText docId).updateDocument id
          (fun doc => { doc with isDeleted := true }) =
          (db.updateDocument id fun doc => { doc with isDeleted := true }).eraseText docId := rfl
      rw [hupdate, listByDocument_eraseText, List.foldl_map, eraseText_deleteChunks]

end KnowledgeDb

/-! ## The pipeline -/

def IngestState.eraseText (docId : Nat) (s : IngestState) : IngestState where
  db := s.db.eraseText docId
  doc := s.doc

section Pipeline

variable {codec : Codec} {faults : Faults} {filename contentType : String}
  {fileBytes : List UInt8} {docId id : Nat} {s : IngestState}

theorem commutes_reach (point : IngestPoint) :
    Proc.Commutes (IngestState.eraseText docId) (reach faults point) s := by
  unfold reach
  cases faults point with
  | none => exact .pure ()
  | some exc => exact .throw exc

theorem commutes_commitChunk (hid : id ≠ docId) (info : ChunkInfo) (idx : Nat) :
    Proc.Commutes (IngestState.eraseText docId) (commitChunk filename id info idx) s := by
  unfold Proc.Commutes
  rw [run_commitChunk, run_commitChunk]
  have hinsert : ((s.eraseText docId).db.updateDocument id fun _ =>
      (s.eraseText docId).doc).insertChunk (chunkRow filename id info idx) = _ :=
    KnowledgeDb.eraseText_insertChunk (s.db.updateDocument id fun _ => s.doc) docId hid
  rw [hinsert]
  cases (s.db.updateDocument id fun _ => s.doc).insertChunk (chunkRow filename id info idx) <;> rfl

theorem commutes_createChunks (hid : id ≠ docId) (entries : List (ChunkInfo × Nat)) :
    Proc.Commutes (IngestState.eraseText docId)
      (createChunks faults filename id entries) s := by
  induction entries generalizing s with
  | nil => exact .pure ()
  | cons entry rest ih =>
      have hchunk : Proc.Commutes (IngestState.eraseText docId)
          (createChunk faults filename id entry.1 entry.2) s :=
        (commutes_reach _).bind fun _ _ _ =>
          (commutes_commitChunk hid _ _).bind fun _ _ _ => commutes_reach _
      exact hchunk.bind fun _ _ _ => ih

theorem commutes_ingestPipeline (hid : id ≠ docId) :
    Proc.Commutes (IngestState.eraseText docId)
      (ingestPipeline codec faults filename contentType fileBytes id) s := by
  have hprocess : ∀ t, Proc.Commutes (IngestState.eraseText docId)
      (process codec faults contentType fileBytes) t := by
    intro t
    unfold process
    cases faults .process with
    | none => exact .pure _
    | some exc => exact .throw _
  have hset : ∀ status t, Proc.Commutes (IngestState.eraseText docId) (setStatus id status) t :=
    fun _ _ => .modify rfl
  unfold ingestPipeline ingestChunks
  refine .tryCatch (.bind ?_ fun _ _ _ => hset _ _) fun exc t => ?_
  · refine (hset _ _).bind fun _ _ _ => (hprocess _).bind fun extracted _ _ => ?_
    refine (hset _ _).bind fun _ _ _ => (commutes_reach _).bind fun _ _ _ => ?_
    refine Proc.Commutes.bind (.modify rfl) fun _ _ _ => (commutes_reach _).bind fun _ _ _ => ?_
    exact commutes_createChunks hid _
  · exact (commutes_reach _).bind fun _ _ _ => (hset _ _).bind fun _ _ _ => .throw _

end Pipeline

/-! ## The call -/

section Call

variable {codec : Codec} {faults : Faults} {upload : Upload} {docId : Nat}

theorem commutes_resolveDuplicate (db : KnowledgeDb) :
    Proc.Commutes (KnowledgeDb.eraseText · docId) (resolveDuplicate codec upload) db := by
  unfold resolveDuplicate
  apply Proc.Commutes.get_bind
  have hfound : ∀ checksum kbId, (db.eraseText docId).getByChecksumInKb checksum kbId =
      db.getByChecksumInKb checksum kbId := fun _ _ => rfl
  rw [hfound]
  cases db.getByChecksumInKb (codec.sha256 upload.fileBytes) upload.kbId with
  | none => rfl
  | some found =>
      dsimp only
      split
      · rfl
      · split
        · show EStateM.Result.ok () ((db.eraseText docId).deleteDocument found.1) = _
          rw [KnowledgeDb.eraseText_deleteDocument]
          rfl
        · rfl

theorem commutes_storeDocument {db : KnowledgeDb} (hid : db.documents.next ≠ docId) :
    Proc.Commutes (KnowledgeDb.eraseText · docId) (storeDocument codec faults upload) db := by
  have hpipeline : Proc.Commutes (IngestState.eraseText docId)
      (ingestPipeline codec faults upload.filename upload.contentType upload.fileBytes
        db.documents.next) {
          db := db.insertDocument (newDocument codec upload)
          doc := newDocument codec upload } := commutes_ingestPipeline hid
  unfold Proc.Commutes at hpipeline ⊢
  rw [run_storeDocument, run_storeDocument]
  have hstart : EStateM.run (ingestPipeline codec faults upload.filename upload.contentType
      upload.fileBytes (db.eraseText docId).documents.next) {
        db := (db.eraseText docId).insertDocument (newDocument codec upload)
        doc := newDocument codec upload } = _ := hpipeline
  rw [hstart]
  cases EStateM.run (ingestPipeline codec faults upload.filename upload.contentType
    upload.fileBytes db.documents.next) _ <;> rfl

theorem commutes_ingestDocument {db : KnowledgeDb} (hid : docId < db.documents.next) :
    Proc.Commutes (KnowledgeDb.eraseText · docId) (ingestDocument codec faults upload) db := by
  unfold ingestDocument
  refine (Proc.Commutes.ofExcept _).bind fun _ t ht => ?_
  refine (commutes_resolveDuplicate _).bind fun _ u hu => commutes_storeDocument ?_
  obtain ⟨-, rfl⟩ := Proc.run_ofExcept.mp ht
  rw [resolveDuplicate_next hu]
  omega

end Call

end AgentCorp.Knowledge
