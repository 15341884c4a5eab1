/-
  What the documents of a knowledge base hold.

  The rows of chunks, as they were created, are a log: deletions and embeddings change none of
  them, and an ingestion adds the first chunks of its file, in order.

  * `storeDocument_holds`: the new document is that of the upload, with all chunks if it is READY.
  * `Sourced.deleteDocument`, `Sourced.ingestDocument`: the documents are the uploads that were
    admitted, in order, and stay so.
-/
import AgentCorp.Knowledge.Replacement

namespace AgentCorp.Knowledge

open AgentCorp.Python

/-! ## Documents and their uploads -/

/-- The row of a document as its upload made it. -/
def KnowledgeDocument.asUploaded (doc : KnowledgeDocument) : KnowledgeDocument :=
  { doc with processingStatus := .validating, metadata := none, isDeleted := false }

/-- The row of a chunk as the pipeline created it. -/
def KnowledgeChunk.asCreated (chunk : KnowledgeChunk) : KnowledgeChunk :=
  { chunk with embeddingStatus := "PENDING", isDeleted := false }

/-- The rows of all chunks, as they were created. -/
def KnowledgeDb.created (db : KnowledgeDb) : List KnowledgeChunk :=
  db.chunks.rows.map fun row => row.2.asCreated

/-- The rows of the chunks of a document, as they were created. -/
def KnowledgeDb.chunksOf (db : KnowledgeDb) (docId : Nat) : List KnowledgeChunk :=
  db.created.filter fun chunk => chunk.documentId = docId

/-- What is extracted from a file. -/
def Upload.extracted (codec : Codec) (upload : Upload) : String × Dict Json :=
  processDocument codec upload.fileBytes upload.contentType

/-- The chunks of a file, as rows of the document `id`. -/
def Upload.chunkRows (codec : Codec) (upload : Upload) (id : Nat) : List KnowledgeChunk :=
  (chunkText (upload.extracted codec).1).zipIdx.map fun entry =>
    chunkRow upload.filename id entry.1 entry.2

/-- The document `id` is that of the upload. Its chunks are the first ones of the file, or all if
    it is READY, and are deleted if it is. -/
structure Holds (codec : Codec) (upload : Upload) (db : KnowledgeDb) (id : Nat)
    (doc : KnowledgeDocument) : Prop where
  columns : doc.asUploaded = newDocument codec upload
  chunks : db.chunksOf id <+: upload.chunkRows codec id
  ready : doc.processingStatus = .ready →
    db.chunksOf id = upload.chunkRows codec id ∧
      doc.metadata = some (extractMetadata upload.filename (upload.extracted codec).1
        (upload.extracted codec).2)
  marks : ∀ c chunk, db.chunks.get c = some chunk → chunk.documentId = id →
    chunk.isDeleted = doc.isDeleted

/-- The documents are these uploads, in order. -/
structure Sourced (codec : Codec) (stored : List Upload) (db : KnowledgeDb) : Prop where
  next : db.documents.next = stored.length
  holds : ∀ id upload, stored[id]? = some upload →
    ∃ doc, db.documents.get id = some doc ∧ Holds codec upload db id doc

theorem sourced_empty (codec : Codec) : Sourced codec [] .empty where
  next := rfl
  holds := fun _ _ hstored => nomatch hstored

/-- A document that is left alone. -/
theorem Holds.congr {codec : Codec} {upload : Upload} {db db' : KnowledgeDb} {id : Nat}
    {doc : KnowledgeDocument} (h : Holds codec upload db id doc)
    (hcreated : db'.chunksOf id = db.chunksOf id)
    (hmarks : ∀ c chunk, db'.chunks.get c = some chunk → chunk.documentId = id →
      ∃ old, db.chunks.get c = some old ∧ old.documentId = id ∧
        chunk.isDeleted = old.isDeleted) : Holds codec upload db' id doc where
  columns := h.columns
  chunks := hcreated ▸ h.chunks
  ready := hcreated ▸ h.ready
  marks := by
    intro c chunk hchunk hid
    obtain ⟨old, hold, hid', hmark⟩ := hmarks c chunk hchunk hid
    exact hmark.trans (h.marks c old hold hid')

/-! ## Deletions -/

theorem created_updateChunk (db : KnowledgeDb) (id : Nat) {f : KnowledgeChunk → KnowledgeChunk}
    (hf : ∀ chunk, (f chunk).documentId = chunk.documentId)
    (hcreated : ∀ chunk, (f chunk).asCreated = chunk.asCreated) :
    (db.updateChunk id f hf).created = db.created :=
  Table.map_rows_modify hcreated db.chunks id

theorem created_deleteChunks (entries : List (Nat × KnowledgeChunk)) (db : KnowledgeDb) :
    (entries.foldl (fun db entry => db.deleteChunk entry.1) db).created = db.created := by
  induction entries generalizing db with
  | nil => rfl
  | cons entry rest ih =>
      rw [List.foldl_cons, ih]
      exact created_updateChunk db entry.1
        (f := fun chunk => { chunk with isDeleted := true }) (fun _ => rfl) fun _ => rfl

theorem created_deleteDocument (db : KnowledgeDb) (docId : Nat) :
    (db.deleteDocument docId).created = db.created := by
  unfold KnowledgeDb.deleteDocument
  cases db.getActive docId with
  | none => rfl
  | some doc => exact created_deleteChunks _ _

theorem Sourced.deleteDocument {codec : Codec} {stored : List Upload} {db : KnowledgeDb}
    (h : Sourced codec stored db) (docId : Nat) :
    Sourced codec stored (db.deleteDocument docId) where
  next := (deleteDocument_next db docId).trans h.next
  holds := by
    intro id upload hstored
    obtain ⟨doc, hdoc, hholds⟩ := h.holds id upload hstored
    have hcontents : (db.deleteDocument docId).chunksOf id = db.chunksOf id := by
      unfold KnowledgeDb.chunksOf
      rw [created_deleteDocument]
    have hchunk : ∀ c chunk, (db.deleteDocument docId).chunks.get c = some chunk →
        ∃ old, db.chunks.get c = some old ∧ chunk = old.mark
          (decide (old.documentId = docId) && (db.getActive docId).isSome) := by
      intro c chunk hchunk
      rw [deleteDocument_chunk] at hchunk
      obtain ⟨old, hold, rfl⟩ := Option.map_eq_some_iff.mp hchunk
      exact ⟨old, hold, rfl⟩
    rw [deleteDocument_get]
    by_cases hid : id = docId
    · rw [if_pos hid, hdoc]
      refine ⟨_, rfl, hholds.columns, hcontents ▸ hholds.chunks, hcontents ▸ hholds.ready, ?_⟩
      intro c chunk hget hown
      obtain ⟨old, hold, rfl⟩ := hchunk c chunk hget
      have hown' : old.documentId = id := hown
      show (old.isDeleted || (_ && _)) = true
      rw [hholds.marks c old hold hown', hown', ← hid]
      unfold KnowledgeDb.getActive
      cases hdeleted : doc.isDeleted with
      | true => rfl
      | false => simp [hdoc, hdeleted]
    · rw [if_neg hid]
      refine ⟨doc, hdoc, hholds.congr hcontents fun c chunk hget hown => ?_⟩
      obtain ⟨old, hold, rfl⟩ := hchunk c chunk hget
      have hown' : old.documentId = id := hown
      refine ⟨old, hold, hown', ?_⟩
      show (old.isDeleted || (_ && _)) = old.isDeleted
      rw [hown', decide_eq_false hid, Bool.false_and, Bool.or_false]

/-! ## The pipeline -/

section Pipeline

variable {codec : Codec} {faults : Faults} {filename contentType : String}
  {fileBytes : List UInt8} {id : Nat}

theorem created_insertChunk {db db' : KnowledgeDb} {chunk : KnowledgeChunk}
    (h : db.insertChunk chunk = some db') : db'.created = db.created ++ [chunk.asCreated] := by
  unfold KnowledgeDb.created
  rw [(insertChunk_eq_some h).2]
  exact List.map_append

/-- The rows of these chunks of the document `id`. -/
def rowsOf (filename : String) (id : Nat) (entries : List (ChunkInfo × Nat)) :
    List KnowledgeChunk :=
  entries.map fun entry => chunkRow filename id entry.1 entry.2

/-- A part of the pipeline creates the first of these chunks, and all of them if it returns. -/
def Creates (filename : String) (id : Nat) (entries : List (ChunkInfo × Nat))
    (p : Pipeline Unit) (s : IngestState) : Prop :=
  ∃ made, made <+: entries ∧
    (Proc.after p s).db.created = s.db.created ++ rowsOf filename id made ∧
    ∀ t, p.run s = .ok () t → made = entries

/-- A part that raises before it creates anything. -/
theorem Creates.of_error {entries : List (ChunkInfo × Nat)} {p : Pipeline Unit} {s : IngestState}
    (h : ∃ exc t, p.run s = .error exc t ∧ t.db.created = s.db.created) :
    Creates filename id entries p s := by
  obtain ⟨exc, t, hrun, hcreated⟩ := h
  refine ⟨[], List.nil_prefix, ?_, fun t' hok => ?_⟩
  · rw [Proc.after_of_error hrun, hcreated]
    exact (List.append_nil _).symm
  · rw [hrun] at hok
    cases hok

theorem creates_createChunk (entry : ChunkInfo × Nat) (s : IngestState) :
    Creates filename id [entry] (createChunk faults filename id entry.1 entry.2) s := by
  by_cases hchunk : faults (.chunk entry.2) = none
  · have hcommit := run_commitChunk filename id entry.1 entry.2 s
    have hfirst : createChunk faults filename id entry.1 entry.2 =
        commitChunk filename id entry.1 entry.2 >>= fun _ => reach faults (.refresh entry.2) := by
      unfold createChunk
      rw [reach_of_none hchunk, pure_bind]
    rw [hfirst]
    cases hinsert : (s.db.updateDocument id fun _ => s.doc).insertChunk
        (chunkRow filename id entry.1 entry.2) with
    | none =>
        rw [hinsert] at hcommit
        exact .of_error ⟨_, s, Proc.run_bind_of_error hcommit, rfl⟩
    | some db =>
        rw [hinsert] at hcommit
        have hreach : Proc.after (reach faults (.refresh entry.2)) { s with db } =
            { s with db } := by
          unfold reach
          cases faults (.refresh entry.2) <;> rfl
        refine ⟨[entry], List.prefix_rfl, ?_, fun _ _ => rfl⟩
        rw [Proc.after_congr (Proc.run_bind_of_ok hcommit), hreach]
        exact created_insertChunk hinsert
  · obtain ⟨exc, hexc⟩ := reach_of_ne hchunk s
    exact .of_error ⟨exc, s, Proc.run_bind_of_error hexc, rfl⟩

theorem creates_createChunks (entries : List (ChunkInfo × Nat)) (s : IngestState) :
    Creates filename id entries (createChunks faults filename id entries) s := by
  induction entries generalizing s with
  | nil => exact ⟨[], List.prefix_rfl, (List.append_nil _).symm, fun _ _ => rfl⟩
  | cons entry rest ih =>
      obtain ⟨made, hmade, hcreated, hall⟩ :
          Creates filename id [entry] (createChunk faults filename id entry.1 entry.2) s :=
        creates_createChunk entry s
      cases hrun : (createChunk faults filename id entry.1 entry.2).run s with
      | error exc t =>
          rw [Proc.after_of_error hrun] at hcreated
          have herror : (createChunks faults filename id (entry :: rest)).run s = .error exc t :=
            Proc.run_bind_of_error hrun
          refine ⟨made, hmade.trans (List.prefix_append [entry] rest), ?_, fun t' hok => ?_⟩
          · rw [Proc.after_of_error herror, hcreated]
          · rw [herror] at hok
            cases hok
      | ok _ t =>
          obtain rfl := hall t hrun
          rw [Proc.after_of_ok hrun] at hcreated
          have hrest : (createChunks faults filename id (entry :: rest)).run s =
              (createChunks faults filename id rest).run t := Proc.run_bind_of_ok hrun
          obtain ⟨made', hmade', hcreated', hall'⟩ := ih t
          refine ⟨entry :: made', List.cons_prefix_cons.mpr ⟨rfl, hmade'⟩, ?_, fun t' hok => ?_⟩
          · rw [Proc.after_congr hrest, hcreated', hcreated, List.append_assoc]
            rfl
          · rw [hrest] at hok
            rw [hall' t' hok]

/-- Before its chunks, the pipeline creates nothing. -/
theorem creates_ingestChunks (s : IngestState) :
    Creates filename id (chunkText (processDocument codec fileBytes contentType).1).zipIdx
      (ingestChunks codec faults filename contentType fileBytes id) s := by
  cases hprocess : faults .process with
  | some exc =>
      apply Creates.of_error
      unfold ingestChunks process
      rw [hprocess]
      exact ⟨_, _, rfl, rfl⟩
  | none =>
      cases hmetadata : faults .metadata with
      | some exc =>
          apply Creates.of_error
          unfold ingestChunks reach
          rw [process_of_none hprocess, hmetadata]
          exact ⟨exc, _, rfl, rfl⟩
      | none =>
          cases hchunking : faults .chunking with
          | some exc =>
              apply Creates.of_error
              unfold ingestChunks reach
              rw [process_of_none hprocess, hmetadata, hchunking]
              exact ⟨exc, _, rfl, rfl⟩
          | none =>
              have hrun : (ingestChunks codec faults filename contentType fileBytes id).run s = _ :=
                run_ingestChunks hprocess hmetadata hchunking s
              unfold Creates
              rw [Proc.after_congr hrun, hrun]
              exact creates_createChunks _ _

theorem after_reach_bind {α : Type} (point : IngestPoint) (p : Pipeline α) {s : IngestState}
    (hp : (Proc.after p s).db.created = s.db.created) :
    (Proc.after (reach faults point >>= fun _ => p) s).db.created = s.db.created := by
  unfold reach
  cases faults point with
  | none => exact hp
  | some exc => rfl

/-- **The pipeline** adds the first chunks of the file to the log, in order. -/
theorem creates_ingestPipeline (s : IngestState) :
    Creates filename id (chunkText (processDocument codec fileBytes contentType).1).zipIdx
      (ingestPipeline codec faults filename contentType fileBytes id) s := by
  obtain ⟨made, hmade, hcreated, hall⟩ :
      Creates filename id (chunkText (processDocument codec fileBytes contentType).1).zipIdx
        (ingestChunks codec faults filename contentType fileBytes id) s := creates_ingestChunks s
  refine ⟨made, hmade, ?_, fun u hok => ?_⟩
  · unfold ingestPipeline
    rw [Proc.after_tryCatch]
    cases hrun : (ingestChunks codec faults filename contentType fileBytes id).run s with
    | ok _ t =>
        rw [Proc.after_of_ok hrun] at hcreated
        rw [Proc.run_bind_of_ok hrun, run_setStatus]
        exact hcreated
    | error exc t =>
        rw [Proc.after_of_error hrun] at hcreated
        rw [Proc.run_bind_of_error hrun]
        exact (after_reach_bind _ _ rfl).trans hcreated
  · cases hrun : (ingestChunks codec faults filename contentType fileBytes id).run s with
    | ok _ t => exact hall t hrun
    | error exc t =>
        unfold ingestPipeline at hok
        rw [Proc.run_tryCatch, Proc.run_bind_of_error hrun] at hok
        unfold reach at hok
        cases hfailed : faults .failed <;> rw [hfailed] at hok <;> cases hok

/-- The object of the document and its row have the columns of the upload. -/
structure Columned (uploaded : KnowledgeDocument) (id : Nat) (s : IngestState) : Prop where
  doc : s.doc.asUploaded = uploaded
  row : ∀ row, s.db.documents.get id = some row → row.asUploaded = uploaded

def KeepsColumns (uploaded : KnowledgeDocument) (id : Nat) (s t : IngestState) : Prop :=
  Columned uploaded id s → Columned uploaded id t

instance (uploaded : KnowledgeDocument) (id : Nat) :
    IsPreorder IngestState (KeepsColumns uploaded id) where
  refl := fun _ h => h
  trans := fun _ _ _ hab hbc h => hbc (hab h)

theorem Columned.updateDocument {uploaded doc : KnowledgeDocument} {s : IngestState}
    (hdoc : doc.asUploaded = uploaded) :
    Columned uploaded id { s with db := s.db.updateDocument id fun _ => doc, doc } := by
  refine ⟨hdoc, fun row hrow => ?_⟩
  have hget : (s.db.documents.modify id fun _ => doc).get id = some row := hrow
  rw [Table.get_modify, if_pos rfl] at hget
  obtain ⟨old, -, rfl⟩ := Option.map_eq_some_iff.mp hget
  exact hdoc

theorem keepsColumns_setStatus (uploaded : KnowledgeDocument) (status : ProcessingStatus) :
    Proc.Within (KeepsColumns uploaded id) (setStatus id status) :=
  Proc.Within.modify fun _ h => Columned.updateDocument h.doc

theorem keepsColumns_commitChunk (uploaded : KnowledgeDocument) (info : ChunkInfo) (idx : Nat) :
    Proc.Within (KeepsColumns uploaded id) (commitChunk filename id info idx) := by
  refine within_commitChunk_of fun s db hinsert h => ?_
  have hupdated : Columned uploaded id
      { s with db := s.db.updateDocument id fun _ => s.doc, doc := s.doc } :=
    Columned.updateDocument h.doc
  refine ⟨h.doc, fun row hrow => hupdated.row row ?_⟩
  rw [← hrow]
  exact congrArg (fun documents => Table.get documents id) (insertChunk_eq_some hinsert).1.symm

theorem keepsColumns_ingestPipeline (uploaded : KnowledgeDocument) :
    Proc.Within (KeepsColumns uploaded id)
      (ingestPipeline codec faults filename contentType fileBytes id) := by
  have hchunks : Proc.Within (KeepsColumns uploaded id)
      (ingestChunks codec faults filename contentType fileBytes id) :=
    within_ingestChunks_of (fun status _ => keepsColumns_setStatus uploaded status)
      (fun _ => Proc.Within.modify fun _ h => ⟨h.doc, h.row⟩)
      fun _ info _ idx => keepsColumns_commitChunk uploaded info idx
  unfold ingestPipeline
  refine Proc.Within.tryCatch (hchunks.bind fun _ => keepsColumns_setStatus _ _) fun exc => ?_
  exact (within_reach _).bind fun _ => (keepsColumns_setStatus _ _).bind fun _ =>
    Proc.Within.throw _

end Pipeline

/-! ## The call -/

section Call

variable (codec : Codec) (faults : Faults) (upload : Upload) (db : KnowledgeDb)

/-- No chunk is of a document that is not there yet. -/
theorem created_ne_next {db : KnowledgeDb} {chunk : KnowledgeChunk} (h : chunk ∈ db.created) :
    chunk.documentId ≠ db.documents.next := by
  obtain ⟨row, hrow, rfl⟩ := List.mem_map.mp h
  have hget : db.chunks.get row.1 = some row.2 := Table.mem_rows_iff.mp hrow
  obtain ⟨doc, hdoc⟩ := Option.isSome_iff_exists.mp (db.document_exists row.1 row.2 hget)
  have hlt : row.2.documentId < db.documents.next := Table.get_lt hdoc
  exact Nat.ne_of_lt hlt

theorem filter_rowsOf (filename : String) (id docId : Nat) (entries : List (ChunkInfo × Nat)) :
    ((rowsOf filename id entries).filter fun chunk => chunk.documentId = docId) =
      if id = docId then rowsOf filename id entries else [] := by
  have hall : ∀ chunk ∈ rowsOf filename id entries, chunk.documentId = id := by
    intro chunk hchunk
    obtain ⟨entry, -, rfl⟩ := List.mem_map.mp hchunk
    rfl
  split
  · next hid =>
      rw [List.filter_eq_self]
      exact fun chunk hchunk => decide_eq_true ((hall chunk hchunk).trans hid)
  · next hid =>
      rw [List.filter_eq_nil_iff]
      exact fun chunk hchunk => by simp [hall chunk hchunk, hid]

theorem after_storeDocument :
    Proc.after (storeDocument codec faults upload) db =
      (Proc.after (ingestPipeline codec faults upload.filename upload.contentType upload.fileBytes
        db.documents.next) {
          db := db.insertDocument (newDocument codec upload)
          doc := newDocument codec upload }).db := by
  unfold Proc.after
  rw [run_storeDocument]
  cases (ingestPipeline codec faults upload.filename upload.contentType upload.fileBytes
    db.documents.next).run _ <;> rfl

/-- What the rest of an ingestion leaves, however it ends. -/
theorem storeDocument_holds :
    let db' := Proc.after (storeDocument codec faults upload) db
    (∃ doc, db'.documents.get db.documents.next = some doc ∧
      Holds codec upload db' db.documents.next doc) ∧
    db'.documents.next = db.documents.next + 1 ∧
    ∀ other, other ≠ db.documents.next → db'.chunksOf other = db.chunksOf other := by
  intro db'
  let start : IngestState :=
    { db := db.insertDocument (newDocument codec upload), doc := newDocument codec upload }
  let pipeline := ingestPipeline codec faults upload.filename upload.contentType upload.fileBytes
    db.documents.next
  have hafter : db' = (Proc.after pipeline start).db := after_storeDocument codec faults upload db
  obtain ⟨hframe, row, hrow, hlive, -⟩ := storeDocument_after codec faults upload db
  obtain ⟨made, hmade, hcreated, hall⟩ :
      Creates upload.filename db.documents.next (chunkText (upload.extracted codec).1).zipIdx
        pipeline start := creates_ingestPipeline start
  have hcolumned : Columned (newDocument codec upload) db.documents.next start := by
    refine ⟨rfl, fun row hrow => ?_⟩
    have hget : (db.documents.insert (newDocument codec upload)).get db.documents.next =
        some row := hrow
    rw [Table.get_insert, if_pos rfl] at hget
    rw [← Option.some.inj hget]
    rfl
  have hcolumns : Columned (newDocument codec upload) db.documents.next
      (Proc.after pipeline start) := keepsColumns_ingestPipeline _ start hcolumned
  rw [← hafter] at hcreated
  have hchunks : ∀ docId, db'.chunksOf docId = db.chunksOf docId ++
      if db.documents.next = docId then rowsOf upload.filename db.documents.next made else [] := by
    intro docId
    unfold KnowledgeDb.chunksOf
    rw [hcreated, List.filter_append, filter_rowsOf]
    rfl
  have hnew : db.chunksOf db.documents.next = [] := by
    refine List.filter_eq_nil_iff.mpr fun chunk hchunk => ?_
    simpa using created_ne_next hchunk
  have hown : db'.chunksOf db.documents.next =
      rowsOf upload.filename db.documents.next made := by
    rw [hchunks, hnew, if_pos rfl, List.nil_append]
  refine ⟨⟨row, hrow, ?_, ?_, ?_, ?_⟩, hframe.next, fun other hother => ?_⟩
  · exact hcolumns.row row (hafter ▸ hrow)
  · rw [hown]
    exact hmade.map _
  · intro hready
    by_cases hfaulty : Faulty codec faults upload.contentType upload.fileBytes
    · -- With a fault the document is not READY.
      obtain ⟨exc, t, hrun, -, row', hrow', hprogress⟩ :=
        ingestPipeline_error upload.filename (working_insertDocument codec upload db) hfaulty
      have ht : db' = t.db := hafter.trans (congrArg _ (Proc.after_of_error hrun))
      have hsame : row' = row := Option.some.inj (hrow'.symm.trans (ht ▸ hrow))
      exact absurd hready (hsame ▸ hprogress.status)
    · obtain ⟨t, hrun, -, hrow', -⟩ :=
        ingestPipeline_ok upload.filename (working_insertDocument codec upload db) hfaulty
      have ht : db' = t.db := hafter.trans (congrArg _ (Proc.after_of_ok hrun))
      have hsame : _ = row := Option.some.inj (hrow'.symm.trans (ht ▸ hrow))
      rw [hown, hall t hrun, ← hsame]
      exact ⟨rfl, rfl⟩
  · intro c chunk hchunk hid
    rw [hlive]
    rcases hframe.created c chunk hchunk with hold | ⟨-, hcreated⟩
    · obtain ⟨doc, hdoc⟩ := Option.isSome_iff_exists.mp (db.document_exists c chunk hold)
      have hlt := Table.get_lt hdoc
      omega
    · exact hcreated
  · rw [hchunks, if_neg (Ne.symm hother), List.append_nil]

/-- The checks let an upload in. -/
def Upload.admitted : Bool :=
  match validateFile upload.filename upload.contentType upload.fileBytes.length with
  | .error _ => false
  | .ok _ => upload.duplicatePolicy ≠ "reject" ||
      (db.getByChecksumInKb (codec.sha256 upload.fileBytes) upload.kbId).isNone

/-- An upload that is let in replaces its duplicate, or not, and is stored. -/
theorem ingestDocument_admitted :
    Proc.after (ingestDocument codec faults upload) db =
      if upload.admitted codec db = true then
        Proc.after (storeDocument codec faults upload) (withoutReplaced codec upload db)
      else db := by
  have hresolve := run_resolveDuplicate codec upload db
  unfold ingestDocument withoutReplaced replacedDuplicate Upload.admitted
  cases validateFile upload.filename upload.contentType upload.fileBytes.length with
  | error exc => rfl
  | ok _ =>
      show Proc.after (resolveDuplicate codec upload >>= fun _ =>
        storeDocument codec faults upload) db = _
      rw [Proc.after_bind, hresolve]
      cases db.getByChecksumInKb (codec.sha256 upload.fileBytes) upload.kbId with
      | none => simp
      | some found =>
          by_cases hreject : upload.duplicatePolicy = "reject"
          · simp [hreject]
          · by_cases hreplace : upload.duplicatePolicy = "replace"
            · simp [hreplace]
            · simp [hreject, hreplace]

variable {codec upload db}

theorem Sourced.storeDocument {stored : List Upload} (h : Sourced codec stored db) :
    Sourced codec (stored ++ [upload])
      (Proc.after (storeDocument codec faults upload) db) := by
  obtain ⟨hnew, hnext, hothers⟩ := storeDocument_holds codec faults upload db
  obtain ⟨hframe, -⟩ := storeDocument_after codec faults upload db
  refine ⟨by rw [hnext, h.next, List.length_append, List.length_singleton], ?_⟩
  intro id upload' hstored
  by_cases hlt : id < stored.length
  · rw [List.getElem?_append_left hlt] at hstored
    obtain ⟨doc, hdoc, hholds⟩ := h.holds id upload' hstored
    have hne : id ≠ db.documents.next := Nat.ne_of_lt (Table.get_lt hdoc)
    have hget : (db.insertDocument (newDocument codec upload)).documents.get id = some doc := by
      show (db.documents.insert _).get id = _
      rw [Table.get_insert, if_neg hne, hdoc]
    refine ⟨doc, (hframe.document id hne).trans hget, hholds.congr (hothers id hne) ?_⟩
    intro c chunk hchunk hown
    rcases hframe.created c chunk hchunk with hold | ⟨hown', -⟩
    · exact ⟨chunk, hold, hown, rfl⟩
    · exact absurd (hown.symm.trans hown') hne
  · have hbound := (List.getElem?_eq_some_iff.mp hstored).1
    rw [List.length_append, List.length_singleton] at hbound
    obtain rfl : id = stored.length := by omega
    rw [List.getElem?_concat_length] at hstored
    rw [← h.next, ← Option.some.inj hstored]
    exact hnew

/-- **An ingestion** stores the upload if it is let in. -/
theorem Sourced.ingestDocument {stored : List Upload} (h : Sourced codec stored db) :
    Sourced codec (stored ++ if upload.admitted codec db = true then [upload] else [])
      (Proc.after (ingestDocument codec faults upload) db) := by
  have hreplaced : Sourced codec stored (withoutReplaced codec upload db) := by
    unfold withoutReplaced
    cases replacedDuplicate codec upload db with
    | none => exact h
    | some docId => exact h.deleteDocument docId
  rw [ingestDocument_admitted]
  split
  · exact hreplaced.storeDocument faults
  · rw [List.append_nil]
    exact h

end Call

end AgentCorp.Knowledge
