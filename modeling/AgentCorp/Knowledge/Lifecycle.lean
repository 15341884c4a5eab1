/-
  What a deletion and an ingestion do to the tables.

  * `deleteDocument_get`, `deleteDocument_chunk`: a deletion marks one document and its chunks.
  * `Frame`: the pipeline works on one document and leaves the others alone.
  * `within_ingestChunks_of`: what each of its commits does, all of it does.
  * `within_ingestChunks`: it keeps to the frame, and the document stays in progress.
-/
import AgentCorp.Knowledge.KnowledgeService

namespace AgentCorp.Knowledge

open AgentCorp.Python

/-! ## Deletion -/

theorem listByDocument_deleteChunk (db : KnowledgeDb) (id docId : Nat) :
    (db.deleteChunk id).listByDocument docId =
      (db.listByDocument docId).filter fun row => row.1 ≠ id := by
  exact Table.select_modify_drop (t := db.chunks)
    (p := fun chunk => chunk.documentId == docId && !chunk.isDeleted)
    (f := fun chunk => { chunk with isDeleted := true }) fun chunk => by simp

theorem deleteChunks_documents (entries : List (Nat × KnowledgeChunk)) (db : KnowledgeDb) :
    (entries.foldl (fun db entry => db.deleteChunk entry.1) db).documents = db.documents := by
  induction entries generalizing db with
  | nil => rfl
  | cons entry rest ih => exact ih (db.deleteChunk entry.1)

theorem listByDocument_deleteChunks (entries : List (Nat × KnowledgeChunk)) (db : KnowledgeDb)
    (docId : Nat) :
    (entries.foldl (fun db entry => db.deleteChunk entry.1) db).listByDocument docId =
      (db.listByDocument docId).filter fun row => row.1 ∉ entries.map (·.1) := by
  induction entries generalizing db with
  | nil => simp
  | cons entry rest ih =>
      rw [List.foldl_cons, ih, listByDocument_deleteChunk, List.filter_filter]
      congr 1
      funext row
      by_cases hfirst : row.1 = entry.1
      · simp [hfirst]
      · simp [hfirst]

theorem deleteDocument_get (db : KnowledgeDb) (docId id : Nat) :
    (db.deleteDocument docId).documents.get id =
      if id = docId then (db.documents.get id).map fun doc => { doc with isDeleted := true }
      else db.documents.get id := by
  unfold KnowledgeDb.deleteDocument
  cases hactive : db.getActive docId with
  | none =>
      by_cases hid : id = docId
      · rw [if_pos hid, hid]
        unfold KnowledgeDb.getActive at hactive
        cases hget : db.documents.get docId with
        | none => rw [Option.map_none]
        | some doc =>
            -- A document that is not active has been deleted before.
            have hdeleted : doc.isDeleted = true := by simpa [hget] using hactive
            rw [Option.map_some, ← hdeleted]
      · rw [if_neg hid]
  | some doc =>
      dsimp only
      rw [deleteChunks_documents]
      show (db.documents.modify docId _).get id = _
      rw [Table.get_modify]
      by_cases hid : id = docId
      · rw [if_pos hid, if_pos hid, hid]
      · rw [if_neg hid, if_neg hid]

/-- A chunk that is deleted if it is one of those to delete. -/
def KnowledgeChunk.mark (chunk : KnowledgeChunk) (gone : Bool) : KnowledgeChunk :=
  { chunk with isDeleted := chunk.isDeleted || gone }

theorem deleteChunks_chunk (entries : List (Nat × KnowledgeChunk)) (db : KnowledgeDb) (c : Nat) :
    (entries.foldl (fun db entry => db.deleteChunk entry.1) db).chunks.get c =
      (db.chunks.get c).map fun chunk => chunk.mark (decide (c ∈ entries.map (·.1))) := by
  induction entries generalizing db with
  | nil => simp [KnowledgeChunk.mark]
  | cons entry rest ih =>
      have hget : (db.deleteChunk entry.1).chunks.get c = if c = entry.1 then
          (db.chunks.get entry.1).map fun chunk => { chunk with isDeleted := true }
          else db.chunks.get c := Table.get_modify _ _ _ _
      rw [List.foldl_cons, ih, hget]
      by_cases hc : c = entry.1
      · rw [if_pos hc, Option.map_map, hc]
        congr 1
        funext chunk
        simp [KnowledgeChunk.mark]
      · rw [if_neg hc, List.map_cons]
        simp only [List.mem_cons, hc, false_or]

/-- A deletion marks the chunks of its document. -/
theorem deleteDocument_chunk (db : KnowledgeDb) (docId c : Nat) :
    (db.deleteDocument docId).chunks.get c = (db.chunks.get c).map fun chunk =>
      chunk.mark (decide (chunk.documentId = docId) && (db.getActive docId).isSome) := by
  unfold KnowledgeDb.deleteDocument
  cases db.getActive docId with
  | none => simp [KnowledgeChunk.mark]
  | some doc =>
      dsimp only
      rw [deleteChunks_chunk]
      show (db.chunks.get c).map _ = _
      cases hget : db.chunks.get c with
      | none => rfl
      | some chunk =>
          have hlisted : c ∈ (db.listByDocument docId).map (·.1) ↔
              chunk.documentId = docId ∧ chunk.isDeleted = false := by
            rw [List.mem_map]
            constructor
            · rintro ⟨entry, hentry, rfl⟩
              obtain ⟨hentry, hmatch⟩ := Table.mem_select.mp hentry
              rw [← Option.some.inj (hget.symm.trans hentry)] at hmatch
              simpa using hmatch
            · intro hmatch
              exact ⟨(c, chunk), Table.mem_select.mpr ⟨hget, by simpa using hmatch⟩, rfl⟩
          have hmark : chunk.mark (decide (c ∈ (db.listByDocument docId).map (·.1))) =
              chunk.mark (decide (chunk.documentId = docId) && true) := by
            unfold KnowledgeChunk.mark
            by_cases hdeleted : chunk.isDeleted = true
            · simp [hdeleted]
            · simp [hlisted, hdeleted]
          exact congrArg some hmark

theorem deleteDocument_next (db : KnowledgeDb) (docId : Nat) :
    (db.deleteDocument docId).documents.next = db.documents.next := by
  unfold KnowledgeDb.deleteDocument
  cases db.getActive docId with
  | none => rfl
  | some doc =>
      dsimp only
      rw [deleteChunks_documents]
      rfl

theorem deleteDocument_listByDocument (db : KnowledgeDb) {docId other : Nat}
    (hne : other ≠ docId) :
    (db.deleteDocument docId).listByDocument other = db.listByDocument other := by
  unfold KnowledgeDb.deleteDocument
  cases db.getActive docId with
  | none => rfl
  | some doc =>
      dsimp only
      rw [listByDocument_deleteChunks, List.filter_eq_self.mpr]
      · rfl
      · intro row hrow
        rw [decide_eq_true_iff]
        intro hmem
        obtain ⟨entry, hentry, heq⟩ := List.mem_map.mp hmem
        -- One chunk belongs to one document.
        have hother := Table.mem_select.mp hrow
        have hown := Table.mem_select.mp hentry
        simp only [Bool.and_eq_true, beq_iff_eq] at hother hown
        rw [heq] at hown
        have hsame := Option.some.inj (hown.1.symm.trans hother.1)
        rw [hsame] at hown
        exact hne (hother.2.1.symm.trans hown.2.1)

/-! ## The pipeline -/

/-- From one database to the next, only the document `id` and its new chunks differ. -/
structure Frame (id : Nat) (db db' : KnowledgeDb) : Prop where
  next : db'.documents.next = db.documents.next
  document : ∀ other, other ≠ id → db'.documents.get other = db.documents.get other
  listed : ∀ other, other ≠ id → db'.listByDocument other = db.listByDocument other
  chunk : ∀ c chunk, db.chunks.get c = some chunk → db'.chunks.get c = some chunk
  created : ∀ c chunk, db'.chunks.get c = some chunk →
    db.chunks.get c = some chunk ∨ (chunk.documentId = id ∧ chunk.isDeleted = false)

theorem Frame.refl (id : Nat) (db : KnowledgeDb) : Frame id db db where
  next := rfl
  document := fun _ _ => rfl
  listed := fun _ _ => rfl
  chunk := fun _ _ hchunk => hchunk
  created := fun _ _ hchunk => .inl hchunk

theorem Frame.trans {id : Nat} {a b c : KnowledgeDb} (hab : Frame id a b) (hbc : Frame id b c) :
    Frame id a c where
  next := hbc.next.trans hab.next
  document := fun other hne => (hbc.document other hne).trans (hab.document other hne)
  listed := fun other hne => (hbc.listed other hne).trans (hab.listed other hne)
  chunk := fun i chunk hchunk => hbc.chunk i chunk (hab.chunk i chunk hchunk)
  created := fun i chunk hchunk => (hbc.created i chunk hchunk).elim (hab.created i chunk) .inr

theorem updateDocument_isSome (db : KnowledgeDb) (id : Nat)
    (f : KnowledgeDocument → KnowledgeDocument) (other : Nat) :
    ((db.updateDocument id f).documents.get other).isSome = (db.documents.get other).isSome := by
  show ((db.documents.modify id f).get other).isSome = _
  rw [Table.get_modify]
  split
  · next hid => rw [Option.isSome_map, hid]
  · rfl

theorem frame_updateDocument (db : KnowledgeDb) (id : Nat)
    (f : KnowledgeDocument → KnowledgeDocument) : Frame id db (db.updateDocument id f) where
  next := rfl
  document := by
    intro other hne
    show (db.documents.modify id f).get other = _
    rw [Table.get_modify, if_neg hne]
  listed := fun _ _ => rfl
  chunk := fun _ _ hchunk => hchunk
  created := fun _ _ hchunk => .inl hchunk

theorem insertChunk_eq_some {db db' : KnowledgeDb} {chunk : KnowledgeChunk}
    (h : db.insertChunk chunk = some db') :
    db'.documents = db.documents ∧ db'.chunks = db.chunks.insert chunk := by
  unfold KnowledgeDb.insertChunk at h
  split at h
  · rw [← Option.some.inj h]
    exact ⟨rfl, rfl⟩
  · cases h

theorem frame_insertChunk {db db' : KnowledgeDb} {chunk : KnowledgeChunk}
    (hlive : chunk.isDeleted = false) (h : db.insertChunk chunk = some db') :
    Frame chunk.documentId db db' := by
  obtain ⟨hdocuments, hchunks⟩ := insertChunk_eq_some h
  have hget : ∀ c, db'.chunks.get c = if c = db.chunks.next then some chunk
      else db.chunks.get c := by
    intro c
    rw [hchunks, Table.get_insert]
  refine ⟨by rw [hdocuments], fun _ _ => by rw [hdocuments], ?_, ?_, ?_⟩
  · intro other hne
    have hother : (chunk.documentId == other) = false := beq_eq_false_iff_ne.mpr hne.symm
    unfold KnowledgeDb.listByDocument
    rw [hchunks, Table.select_insert]
    simp [hother]
  · intro c stored hstored
    have hlt := Table.get_lt hstored
    rw [hget, if_neg (by omega)]
    exact hstored
  · intro c stored hstored
    rw [hget] at hstored
    split at hstored
    · rw [← Option.some.inj hstored]
      exact .inr ⟨rfl, hlive⟩
    · exact .inl hstored

section Rules

variable {codec : Codec} {faults : Faults} {filename contentType : String}
  {fileBytes : List UInt8} {id : Nat} {R : IngestState → IngestState → Prop}
  [IsPreorder IngestState R]

theorem within_reach (point : IngestPoint) : Proc.Within R (reach faults point) := by
  unfold reach
  cases faults point with
  | none => exact Proc.Within.pure ()
  | some exc => exact Proc.Within.throw exc

theorem within_createChunks_of {entries : List (ChunkInfo × Nat)}
    (hchunk : ∀ entry ∈ entries, Proc.Within R (commitChunk filename id entry.1 entry.2)) :
    Proc.Within R (createChunks faults filename id entries) := by
  induction entries with
  | nil => exact Proc.Within.pure ()
  | cons entry rest ih =>
      obtain ⟨hfirst, hrest⟩ := List.forall_mem_cons.mp hchunk
      have hcreate : Proc.Within R (createChunk faults filename id entry.1 entry.2) :=
        (within_reach _).bind fun _ => hfirst.bind fun _ => within_reach _
      exact hcreate.bind fun _ => ih hrest

/-- What its commits do, the pipeline before its last step does. -/
theorem within_ingestChunks_of
    (hstatus : ∀ status, status ≠ .ready → Proc.Within R (setStatus id status))
    (hmetadata : ∀ metadata, Proc.Within R (setMetadata metadata))
    (hchunk : ∀ text, ∀ info ∈ chunkText text, ∀ idx,
      Proc.Within R (commitChunk filename id info idx)) :
    Proc.Within R (ingestChunks codec faults filename contentType fileBytes id) := by
  have hprocess : Proc.Within R (process codec faults contentType fileBytes) := by
    unfold process
    cases faults .process with
    | none => exact Proc.Within.pure _
    | some exc => exact Proc.Within.throw _
  unfold ingestChunks
  refine (hstatus _ (by decide)).bind fun _ => hprocess.bind fun extracted => ?_
  refine (hstatus _ (by decide)).bind fun _ => (within_reach _).bind fun _ => ?_
  refine (hmetadata _).bind fun _ => (within_reach _).bind fun _ => ?_
  exact within_createChunks_of fun entry hentry =>
    hchunk _ entry.1 (List.fst_mem_of_mem_zipIdx hentry) entry.2

end Rules

/-- A document that is being worked on. -/
structure KnowledgeDocument.InProgress (kbId : Nat) (doc : KnowledgeDocument) : Prop where
  knowledgeBaseId : doc.knowledgeBaseId = kbId
  live : doc.isDeleted = false
  status : doc.processingStatus ≠ .ready

/-- The object of the document and its row are in progress. -/
structure Working (kbId id : Nat) (s : IngestState) : Prop where
  doc : s.doc.InProgress kbId
  row : ∃ row, s.db.documents.get id = some row ∧ row.InProgress kbId

/-- What the steps of the pipeline do before the last one. -/
structure Progress (kbId id : Nat) (s t : IngestState) : Prop where
  frame : Frame id s.db t.db
  working : Working kbId id s → Working kbId id t

instance (kbId id : Nat) : IsPreorder IngestState (Progress kbId id) where
  refl := fun s => ⟨.refl id s.db, fun h => h⟩
  trans := fun _ _ _ hab hbc => ⟨hab.frame.trans hbc.frame, fun h => hbc.working (hab.working h)⟩

section Pipeline

variable {codec : Codec} {faults : Faults} {filename contentType : String}
  {fileBytes : List UInt8} {kbId id : Nat}

theorem Working.updateDocument {s : IngestState} {doc : KnowledgeDocument} (h : Working kbId id s)
    (hdoc : doc.InProgress kbId) :
    Working kbId id { db := s.db.updateDocument id fun _ => doc, doc } := by
  obtain ⟨row, hrow, -⟩ := h.row
  refine ⟨hdoc, doc, ?_, hdoc⟩
  show (s.db.documents.modify id fun _ => doc).get id = some doc
  rw [Table.get_modify, if_pos rfl, hrow, Option.map_some]

theorem run_setStatus (id : Nat) (status : ProcessingStatus) (s : IngestState) :
    (setStatus id status).run s = .ok () {
      db := s.db.updateDocument id fun _ => { s.doc with processingStatus := status }
      doc := { s.doc with processingStatus := status } } := rfl

theorem within_setStatus {status : ProcessingStatus} (hstatus : status ≠ .ready) :
    Proc.Within (Progress kbId id) (setStatus id status) := by
  refine Proc.Within.modify fun s => ⟨frame_updateDocument s.db id _, fun h => ?_⟩
  exact h.updateDocument ⟨h.doc.knowledgeBaseId, h.doc.live, hstatus⟩

theorem run_setMetadata (metadata : Dict Json) (s : IngestState) :
    (setMetadata metadata).run s =
      .ok () { s with doc := { s.doc with metadata := some metadata } } := rfl

theorem within_setMetadata (metadata : Dict Json) :
    Proc.Within (Progress kbId id) (setMetadata metadata) := by
  refine Proc.Within.modify fun s => ⟨.refl id s.db, fun h => ⟨?_, h.row⟩⟩
  exact ⟨h.doc.knowledgeBaseId, h.doc.live, h.doc.status⟩

theorem run_commitChunk (filename : String) (id : Nat) (info : ChunkInfo) (idx : Nat)
    (s : IngestState) :
    (commitChunk filename id info idx).run s =
      match (s.db.updateDocument id fun _ => s.doc).insertChunk
        (chunkRow filename id info idx) with
      | none => .error (.other "IntegrityError" "violates foreign key constraint") s
      | some db => .ok () { s with db } := by
  unfold commitChunk
  rw [EStateM.run_bind, EStateM.run_get]
  dsimp only
  cases (s.db.updateDocument id fun _ => s.doc).insertChunk (chunkRow filename id info idx) <;> rfl

/-- What a commit of a chunk has to keep, if the chunk is inserted. -/
theorem within_commitChunk_of {R : IngestState → IngestState → Prop} [IsPreorder IngestState R]
    {info : ChunkInfo} {idx : Nat}
    (hinserted : ∀ s db, (s.db.updateDocument id fun _ => s.doc).insertChunk
      (chunkRow filename id info idx) = some db → R s { s with db }) :
    Proc.Within R (commitChunk filename id info idx) := by
  intro s
  have hrun := run_commitChunk filename id info idx s
  cases hinsert : (s.db.updateDocument id fun _ => s.doc).insertChunk
      (chunkRow filename id info idx) with
  | none =>
      rw [hinsert] at hrun
      rw [Proc.after_of_error hrun]
      exact refl_of _ s
  | some db =>
      rw [hinsert] at hrun
      rw [Proc.after_of_ok hrun]
      exact hinserted s db hinsert

theorem within_commitChunk (info : ChunkInfo) (idx : Nat) :
    Proc.Within (Progress kbId id) (commitChunk filename id info idx) := by
  refine within_commitChunk_of fun s db hinsert => ?_
  have hframe : Frame id (s.db.updateDocument id fun _ => s.doc) db :=
    frame_insertChunk rfl hinsert
  refine ⟨(frame_updateDocument s.db id _).trans hframe, fun h => ?_⟩
  obtain ⟨hdoc, hrow⟩ := h.updateDocument h.doc
  refine ⟨hdoc, ?_⟩
  show ∃ row, db.documents.get id = some row ∧ _
  rw [(insertChunk_eq_some hinsert).1]
  exact hrow

/-- **The pipeline before its last step**, however it ends. -/
theorem within_ingestChunks :
    Proc.Within (Progress kbId id)
      (ingestChunks codec faults filename contentType fileBytes id) :=
  within_ingestChunks_of (fun _ => within_setStatus) within_setMetadata
    fun _ info _ idx => within_commitChunk info idx

/-- The pipeline once all chunks are there. -/
theorem ingestPipeline_of_ok {s t : IngestState} (hworking : Working kbId id s)
    (hrun : (ingestChunks codec faults filename contentType fileBytes id).run s = .ok () t) :
    ∃ u, (ingestPipeline codec faults filename contentType fileBytes id).run s = .ok () u ∧
      Frame id s.db u.db ∧ u.db.chunks = t.db.chunks ∧
      u.db.documents.get id = some { t.doc with processingStatus := .ready } ∧
      t.doc.InProgress kbId := by
  have hprogress : Progress kbId id s
      (Proc.after (ingestChunks codec faults filename contentType fileBytes id) s) :=
    within_ingestChunks s
  rw [Proc.after_of_ok hrun] at hprogress
  have hworking' := hprogress.working hworking
  obtain ⟨row, hrow, -⟩ := hworking'.row
  have hpipeline : (ingestPipeline codec faults filename contentType fileBytes id).run s =
      (setStatus id .ready).run t := by
    unfold ingestPipeline
    rw [Proc.run_tryCatch, Proc.run_bind_of_ok hrun, run_setStatus]
  refine ⟨_, hpipeline.trans (run_setStatus id .ready t),
    hprogress.frame.trans (frame_updateDocument t.db id _), rfl, ?_, hworking'.doc⟩
  show (t.db.documents.modify id _).get id = _
  rw [Table.get_modify, if_pos rfl, hrow, Option.map_some]

/-- The pipeline once something has raised. -/
theorem ingestPipeline_of_error {s t : IngestState} {exc : Exn} (hworking : Working kbId id s)
    (hrun : (ingestChunks codec faults filename contentType fileBytes id).run s =
      .error exc t) :
    ∃ exc' u, (ingestPipeline codec faults filename contentType fileBytes id).run s =
        .error exc' u ∧
      Frame id s.db u.db ∧ ∃ row, u.db.documents.get id = some row ∧ row.InProgress kbId := by
  have hprogress : Progress kbId id s
      (Proc.after (ingestChunks codec faults filename contentType fileBytes id) s) :=
    within_ingestChunks s
  rw [Proc.after_of_error hrun] at hprogress
  have hworking' := hprogress.working hworking
  have hset : Progress kbId id t (Proc.after (setStatus id .failed) t) :=
    within_setStatus (by decide) t
  unfold ingestPipeline
  rw [Proc.run_tryCatch, Proc.run_bind_of_error hrun]
  dsimp only
  cases hfailed : faults .failed with
  | none =>
      have hreach : (reach faults .failed : Pipeline Unit) = pure () := by
        unfold reach
        rw [hfailed]
      rw [hreach]
      exact ⟨_, _, rfl, hprogress.frame.trans hset.frame, (hset.working hworking').row⟩
  | some exc' =>
      have hreach : (reach faults .failed : Pipeline Unit) = throw exc' := by
        unfold reach
        rw [hfailed]
      rw [hreach]
      exact ⟨exc', t, rfl, hprogress.frame, hworking'.row⟩

end Pipeline

/-! ## The call -/

section Call

variable (codec : Codec) (faults : Faults) (upload : Upload) (db : KnowledgeDb)

/-- The pipeline starts on a document that is in progress. -/
theorem working_insertDocument :
    Working upload.kbId db.documents.next
      { db := db.insertDocument (newDocument codec upload), doc := newDocument codec upload } where
  doc := ⟨rfl, rfl, by simp [newDocument]⟩
  row := by
    refine ⟨newDocument codec upload, ?_, rfl, rfl, by simp [newDocument]⟩
    show (db.documents.insert _).get _ = _
    rw [Table.get_insert, if_pos rfl]

theorem run_withDocument {α : Type} (doc : KnowledgeDocument) (p : Pipeline α)
    (db : KnowledgeDb) :
    (withDocument doc p).run db =
      match p.run { db, doc } with
      | .ok a s => .ok a s.db
      | .error exc s => .error exc s.db := rfl

theorem run_storeDocument :
    (storeDocument codec faults upload).run db =
      match (ingestPipeline codec faults upload.filename upload.contentType upload.fileBytes
          db.documents.next).run {
            db := db.insertDocument (newDocument codec upload)
            doc := newDocument codec upload } with
      | .ok _ t => .ok db.documents.next t.db
      | .error exc t => .error exc t.db := by
  show (withDocument (newDocument codec upload) (ingestPipeline codec faults upload.filename
    upload.contentType upload.fileBytes db.documents.next) >>= fun _ =>
      pure db.documents.next).run (db.insertDocument (newDocument codec upload)) = _
  rw [EStateM.run_bind, run_withDocument]
  cases (ingestPipeline codec faults upload.filename upload.contentType upload.fileBytes
    db.documents.next).run _ <;> rfl

/-- What the rest of an ingestion leaves, however it ends: a new document that is not deleted. -/
theorem storeDocument_after :
    let db' := Proc.after (storeDocument codec faults upload) db
    Frame db.documents.next (db.insertDocument (newDocument codec upload)) db' ∧
      ∃ row, db'.documents.get db.documents.next = some row ∧ row.isDeleted = false ∧
        row.knowledgeBaseId = upload.kbId := by
  have hworking := working_insertDocument codec upload db
  have hstore := run_storeDocument codec faults upload db
  intro db'
  cases hrun : (ingestChunks codec faults upload.filename upload.contentType upload.fileBytes
      db.documents.next).run {
        db := db.insertDocument (newDocument codec upload)
        doc := newDocument codec upload } with
  | ok _ t =>
      obtain ⟨u, hpipeline, hframe, -, hrow, hprogress⟩ := ingestPipeline_of_ok hworking hrun
      rw [hpipeline] at hstore
      have hafter : db' = u.db := Proc.after_of_ok hstore
      rw [hafter]
      exact ⟨hframe, _, hrow, hprogress.live, hprogress.knowledgeBaseId⟩
  | error exc t =>
      obtain ⟨exc', u, hpipeline, hframe, row, hrow, hprogress⟩ :=
        ingestPipeline_of_error hworking hrun
      rw [hpipeline] at hstore
      have hafter : db' = u.db := Proc.after_of_error hstore
      rw [hafter]
      exact ⟨hframe, row, hrow, hprogress.live, hprogress.knowledgeBaseId⟩

theorem run_resolveDuplicate :
    (resolveDuplicate codec upload).run db =
      match db.getByChecksumInKb (codec.sha256 upload.fileBytes) upload.kbId with
      | none => .ok () db
      | some (existing, _) =>
          if upload.duplicatePolicy = "reject" then
            .error (.other "DuplicateDocumentError"
              "A document with the same content already exists in this knowledge base.") db
          else if upload.duplicatePolicy = "replace" then .ok () (db.deleteDocument existing)
          else .ok () db := by
  unfold resolveDuplicate
  rw [EStateM.run_bind, EStateM.run_get]
  dsimp only
  cases db.getByChecksumInKb (codec.sha256 upload.fileBytes) upload.kbId with
  | none => rfl
  | some found =>
      dsimp only
      split
      · rfl
      · split <;> rfl

theorem resolveDuplicate_next {codec : Codec} {upload : Upload} {db db' : KnowledgeDb}
    (h : (resolveDuplicate codec upload).run db = .ok () db') :
    db'.documents.next = db.documents.next := by
  rw [run_resolveDuplicate] at h
  split at h
  · rw [(EStateM.Result.ok.inj h).2]
  · split at h
    · cases h
    · split at h
      · rw [← (EStateM.Result.ok.inj h).2, deleteDocument_next]
      · rw [(EStateM.Result.ok.inj h).2]

/-- The document that an upload deletes: the duplicate, under the policy `replace`. -/
def replacedDuplicate : Option Nat :=
  match validateFile upload.filename upload.contentType upload.fileBytes.length with
  | .error _ => none
  | .ok _ =>
      if upload.duplicatePolicy = "replace" then
        (db.getByChecksumInKb (codec.sha256 upload.fileBytes) upload.kbId).map (·.1)
      else none

/-- The database without the document that an upload deletes. -/
def withoutReplaced : KnowledgeDb :=
  (replacedDuplicate codec upload db).elim db db.deleteDocument

/-- **What an ingestion does**, however it ends. -/
theorem ingestDocument_after :
    Proc.after (ingestDocument codec faults upload) db = withoutReplaced codec upload db ∨
      Proc.after (ingestDocument codec faults upload) db =
        Proc.after (storeDocument codec faults upload) (withoutReplaced codec upload db) := by
  have hresolve := run_resolveDuplicate codec upload db
  unfold ingestDocument withoutReplaced replacedDuplicate
  cases validateFile upload.filename upload.contentType upload.fileBytes.length with
  | error exc => exact .inl rfl
  | ok _ =>
      have hvalid : Proc.after (Proc.ofExcept (.ok ()) >>= fun _ =>
          resolveDuplicate codec upload >>= fun _ => storeDocument codec faults upload) db =
          Proc.after (resolveDuplicate codec upload >>= fun _ =>
            storeDocument codec faults upload) db := rfl
      rw [hvalid, Proc.after_bind, hresolve]
      cases db.getByChecksumInKb (codec.sha256 upload.fileBytes) upload.kbId with
      | none =>
          right
          dsimp only
          split <;> rfl
      | some found =>
          by_cases hreject : upload.duplicatePolicy = "reject"
          · left
            dsimp only
            rw [if_pos hreject, hreject, if_neg (by decide)]
            rfl
          · right
            dsimp only
            rw [if_neg hreject]
            by_cases hreplace : upload.duplicatePolicy = "replace"
            · rw [if_pos hreplace, if_pos hreplace]
              rfl
            · rw [if_neg hreplace, if_neg hreplace]
              rfl

end Call

end AgentCorp.Knowledge
