/-
  What an upload with the policy `replace` makes of the READY documents of a knowledge base.

  A knowledge base is seen as a partial map from ids to READY documents with their active chunks.
  The pipeline works on one document (`Frame`), so what it leaves of the others is what the
  deletion of the duplicate left.

  * `readyDocuments_deleteDocument`: a deletion takes one document out.
  * `ingestPipeline_ok`, `ingestPipeline_error`: what the pipeline adds, or not.
  * `allOrNothing_iff`: when the call is all or nothing.
-/
import AgentCorp.Knowledge.Lifecycle
import Mathlib.Logic.Function.Basic

namespace AgentCorp.Knowledge

open AgentCorp.Python

/-! ## The READY documents -/

/-- The READY documents that are listed for a knowledge base, with their active chunks. -/
abbrev Shelf := Nat → Option (KnowledgeDocument × List (Nat × KnowledgeChunk))

def KnowledgeDocument.readyIn (doc : KnowledgeDocument) (kbId : Nat) : Bool :=
  doc.knowledgeBaseId == kbId && !doc.isDeleted && doc.processingStatus == .ready

def KnowledgeDb.readyDocuments (db : KnowledgeDb) (kbId : Nat) : Shelf := fun id =>
  ((db.documents.get id).filter fun doc => doc.readyIn kbId).map fun doc =>
    (doc, db.listByDocument id)

theorem readyDocuments_eq_some {db : KnowledgeDb} {kbId id : Nat} {doc : KnowledgeDocument}
    {chunks : List (Nat × KnowledgeChunk)} :
    db.readyDocuments kbId id = some (doc, chunks) ↔
      (id, doc) ∈ db.listByKb kbId ∧ doc.processingStatus = .ready ∧
        chunks = db.listByDocument id := by
  unfold KnowledgeDb.readyDocuments KnowledgeDb.listByKb
  rw [Table.mem_select]
  cases db.documents.get id with
  | none => simp
  | some stored =>
      by_cases hready : stored.readyIn kbId = true
      · simp only [Option.filter_some, hready, if_true, Option.map_some, Option.some_inj,
          Prod.mk.injEq]
        simp only [KnowledgeDocument.readyIn, Bool.and_eq_true, beq_iff_eq] at hready
        constructor
        · rintro ⟨rfl, rfl⟩
          simp [hready]
        · rintro ⟨⟨rfl, -⟩, -, rfl⟩
          exact ⟨rfl, rfl⟩
      · simp only [Option.filter_some, hready, Bool.false_eq_true, if_false, Option.map_none,
          Option.some_inj]
        simp only [KnowledgeDocument.readyIn, Bool.and_eq_true, beq_iff_eq] at hready
        constructor
        · intro hnone
          cases hnone
        · rintro ⟨⟨rfl, hlisted⟩, hstatus, -⟩
          simp only [Bool.and_eq_true, beq_iff_eq] at hlisted
          exact absurd ⟨hlisted, hstatus⟩ hready

/-- The documents and their chunks, seen one by one. -/
theorem readyDocuments_congr {db db' : KnowledgeDb} {id : Nat}
    (hdocument : db'.documents.get id = db.documents.get id)
    (hchunks : db'.listByDocument id = db.listByDocument id) (kbId : Nat) :
    db'.readyDocuments kbId id = db.readyDocuments kbId id := by
  unfold KnowledgeDb.readyDocuments
  rw [hdocument, hchunks]

theorem readyDocuments_eq_none {db : KnowledgeDb} {kbId id : Nat}
    (h : ∀ doc, db.documents.get id = some doc → doc.readyIn kbId = false) :
    db.readyDocuments kbId id = none := by
  unfold KnowledgeDb.readyDocuments
  cases hget : db.documents.get id with
  | none => rfl
  | some doc =>
      rw [Option.filter_some, h doc hget]
      rfl

/-- A document that is being worked on shows nowhere. -/
theorem readyDocuments_inProgress {db : KnowledgeDb} {kbId id : Nat}
    (h : ∃ row, db.documents.get id = some row ∧ row.InProgress kbId) :
    db.readyDocuments kbId id = none := by
  obtain ⟨row, hrow, hprogress⟩ := h
  apply readyDocuments_eq_none
  intro row' hrow'
  rw [← Option.some.inj (hrow.symm.trans hrow')]
  simp [KnowledgeDocument.readyIn, hprogress.status]

/-! ## Deletion -/

/-- **A deletion** takes one document out, and changes no other. -/
theorem readyDocuments_deleteDocument (db : KnowledgeDb) (docId kbId : Nat) :
    (db.deleteDocument docId).readyDocuments kbId =
      Function.update (db.readyDocuments kbId) docId none := by
  funext id
  by_cases hid : id = docId
  · rw [hid, Function.update_self]
    apply readyDocuments_eq_none
    intro doc hget
    rw [deleteDocument_get, if_pos rfl] at hget
    obtain ⟨old, -, rfl⟩ := Option.map_eq_some_iff.mp hget
    simp [KnowledgeDocument.readyIn]
  · rw [Function.update_of_ne hid]
    have hdocument : (db.deleteDocument docId).documents.get id = db.documents.get id := by
      rw [deleteDocument_get, if_neg hid]
    exact readyDocuments_congr hdocument (deleteDocument_listByDocument db hid) kbId

/-! ## The pipeline -/

/-- A step of the pipeline raises. -/
def Faulty (codec : Codec) (faults : Faults) (contentType : String) (fileBytes : List UInt8) :
    Prop :=
  faults .process ≠ none ∨ faults .metadata ≠ none ∨ faults .chunking ≠ none ∨
    ∃ idx < (chunkText (processDocument codec fileBytes contentType).1).length,
      faults (.chunk idx) ≠ none ∨ faults (.refresh idx) ≠ none

section Pipeline

variable {codec : Codec} {faults : Faults} {filename contentType : String}
  {fileBytes : List UInt8} {kbId id : Nat}

theorem reach_of_none {point : IngestPoint} (h : faults point = none) :
    (reach faults point : Pipeline Unit) = pure () := by
  unfold reach
  rw [h]

theorem reach_of_ne {point : IngestPoint} (h : faults point ≠ none) (s : IngestState) :
    ∃ exc, (reach faults point).run s = .error exc s := by
  obtain ⟨exc, hexc⟩ := Option.ne_none_iff_exists'.mp h
  unfold reach
  rw [hexc]
  exact ⟨exc, rfl⟩

theorem createChunk_ok (filename : String) (info : ChunkInfo) {idx : Nat} {s : IngestState}
    (hid : (s.db.documents.get id).isSome = true) (hchunk : faults (.chunk idx) = none)
    (hrefresh : faults (.refresh idx) = none) :
    ∃ db, (createChunk faults filename id info idx).run s = .ok () { s with db } ∧
      (db.documents.get id).isSome = true ∧ db.chunks.next = s.db.chunks.next + 1 ∧
      db.listByDocument id =
        s.db.listByDocument id ++ [(s.db.chunks.next, chunkRow filename id info idx)] := by
  have hexists : ((s.db.updateDocument id fun _ => s.doc).documents.get id).isSome = true :=
    (updateDocument_isSome _ _ _ _).trans hid
  obtain ⟨db, hinsert⟩ : ∃ db, (s.db.updateDocument id fun _ => s.doc).insertChunk
      (chunkRow filename id info idx) = some db := ⟨_, dif_pos hexists⟩
  obtain ⟨hdocuments, hchunks⟩ := insertChunk_eq_some hinsert
  have hcommit := run_commitChunk filename id info idx s
  rw [hinsert] at hcommit
  refine ⟨db, ?_, by rw [hdocuments, hexists], by rw [hchunks]; rfl, ?_⟩
  · unfold createChunk
    rw [reach_of_none hchunk, reach_of_none hrefresh, pure_bind, Proc.run_bind_of_ok hcommit]
    rfl
  · unfold KnowledgeDb.listByDocument
    rw [hchunks, Table.select_insert]
    simp [chunkRow, KnowledgeDb.updateDocument]

theorem createChunk_error (filename : String) (id : Nat) (info : ChunkInfo) {idx : Nat}
    (h : faults (.chunk idx) ≠ none ∨ faults (.refresh idx) ≠ none) (s : IngestState) :
    ∃ exc t, (createChunk faults filename id info idx).run s = .error exc t := by
  unfold createChunk
  by_cases hchunk : faults (.chunk idx) = none
  · have hrefresh : faults (.refresh idx) ≠ none := h.resolve_left (not_not.mpr hchunk)
    rw [reach_of_none hchunk, pure_bind]
    cases hcommit : (commitChunk filename id info idx).run s with
    | error exc t => exact ⟨exc, t, Proc.run_bind_of_error hcommit⟩
    | ok a t =>
        obtain ⟨exc, hexc⟩ := reach_of_ne hrefresh t
        exact ⟨exc, t, (Proc.run_bind_of_ok hcommit).trans hexc⟩
  · obtain ⟨exc, hexc⟩ := reach_of_ne hchunk s
    exact ⟨exc, s, Proc.run_bind_of_error hexc⟩

/-- The rows of all chunks, under consecutive ids from `first`. -/
def chunkRows (filename : String) (id first : Nat) (infos : List ChunkInfo) (k : Nat) :
    List (Nat × KnowledgeChunk) :=
  (infos.zipIdx k).map fun (info, idx) => (first + idx, chunkRow filename id info idx)

theorem createChunks_ok {first : Nat} {infos : List ChunkInfo} {k : Nat} {s : IngestState}
    (hid : (s.db.documents.get id).isSome = true) (hfirst : s.db.chunks.next = first + k)
    (hnone : ∀ idx, k ≤ idx → idx < k + infos.length →
      faults (.chunk idx) = none ∧ faults (.refresh idx) = none) :
    ∃ db, (createChunks faults filename id (infos.zipIdx k)).run s = .ok () { s with db } ∧
      db.listByDocument id =
        s.db.listByDocument id ++ chunkRows filename id first infos k := by
  induction infos generalizing k s with
  | nil => exact ⟨s.db, rfl, (List.append_nil _).symm⟩
  | cons info infos ih =>
      obtain ⟨hchunk, hrefresh⟩ := hnone k (le_refl k) (by simp)
      obtain ⟨db, hrun, hid', hchunks, hlisted⟩ :=
        createChunk_ok filename info hid hchunk hrefresh
      obtain ⟨db', hrest, hlisted'⟩ := ih (k := k + 1) (s := { s with db })
        hid' (hchunks.trans (by omega)) (by
          intro idx hle hlt
          exact hnone idx (by omega) (by rw [List.length_cons]; omega))
      refine ⟨db', (Proc.run_bind_of_ok hrun).trans hrest, ?_⟩
      rw [hlisted', hlisted, hfirst, List.append_assoc]
      rfl

theorem createChunks_error {infos : List ChunkInfo} {k : Nat}
    (h : ∃ idx, k ≤ idx ∧ idx < k + infos.length ∧
      (faults (.chunk idx) ≠ none ∨ faults (.refresh idx) ≠ none)) (s : IngestState) :
    ∃ exc t, (createChunks faults filename id (infos.zipIdx k)).run s = .error exc t := by
  induction infos generalizing k s with
  | nil =>
      obtain ⟨idx, hle, hlt, -⟩ := h
      exact absurd hlt (by simp only [List.length_nil]; omega)
  | cons info infos ih =>
      show ∃ exc t, (createChunk faults filename id info k >>= fun _ =>
        createChunks faults filename id (infos.zipIdx (k + 1))).run s = .error exc t
      cases hrun : (createChunk faults filename id info k).run s with
      | error exc t => exact ⟨exc, t, Proc.run_bind_of_error hrun⟩
      | ok a t =>
          obtain ⟨idx, hle, hlt, hfault⟩ := h
          have hne : idx ≠ k := by
            intro heq
            obtain ⟨exc, t', herror⟩ :=
              createChunk_error filename id info (heq ▸ hfault) s
            rw [hrun] at herror
            cases herror
          rw [List.length_cons] at hlt
          obtain ⟨exc, t', hrest⟩ := ih (k := k + 1) ⟨idx, by omega, by omega, hfault⟩ t
          exact ⟨exc, t', (Proc.run_bind_of_ok hrun).trans hrest⟩

theorem process_of_none (h : faults .process = none) :
    process codec faults contentType fileBytes =
      pure (processDocument codec fileBytes contentType) := by
  unfold process
  rw [h]

/-- Before its chunks are created, a document is CHUNKING and has its metadata. -/
theorem run_ingestChunks (hprocess : faults .process = none) (hmetadata : faults .metadata = none)
    (hchunking : faults .chunking = none) (s : IngestState) :
    let extracted := processDocument codec fileBytes contentType
    let doc := { s.doc with processingStatus := .chunking }
    (ingestChunks codec faults filename contentType fileBytes id).run s =
      (createChunks faults filename id (chunkText extracted.1).zipIdx).run {
        db := (s.db.updateDocument id fun _ =>
          { s.doc with processingStatus := .processing }).updateDocument id fun _ => doc
        doc := { doc with
          metadata := some (extractMetadata filename extracted.1 extracted.2) } } := by
  unfold ingestChunks
  rw [process_of_none hprocess, reach_of_none hmetadata, reach_of_none hchunking,
    Proc.run_bind_of_ok (run_setStatus id .processing s), pure_bind]
  dsimp only
  rw [Proc.run_bind_of_ok (run_setStatus id .chunking _), pure_bind,
    Proc.run_bind_of_ok (run_setMetadata _ _), pure_bind]

theorem ingestChunks_ok (filename : String) {s : IngestState}
    (hid : (s.db.documents.get id).isSome = true)
    (h : ¬ Faulty codec faults contentType fileBytes) :
    let extracted := processDocument codec fileBytes contentType
    ∃ db, (ingestChunks codec faults filename contentType fileBytes id).run s = .ok () {
        db
        doc := { s.doc with
          processingStatus := .chunking
          metadata := some (extractMetadata filename extracted.1 extracted.2) } } ∧
      db.listByDocument id = s.db.listByDocument id ++
        chunkRows filename id s.db.chunks.next (chunkText extracted.1) 0 := by
  unfold Faulty at h
  push Not at h
  obtain ⟨hprocess, hmetadata, hchunking, hchunks⟩ := h
  dsimp only
  rw [run_ingestChunks hprocess hmetadata hchunking]
  refine createChunks_ok ?_ rfl ?_
  · rw [updateDocument_isSome, updateDocument_isSome, hid]
  · intro idx _ hlt
    exact hchunks idx (by rwa [Nat.zero_add] at hlt)

theorem ingestChunks_error (filename : String) (id : Nat)
    (h : Faulty codec faults contentType fileBytes) (s : IngestState) :
    ∃ exc t, (ingestChunks codec faults filename contentType fileBytes id).run s =
      .error exc t := by
  by_cases hprocess : faults .process = none
  · by_cases hmetadata : faults .metadata = none
    · by_cases hchunking : faults .chunking = none
      · obtain ⟨idx, hlt, hfault⟩ := ((h.resolve_left (not_not.mpr hprocess)).resolve_left
          (not_not.mpr hmetadata)).resolve_left (not_not.mpr hchunking)
        rw [run_ingestChunks hprocess hmetadata hchunking]
        exact createChunks_error ⟨idx, Nat.zero_le _, by rwa [Nat.zero_add], hfault⟩ _
      · obtain ⟨exc, hexc⟩ := Option.ne_none_iff_exists'.mp hchunking
        unfold ingestChunks reach
        rw [process_of_none hprocess, hmetadata, hexc]
        exact ⟨exc, _, rfl⟩
    · obtain ⟨exc, hexc⟩ := Option.ne_none_iff_exists'.mp hmetadata
      unfold ingestChunks reach
      rw [process_of_none hprocess, hexc]
      exact ⟨exc, _, rfl⟩
  · obtain ⟨exc, hexc⟩ := Option.ne_none_iff_exists'.mp hprocess
    unfold ingestChunks process
    rw [hexc]
    exact ⟨_, _, rfl⟩

/-- The pipeline without a fault. -/
theorem ingestPipeline_ok (filename : String) {s : IngestState}
    (hworking : Working kbId id s) (h : ¬ Faulty codec faults contentType fileBytes) :
    let extracted := processDocument codec fileBytes contentType
    let doc := { s.doc with
      processingStatus := .ready
      metadata := some (extractMetadata filename extracted.1 extracted.2) }
    ∃ t, (ingestPipeline codec faults filename contentType fileBytes id).run s = .ok () t ∧
      Frame id s.db t.db ∧ t.db.documents.get id = some doc ∧
      t.db.listByDocument id = s.db.listByDocument id ++
        chunkRows filename id s.db.chunks.next (chunkText extracted.1) 0 := by
  intro extracted doc
  have hid : (s.db.documents.get id).isSome = true := by
    obtain ⟨row, hrow, -⟩ := hworking.row
    rw [hrow]
    rfl
  obtain ⟨db, hrun, hlisted⟩ := ingestChunks_ok filename hid h
  obtain ⟨u, hpipeline, hframe, hchunks, hrow, -⟩ := ingestPipeline_of_ok hworking hrun
  refine ⟨u, hpipeline, hframe, hrow, ?_⟩
  rw [← hlisted]
  exact congrArg (fun chunks : Table KnowledgeChunk => chunks.select _) hchunks

/-- The pipeline with a fault: its document is not READY. -/
theorem ingestPipeline_error (filename : String) {s : IngestState} (hworking : Working kbId id s)
    (h : Faulty codec faults contentType fileBytes) :
    ∃ exc t, (ingestPipeline codec faults filename contentType fileBytes id).run s =
        .error exc t ∧
      Frame id s.db t.db ∧ ∃ row, t.db.documents.get id = some row ∧ row.InProgress kbId := by
  obtain ⟨exc, t, hrun⟩ := ingestChunks_error filename id h s
  exact ingestPipeline_of_error hworking hrun

end Pipeline

/-! ## The call -/

/-- The READY documents without the duplicate of an upload. -/
def withoutDuplicate (codec : Codec) (upload : Upload) (db : KnowledgeDb) : Shelf :=
  match db.getByChecksumInKb (codec.sha256 upload.fileBytes) upload.kbId with
  | none => db.readyDocuments upload.kbId
  | some (existing, _) => Function.update (db.readyDocuments upload.kbId) existing none

/-- An upload that raises changes no READY document. One that returns takes the duplicate out and
    puts the new document in, with all its chunks in order. -/
def AllOrNothing (codec : Codec) (upload : Upload) (db : KnowledgeDb) :
    EStateM.Result Exn KnowledgeDb Nat → Prop
  | .error _ db' => db'.readyDocuments upload.kbId = db.readyDocuments upload.kbId
  | .ok id db' =>
      let extracted := processDocument codec upload.fileBytes upload.contentType
      let doc := { newDocument codec upload with
        processingStatus := .ready
        metadata := some (extractMetadata upload.filename extracted.1 extracted.2) }
      ∃ first, db'.readyDocuments upload.kbId =
        Function.update (withoutDuplicate codec upload db) id
          (some (doc, chunkRows upload.filename id first (chunkText extracted.1) 0))

/-- The duplicate of an upload is READY. -/
def ReplacesReady (codec : Codec) (upload : Upload) (db : KnowledgeDb) : Prop :=
  ∃ existing doc, db.getByChecksumInKb (codec.sha256 upload.fileBytes) upload.kbId =
    some (existing, doc) ∧ doc.processingStatus = .ready

section Call

variable {codec : Codec} {faults : Faults} {upload : Upload} {db : KnowledgeDb}

theorem withoutDuplicate_eq_iff (codec : Codec) (upload : Upload) (db : KnowledgeDb) :
    withoutDuplicate codec upload db = db.readyDocuments upload.kbId ↔
      ¬ ReplacesReady codec upload db := by
  unfold withoutDuplicate ReplacesReady
  cases hfound : db.getByChecksumInKb (codec.sha256 upload.fileBytes) upload.kbId with
  | none => simp
  | some found =>
      obtain ⟨existing, doc⟩ := found
      obtain ⟨hget, hmatch⟩ := Table.first_eq_some hfound
      simp only [Bool.and_eq_true, beq_iff_eq] at hmatch
      have hlisted : (existing, doc) ∈ db.listByKb upload.kbId :=
        Table.mem_select.mpr ⟨hget, by simp [hmatch]⟩
      dsimp only
      rw [Function.update_eq_self_iff]
      constructor
      · rintro hnone ⟨existing', doc', heq, hready⟩
        obtain ⟨rfl, rfl⟩ := Prod.mk.inj (Option.some.inj heq)
        have hsome := readyDocuments_eq_some.mpr ⟨hlisted, hready, rfl⟩
        rw [← hnone] at hsome
        cases hsome
      · intro hnot
        cases hview : db.readyDocuments upload.kbId existing with
        | none => rfl
        | some entry =>
            obtain ⟨hentry, hready, -⟩ := readyDocuments_eq_some.mp hview
            have hsame := Option.some.inj (hget.symm.trans (Table.mem_select.mp hentry).1)
            exact absurd ⟨existing, doc, rfl, hsame ▸ hready⟩ hnot

/-- The database after the duplicate check of a replacing upload. -/
def resolved (codec : Codec) (upload : Upload) (db : KnowledgeDb) : KnowledgeDb :=
  match db.getByChecksumInKb (codec.sha256 upload.fileBytes) upload.kbId with
  | none => db
  | some (existing, _) => db.deleteDocument existing

theorem run_resolveDuplicate_replace (hpolicy : upload.duplicatePolicy = "replace") :
    (resolveDuplicate codec upload).run db = .ok () (resolved codec upload db) := by
  rw [run_resolveDuplicate]
  unfold resolved
  cases db.getByChecksumInKb (codec.sha256 upload.fileBytes) upload.kbId with
  | none => rfl
  | some found =>
      dsimp only
      rw [hpolicy, if_neg (by decide), if_pos rfl]

theorem readyDocuments_resolved :
    (resolved codec upload db).readyDocuments upload.kbId =
      withoutDuplicate codec upload db := by
  unfold resolved withoutDuplicate
  cases db.getByChecksumInKb (codec.sha256 upload.fileBytes) upload.kbId with
  | none => rfl
  | some found => exact readyDocuments_deleteDocument db found.1 upload.kbId

/-- A document that is not READY yet shows nowhere. -/
theorem readyDocuments_insertDocument (db : KnowledgeDb) (doc : KnowledgeDocument)
    (hdoc : doc.processingStatus ≠ .ready) (kbId : Nat) :
    (db.insertDocument doc).readyDocuments kbId = db.readyDocuments kbId := by
  funext id
  have hget : (db.insertDocument doc).documents.get id =
      if id = db.documents.next then some doc else db.documents.get id :=
    Table.get_insert db.documents doc id
  by_cases hid : id = db.documents.next
  · have hnew : (db.insertDocument doc).readyDocuments kbId id = none := by
      apply readyDocuments_eq_none
      intro row hrow
      rw [hget, if_pos hid] at hrow
      rw [← Option.some.inj hrow]
      simp [KnowledgeDocument.readyIn, hdoc]
    have hold : db.readyDocuments kbId id = none := by
      apply readyDocuments_eq_none
      intro row hrow
      rw [hid, Table.get_next] at hrow
      cases hrow
    rw [hnew, hold]
  · exact readyDocuments_congr (hget.trans (if_neg hid)) rfl kbId

/-- What the work on one document leaves of the READY documents. -/
theorem readyDocuments_of_frame {id : Nat} {db' : KnowledgeDb} (h : Frame id db db')
    (kbId : Nat) :
    db'.readyDocuments kbId =
      Function.update (db.readyDocuments kbId) id (db'.readyDocuments kbId id) := by
  funext other
  by_cases hother : other = id
  · rw [hother, Function.update_self]
  · rw [Function.update_of_ne hother]
    exact readyDocuments_congr (h.document other hother) (h.listed other hother) kbId

theorem listByDocument_next (db : KnowledgeDb) (doc : KnowledgeDocument) :
    (db.insertDocument doc).listByDocument db.documents.next = [] := by
  rw [List.eq_nil_iff_forall_not_mem]
  intro row hrow
  obtain ⟨hget, hmatch⟩ := Table.mem_select.mp hrow
  simp only [Bool.and_eq_true, beq_iff_eq] at hmatch
  obtain ⟨doc', hdoc⟩ := Option.isSome_iff_exists.mp (db.document_exists row.1 row.2 hget)
  have hlt := Table.get_lt hdoc
  omega

/-- **A replacing upload** is all or nothing exactly when it does not raise after it has deleted a
    READY duplicate. -/
theorem allOrNothing_iff (codec : Codec) (faults : Faults) (upload : Upload) (db : KnowledgeDb) :
    let upload := { upload with duplicatePolicy := "replace" }
    AllOrNothing codec upload db ((ingestDocument codec faults upload).run db) ↔
      ¬ (validateFile upload.filename upload.contentType upload.fileBytes.length = .ok () ∧
        ReplacesReady codec upload db ∧
        Faulty codec faults upload.contentType upload.fileBytes) := by
  intro upload
  cases hvalid : validateFile upload.filename upload.contentType upload.fileBytes.length with
  | error exc =>
      have hrun : (ingestDocument codec faults upload).run db = .error exc db := by
        unfold ingestDocument
        rw [hvalid]
        rfl
      rw [hrun]
      exact iff_of_true rfl fun h => nomatch h.1
  | ok _ =>
      have hrun : (ingestDocument codec faults upload).run db =
          (storeDocument codec faults upload).run (resolved codec upload db) := by
        unfold ingestDocument
        rw [hvalid]
        exact Proc.run_bind_of_ok (run_resolveDuplicate_replace rfl)
      rw [hrun, run_storeDocument]
      generalize hdb : resolved codec upload db = db₁
      have hview := readyDocuments_insertDocument db₁ (newDocument codec upload)
        (by simp [newDocument]) upload.kbId
      rw [← hdb, readyDocuments_resolved, hdb] at hview
      have hworking := working_insertDocument codec upload db₁
      by_cases hfaulty : Faulty codec faults upload.contentType upload.fileBytes
      · obtain ⟨exc, t, hrun, hframe, hrow⟩ :=
          ingestPipeline_error upload.filename hworking hfaulty
        rw [hrun]
        have hafter : t.db.readyDocuments upload.kbId = withoutDuplicate codec upload db := by
          rw [readyDocuments_of_frame hframe upload.kbId, readyDocuments_inProgress hrow,
            ← readyDocuments_inProgress hworking.row, Function.update_eq_self, hview]
        have hiff := withoutDuplicate_eq_iff codec upload db
        show t.db.readyDocuments upload.kbId = db.readyDocuments upload.kbId ↔ _
        rw [hafter, hiff]
        simp [hfaulty]
      · obtain ⟨t, hrun, hframe, hrow, hlisted⟩ :=
          ingestPipeline_ok upload.filename hworking hfaulty
        rw [hrun]
        refine iff_of_true ⟨db₁.chunks.next, ?_⟩ fun h => hfaulty h.2.2
        rw [listByDocument_next, List.nil_append] at hlisted
        rw [readyDocuments_of_frame hframe upload.kbId, hview]
        congr 1
        exact readyDocuments_eq_some.mpr
          ⟨Table.mem_select.mpr ⟨hrow, by simp [newDocument]⟩, rfl, hlisted.symm⟩

end Call

/-! A file of one zero byte: as a PDF it is READY, and as plain text its chunk cannot be stored. -/

def zeroByte : Codec where
  sha256 := fun _ => "6e340b9cffb37a989ca544e6bb780a2c78901d3fb33738768511a30617afa01d"
  decode := fun _ => "\x00"

def zeroUpload (contentType : String) : Upload where
  kbId := 1
  filename := "zero"
  contentType := contentType
  fileBytes := [0]
  userId := 1

def zeroFault : Faults := fun point =>
  if point = .chunk 0 then some (.valueError "A string literal cannot contain NUL characters.")
  else none

/-- The knowledge base with the PDF. -/
def zeroDb : KnowledgeDb :=
  Proc.after (ingestDocument zeroByte (fun _ => none) (zeroUpload "application/pdf")) .empty

theorem not_allOrNothing_zeroByte :
    ¬ ∀ (codec : Codec) (faults : Faults) (upload : Upload) (db : KnowledgeDb),
      let upload := { upload with duplicatePolicy := "replace" }
      AllOrNothing codec upload db ((ingestDocument codec faults upload).run db) := by
  intro hall
  have h := hall zeroByte zeroFault (zeroUpload "text/plain") zeroDb
  have hbefore : (zeroDb.readyDocuments 1 0).isSome = true := by decide
  have hafter : (match (ingestDocument zeroByte zeroFault
      { zeroUpload "text/plain" with duplicatePolicy := "replace" }).run zeroDb with
    | .ok _ _ => true
    | .error _ db => (db.readyDocuments 1 0).isSome) = false := by decide
  dsimp only at h
  cases hrun : (ingestDocument zeroByte zeroFault
      { zeroUpload "text/plain" with duplicatePolicy := "replace" }).run zeroDb with
  | ok id db =>
      rw [hrun] at hafter
      cases hafter
  | error exc db =>
      rw [hrun] at h hafter
      have hview : db.readyDocuments 1 = zeroDb.readyDocuments 1 := h
      have hlost : (db.readyDocuments 1 0).isSome = false := hafter
      rw [hview, hbefore] at hlost
      cases hlost

end AgentCorp.Knowledge
