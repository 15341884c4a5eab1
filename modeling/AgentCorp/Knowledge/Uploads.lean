/-
  Uploads of the same file, over histories of uploads and deletions.

  The duplicate check looks for a document that is not deleted, whatever its status is. A document
  that is FAILED, or was left unfinished, keeps its file out as a READY one does.

  * `storeDocument_spec`: what an upload that passes the checks leaves.
  * `history_afterCalls`: one document that is not deleted for each checksum, in every history.
  * `uploads_iff`: the histories in which a failed upload can be tried again.
-/
import AgentCorp.Knowledge.Replacement

namespace AgentCorp.Knowledge

open AgentCorp.Python

/-! ## Histories -/

/-- The calls on the knowledge bases. A call may raise at any of its points. -/
inductive Call where
  | ingest (faults : Faults) (upload : Upload)
  | delete (docId : Nat)

def Call.perform (codec : Codec) (db : KnowledgeDb) : Call → KnowledgeDb
  | .ingest faults upload => Proc.after (ingestDocument codec faults upload) db
  | .delete docId => db.deleteDocument docId

/-- The database after these calls. -/
def afterCalls (codec : Codec) (calls : List Call) : KnowledgeDb :=
  calls.foldl (Call.perform codec) .empty

/-- The call is a deletion, or an upload with one of these policies. -/
def Call.Admits : Call → Prop
  | .ingest _ upload => upload.duplicatePolicy = "reject" ∨ upload.duplicatePolicy = "replace"
  | .delete _ => True

/-- The document `id` is that of this upload, which returned. -/
def Finished (codec : Codec) (calls : List Call) (upload : Upload) (id : Nat) : Prop :=
  ∃ before faults after, calls = before ++ .ingest faults upload :: after ∧
    Proc.outcome (ingestDocument codec faults upload) (afterCalls codec before) = .ok id

def duplicateDocument : Exn :=
  .other "DuplicateDocumentError"
    "A document with the same content already exists in this knowledge base."

/-- The duplicate check turns the upload away. -/
def Rejected (codec : Codec) (upload : Upload) (db : KnowledgeDb) : Prop :=
  validateFile upload.filename upload.contentType upload.fileBytes.length = .ok () ∧
    Proc.outcome (resolveDuplicate codec upload) db = .error duplicateDocument

/-- An upload that is rejected has a predecessor: an upload of the same bytes that finished, and
    is not deleted. -/
def RejectionsJustified (codec : Codec) (calls : List Call) : Prop :=
  ∀ before faults upload after, calls = before ++ .ingest faults upload :: after →
    Rejected codec upload (afterCalls codec before) →
      ∃ earlier id doc, Finished codec before earlier id ∧ earlier.kbId = upload.kbId ∧
        earlier.fileBytes = upload.fileBytes ∧
        (afterCalls codec before).documents.get id = some doc ∧ doc.isDeleted = false

/-- At most one READY document for each checksum. -/
def OneReady (db : KnowledgeDb) : Prop :=
  ∀ kbId id id' doc doc', db.documents.get id = some doc → db.documents.get id' = some doc' →
    doc.readyIn kbId = true → doc'.readyIn kbId = true → doc.checksum = doc'.checksum → id = id'

/-- What an upload with the policy `reject` finds, if anything, is READY. -/
def Unblocked (codec : Codec) (upload : Upload) (db : KnowledgeDb) : Prop :=
  upload.duplicatePolicy = "reject" →
    validateFile upload.filename upload.contentType upload.fileBytes.length = .ok () →
      ∀ id doc, db.getByChecksumInKb (codec.sha256 upload.fileBytes) upload.kbId = some (id, doc) →
        doc.processingStatus = .ready

/-- No two uploads of the history have different bytes and one checksum. -/
def NoCollision (codec : Codec) (calls : List Call) : Prop :=
  ∀ faults upload faults' upload', .ingest faults upload ∈ calls →
    .ingest faults' upload' ∈ calls →
      codec.sha256 upload.fileBytes = codec.sha256 upload'.fileBytes →
        upload.fileBytes = upload'.fileBytes

/-! ## The checksum of a document -/

/-- The object of the document and its row have this checksum. -/
structure Checksummed (checksum : String) (id : Nat) (s : IngestState) : Prop where
  doc : s.doc.checksum = checksum
  row : ∀ row, s.db.documents.get id = some row → row.checksum = checksum

def KeepsChecksum (checksum : String) (id : Nat) (s t : IngestState) : Prop :=
  Checksummed checksum id s → Checksummed checksum id t

instance (checksum : String) (id : Nat) : IsPreorder IngestState (KeepsChecksum checksum id) where
  refl := fun _ h => h
  trans := fun _ _ _ hab hbc h => hbc (hab h)

section Checksum

variable {codec : Codec} {faults : Faults} {filename contentType : String}
  {fileBytes : List UInt8} {id : Nat} {checksum : String}

theorem Checksummed.updateDocument {s : IngestState} {doc : KnowledgeDocument}
    (hdoc : doc.checksum = checksum) :
    Checksummed checksum id { s with db := s.db.updateDocument id fun _ => doc, doc } := by
  refine ⟨hdoc, fun row hrow => ?_⟩
  have hget : (s.db.documents.modify id fun _ => doc).get id = some row := hrow
  rw [Table.get_modify, if_pos rfl] at hget
  obtain ⟨old, -, rfl⟩ := Option.map_eq_some_iff.mp hget
  exact hdoc

theorem keepsChecksum_setStatus (status : ProcessingStatus) :
    Proc.Within (KeepsChecksum checksum id) (setStatus id status) :=
  Proc.Within.modify fun _ h => Checksummed.updateDocument h.doc

theorem keepsChecksum_setMetadata (metadata : Dict Json) :
    Proc.Within (KeepsChecksum checksum id) (setMetadata metadata) :=
  Proc.Within.modify fun _ h => ⟨h.doc, h.row⟩

theorem keepsChecksum_commitChunk (info : ChunkInfo) (idx : Nat) :
    Proc.Within (KeepsChecksum checksum id) (commitChunk filename id info idx) := by
  refine within_commitChunk_of fun s db hinsert h => ?_
  have hupdated : Checksummed checksum id
      { s with db := s.db.updateDocument id fun _ => s.doc, doc := s.doc } :=
    Checksummed.updateDocument h.doc
  refine ⟨h.doc, fun row hrow => hupdated.row row ?_⟩
  rw [← hrow]
  exact congrArg (fun documents => Table.get documents id) (insertChunk_eq_some hinsert).1.symm

variable (codec faults filename contentType fileBytes) in
theorem keepsChecksum_ingestPipeline :
    Proc.Within (KeepsChecksum checksum id)
      (ingestPipeline codec faults filename contentType fileBytes id) := by
  have hchunks : Proc.Within (KeepsChecksum checksum id)
      (ingestChunks codec faults filename contentType fileBytes id) :=
    within_ingestChunks_of (fun status _ => keepsChecksum_setStatus status)
      keepsChecksum_setMetadata fun _ info _ idx => keepsChecksum_commitChunk info idx
  unfold ingestPipeline
  refine Proc.Within.tryCatch (hchunks.bind fun _ => keepsChecksum_setStatus _) fun exc => ?_
  exact (within_reach _).bind fun _ => (keepsChecksum_setStatus _).bind fun _ =>
    Proc.Within.throw _

end Checksum

/-! ## One upload -/

/-- What an upload that passes the checks leaves: one new document, READY if the call returned. -/
structure Stored (codec : Codec) (upload : Upload) (db : KnowledgeDb) (outcome : Except Exn Nat)
    (db' : KnowledgeDb) : Prop where
  others : ∀ other, other ≠ db.documents.next →
    db'.documents.get other = db.documents.get other
  row : ∃ row, db'.documents.get db.documents.next = some row ∧
    row.knowledgeBaseId = upload.kbId ∧ row.checksum = codec.sha256 upload.fileBytes ∧
    row.isDeleted = false ∧ (row.processingStatus = .ready ↔ ∃ id, outcome = .ok id)
  result : ∀ id, outcome = .ok id → id = db.documents.next

section Upload

variable (codec : Codec) (faults : Faults) (upload : Upload) (db : KnowledgeDb)

theorem checksummed_insertDocument :
    Checksummed (codec.sha256 upload.fileBytes) db.documents.next
      { db := db.insertDocument (newDocument codec upload), doc := newDocument codec upload } where
  doc := rfl
  row := by
    intro row hrow
    have hget : (db.documents.insert (newDocument codec upload)).get db.documents.next =
        some row := hrow
    rw [Table.get_insert, if_pos rfl] at hget
    rw [← Option.some.inj hget]
    rfl

theorem storeDocument_spec :
    Stored codec upload db (Proc.outcome (storeDocument codec faults upload) db)
      (Proc.after (storeDocument codec faults upload) db) := by
  have hworking := working_insertDocument codec upload db
  have hstore := run_storeDocument codec faults upload db
  have hchecksum := keepsChecksum_ingestPipeline codec faults upload.filename upload.contentType
    upload.fileBytes _ (checksummed_insertDocument codec upload db)
  have hothers : ∀ db', Frame db.documents.next (db.insertDocument (newDocument codec upload)) db' →
      ∀ other, other ≠ db.documents.next →
        db'.documents.get other = db.documents.get other := by
    intro db' hframe other hne
    rw [hframe.document other hne]
    show (db.documents.insert _).get other = _
    rw [Table.get_insert, if_neg hne]
  cases hrun : (ingestChunks codec faults upload.filename upload.contentType upload.fileBytes
      db.documents.next).run {
        db := db.insertDocument (newDocument codec upload)
        doc := newDocument codec upload } with
  | ok _ t =>
      obtain ⟨u, hpipeline, hframe, -, hrow, hprogress⟩ := ingestPipeline_of_ok hworking hrun
      rw [hpipeline] at hstore
      rw [Proc.after_of_ok hpipeline] at hchecksum
      rw [Proc.after_of_ok hstore, Proc.outcome_of_ok hstore]
      refine ⟨hothers u.db hframe, ⟨_, hrow, hprogress.knowledgeBaseId, hchecksum.row _ hrow,
        hprogress.live, iff_of_true rfl ⟨_, rfl⟩⟩, fun id hid => (Except.ok.inj hid).symm⟩
  | error exc t =>
      obtain ⟨exc', u, hpipeline, hframe, row, hrow, hprogress⟩ :=
        ingestPipeline_of_error hworking hrun
      rw [hpipeline] at hstore
      rw [Proc.after_of_error hpipeline] at hchecksum
      rw [Proc.after_of_error hstore, Proc.outcome_of_error hstore]
      refine ⟨hothers u.db hframe, ⟨row, hrow, hprogress.knowledgeBaseId, hchecksum.row row hrow,
        hprogress.live, iff_of_false hprogress.status nofun⟩, nofun⟩

/-- The checks turn an upload away and change nothing, or it is stored. -/
theorem run_ingestDocument :
    (∃ exc, (ingestDocument codec faults upload).run db = .error exc db) ∨
      ∃ db₀, (resolveDuplicate codec upload).run db = .ok () db₀ ∧
        (ingestDocument codec faults upload).run db =
          (storeDocument codec faults upload).run db₀ := by
  have hresolve := run_resolveDuplicate codec upload db
  unfold ingestDocument
  cases validateFile upload.filename upload.contentType upload.fileBytes.length with
  | error exc => exact .inl ⟨exc, rfl⟩
  | ok _ =>
      show (∃ exc, (resolveDuplicate codec upload >>= fun _ =>
        storeDocument codec faults upload).run db = .error exc db) ∨ _
      cases hrun : (resolveDuplicate codec upload).run db with
      | ok _ db₀ => exact .inr ⟨db₀, rfl, Proc.run_bind_of_ok hrun⟩
      | error exc db₀ =>
          have hsame : db₀ = db := by
            rw [hrun] at hresolve
            split at hresolve
            · cases hresolve
            · split at hresolve
              · exact (EStateM.Result.error.inj hresolve).2
              · split at hresolve <;> cases hresolve
          rw [hsame] at hrun
          exact .inl ⟨exc, Proc.run_bind_of_error hrun⟩

end Upload

/-! ## Deletions -/

/-- Some documents were deleted, and nothing else was done to documents. -/
def Deletes (db db' : KnowledgeDb) : Prop :=
  ∀ id, ∃ gone : Bool, db'.documents.get id =
    (db.documents.get id).map fun doc => { doc with isDeleted := doc.isDeleted || gone }

theorem Deletes.refl (db : KnowledgeDb) : Deletes db db := by
  intro id
  refine ⟨false, ?_⟩
  simp only [Bool.or_false, Option.map_id']

theorem deletes_deleteDocument (db : KnowledgeDb) (docId : Nat) :
    Deletes db (db.deleteDocument docId) := by
  intro id
  refine ⟨decide (id = docId), ?_⟩
  rw [deleteDocument_get]
  by_cases hid : id = docId
  · simp [hid]
  · simp [hid]

section Deletes

variable {db db' : KnowledgeDb} {id : Nat} {doc doc' : KnowledgeDocument}

theorem Deletes.of_get (h : Deletes db db') (hdoc : db.documents.get id = some doc) :
    ∃ gone : Bool, db'.documents.get id =
      some { doc with isDeleted := doc.isDeleted || gone } := by
  obtain ⟨gone, hget⟩ := h id
  rw [hdoc] at hget
  exact ⟨gone, hget⟩

theorem Deletes.get (h : Deletes db db') (hdoc : db'.documents.get id = some doc') :
    ∃ (doc : KnowledgeDocument) (gone : Bool), db.documents.get id = some doc ∧
      doc' = { doc with isDeleted := doc.isDeleted || gone } := by
  obtain ⟨gone, hget⟩ := h id
  rw [hdoc] at hget
  obtain ⟨doc, hold, heq⟩ := Option.map_eq_some_iff.mp hget.symm
  exact ⟨doc, gone, hold, heq.symm⟩

end Deletes

/-! ## Active documents -/

/-- At most one document that is not deleted for each checksum. -/
def OneActive (db : KnowledgeDb) : Prop :=
  ∀ id id' doc doc', db.documents.get id = some doc → db.documents.get id' = some doc' →
    doc.isDeleted = false → doc'.isDeleted = false →
      doc.knowledgeBaseId = doc'.knowledgeBaseId → doc.checksum = doc'.checksum → id = id'

/-- The knowledge base has no such document with this checksum. -/
def Free (db : KnowledgeDb) (kbId : Nat) (checksum : String) : Prop :=
  ∀ id doc, db.documents.get id = some doc → doc.isDeleted = false →
    doc.knowledgeBaseId = kbId → doc.checksum ≠ checksum

section Active

variable {codec : Codec} {upload : Upload} {db db' : KnowledgeDb}

theorem getByChecksumInKb_some {checksum : String} {kbId id : Nat} {doc : KnowledgeDocument}
    (h : db.getByChecksumInKb checksum kbId = some (id, doc)) :
    db.documents.get id = some doc ∧ doc.knowledgeBaseId = kbId ∧ doc.checksum = checksum ∧
      doc.isDeleted = false := by
  obtain ⟨hget, hmatch⟩ := Table.first_eq_some h
  simp only [Bool.and_eq_true, beq_iff_eq, Bool.not_eq_true'] at hmatch
  exact ⟨hget, hmatch.1.1, hmatch.1.2, hmatch.2⟩

theorem free_of_none {checksum : String} {kbId : Nat}
    (h : db.getByChecksumInKb checksum kbId = none) : Free db kbId checksum := by
  intro id doc hdoc hlive hkb hchecksum
  have hmem : (id, doc) ∈ db.documents.select fun doc =>
      doc.knowledgeBaseId == kbId && doc.checksum == checksum && !doc.isDeleted :=
    Table.mem_select.mpr ⟨hdoc, by simp [hlive, hkb, hchecksum]⟩
  rw [List.head?_eq_none_iff.mp h] at hmem
  cases hmem

theorem OneActive.deletes (h : OneActive db) (hdel : Deletes db db') : OneActive db' := by
  intro id id' doc doc' hdoc hdoc' hlive hlive' hkb hchecksum
  obtain ⟨old, gone, hold, rfl⟩ := hdel.get hdoc
  obtain ⟨old', gone', hold', rfl⟩ := hdel.get hdoc'
  exact h id id' old old' hold hold' (Bool.or_eq_false_iff.mp hlive).1
    (Bool.or_eq_false_iff.mp hlive').1 hkb hchecksum

/-- An upload that gets past the duplicate check finds its checksum free. -/
theorem free_of_resolve (hactive : OneActive db)
    (hpolicy : upload.duplicatePolicy = "reject" ∨ upload.duplicatePolicy = "replace")
    (h : (resolveDuplicate codec upload).run db = .ok () db') :
    Deletes db db' ∧ Free db' upload.kbId (codec.sha256 upload.fileBytes) := by
  rw [run_resolveDuplicate] at h
  split at h
  · next hnone =>
      obtain ⟨-, rfl⟩ := EStateM.Result.ok.inj h
      exact ⟨.refl db, free_of_none hnone⟩
  · next existing found hfound =>
      have hreject : upload.duplicatePolicy ≠ "reject" := by
        intro heq
        rw [if_pos heq] at h
        cases h
      rw [if_neg hreject, if_pos (hpolicy.resolve_left hreject)] at h
      obtain ⟨-, rfl⟩ := EStateM.Result.ok.inj h
      have hdel := deletes_deleteDocument db existing
      refine ⟨hdel, fun id doc hdoc hlive hkb hchecksum => ?_⟩
      obtain ⟨hget, hkb', hchecksum', hlive'⟩ := getByChecksumInKb_some hfound
      obtain ⟨old, gone, hold, rfl⟩ := hdel.get hdoc
      have hid : id = existing := hactive id existing old found hold hget
        (Bool.or_eq_false_iff.mp hlive).1 hlive' (hkb.trans hkb'.symm)
        (hchecksum.trans hchecksum'.symm)
      -- but that one has just been deleted
      rw [deleteDocument_get, if_pos hid, hold] at hdoc
      rw [← Option.some.inj hdoc] at hlive
      cases hlive

theorem OneActive.stored {outcome : Except Exn Nat} (h : OneActive db)
    (hfree : Free db upload.kbId (codec.sha256 upload.fileBytes))
    (hstored : Stored codec upload db outcome db') : OneActive db' := by
  obtain ⟨row, hrow, hkb, hchecksum, -, -⟩ := hstored.row
  -- the new document is the only one that could share its checksum
  have hnew : ∀ id doc, id ≠ db.documents.next → db'.documents.get id = some doc →
      doc.isDeleted = false → doc.knowledgeBaseId = upload.kbId →
        doc.checksum ≠ codec.sha256 upload.fileBytes := by
    intro id doc hne hdoc
    rw [hstored.others id hne] at hdoc
    exact hfree id doc hdoc
  intro id id' doc doc' hdoc hdoc' hlive hlive' hkbs hchecksums
  by_cases hid : id = db.documents.next
  · by_cases hid' : id' = db.documents.next
    · rw [hid, hid']
    · rw [hid, hrow] at hdoc
      obtain rfl := Option.some.inj hdoc
      exact absurd (hchecksums.symm.trans hchecksum)
        (hnew id' doc' hid' hdoc' hlive' (hkbs.symm.trans hkb))
  · by_cases hid' : id' = db.documents.next
    · rw [hid', hrow] at hdoc'
      obtain rfl := Option.some.inj hdoc'
      exact absurd (hchecksums.trans hchecksum) (hnew id doc hid hdoc hlive (hkbs.trans hkb))
    · rw [hstored.others id hid] at hdoc
      rw [hstored.others id' hid'] at hdoc'
      exact h id id' doc doc' hdoc hdoc' hlive hlive' hkbs hchecksums

end Active

/-! ## Histories of uploads and deletions -/

/-- What a history leaves: the READY documents are those of the uploads that finished. -/
structure History (codec : Codec) (calls : List Call) (db : KnowledgeDb) : Prop where
  active : OneActive db
  ready : ∀ id doc, db.documents.get id = some doc → doc.processingStatus = .ready →
    ∃ upload, Finished codec calls upload id ∧ doc.knowledgeBaseId = upload.kbId ∧
      doc.checksum = codec.sha256 upload.fileBytes
  finished : ∀ upload id, Finished codec calls upload id →
    ∃ doc, db.documents.get id = some doc ∧ doc.processingStatus = .ready ∧
      doc.knowledgeBaseId = upload.kbId ∧ doc.checksum = codec.sha256 upload.fileBytes

section Histories

variable {codec : Codec} {calls : List Call} {call : Call} {db db' : KnowledgeDb}
  {upload : Upload} {id : Nat}

theorem afterCalls_concat :
    afterCalls codec (calls ++ [call]) = call.perform codec (afterCalls codec calls) := by
  unfold afterCalls
  rw [List.foldl_concat]

theorem not_finished_nil : ¬ Finished codec [] upload id := by
  intro ⟨before, faults, after, heq, _⟩
  exact absurd heq.symm (List.append_ne_nil_of_right_ne_nil _ (List.cons_ne_nil _ _))

theorem finished_concat_iff :
    Finished codec (calls ++ [call]) upload id ↔
      Finished codec calls upload id ∨ ∃ faults, call = .ingest faults upload ∧
        Proc.outcome (ingestDocument codec faults upload) (afterCalls codec calls) = .ok id := by
  constructor
  · intro ⟨before, faults, after, heq, hok⟩
    rcases List.eq_nil_or_concat after with rfl | ⟨rest, last, rfl⟩
    · obtain ⟨rfl, hcall⟩ := List.append_inj' heq rfl
      exact .inr ⟨faults, (List.cons.inj hcall).1, hok⟩
    · rw [List.concat_eq_append, ← List.cons_append, ← List.append_assoc] at heq
      exact .inl ⟨before, faults, rest, (List.append_inj' heq rfl).1, hok⟩
  · rintro (⟨before, faults, after, rfl, hok⟩ | ⟨faults, rfl, hok⟩)
    · exact ⟨before, faults, after ++ [call], by simp, hok⟩
    · exact ⟨calls, faults, [], rfl, hok⟩

theorem Finished.mem (h : Finished codec calls upload id) :
    ∃ faults, Call.ingest faults upload ∈ calls := by
  obtain ⟨before, faults, after, rfl, -⟩ := h
  exact ⟨faults, List.mem_append_right _ List.mem_cons_self⟩

/-- A call that finishes no upload leaves the history as it was. -/
theorem History.congr {calls' : List Call} (h : History codec calls db)
    (hfinished : ∀ upload id, Finished codec calls' upload id ↔ Finished codec calls upload id) :
    History codec calls' db where
  active := h.active
  ready := by
    intro id doc hdoc hready
    obtain ⟨upload, hupload, hsame⟩ := h.ready id doc hdoc hready
    exact ⟨upload, (hfinished upload id).mpr hupload, hsame⟩
  finished := fun upload id hupload => h.finished upload id ((hfinished upload id).mp hupload)

theorem History.deletes (h : History codec calls db) (hdel : Deletes db db') :
    History codec calls db' where
  active := h.active.deletes hdel
  ready := by
    intro id doc hdoc hready
    obtain ⟨old, gone, hold, rfl⟩ := hdel.get hdoc
    exact h.ready id old hold hready
  finished := by
    intro upload id hfinished
    obtain ⟨doc, hdoc, hsame⟩ := h.finished upload id hfinished
    obtain ⟨gone, hget⟩ := hdel.of_get hdoc
    exact ⟨_, hget, hsame⟩

/-- An upload that is stored becomes the last of the history. -/
theorem History.stored {faults : Faults} {outcome : Except Exn Nat} (h : History codec calls db)
    (hfree : Free db upload.kbId (codec.sha256 upload.fileBytes))
    (hstored : Stored codec upload db outcome db')
    (houtcome : Proc.outcome (ingestDocument codec faults upload) (afterCalls codec calls) =
      outcome) : History codec (calls ++ [.ingest faults upload]) db' := by
  obtain ⟨row, hrow, hkb, hchecksum, -, hready⟩ := hstored.row
  refine ⟨h.active.stored hfree hstored, fun id doc hdoc hdocReady => ?_,
    fun earlier id hfinished => ?_⟩
  · by_cases hid : id = db.documents.next
    · rw [hid, hrow] at hdoc
      obtain rfl := Option.some.inj hdoc
      obtain ⟨new, hnew⟩ := hready.mp hdocReady
      rw [hid]
      refine ⟨upload, finished_concat_iff.mpr (.inr ⟨faults, rfl, ?_⟩), hkb, hchecksum⟩
      rw [houtcome, hnew, hstored.result new hnew]
    · rw [hstored.others id hid] at hdoc
      obtain ⟨earlier, hfinished, hsame⟩ := h.ready id doc hdoc hdocReady
      exact ⟨earlier, finished_concat_iff.mpr (.inl hfinished), hsame⟩
  · rcases finished_concat_iff.mp hfinished with hold | ⟨faults', hcall, hok⟩
    · obtain ⟨doc, hdoc, hsame⟩ := h.finished earlier id hold
      have hlt := Table.get_lt hdoc
      exact ⟨doc, by rw [hstored.others id (Nat.ne_of_lt hlt), hdoc], hsame⟩
    · obtain ⟨rfl, rfl⟩ := Call.ingest.inj hcall
      rw [houtcome] at hok
      rw [hstored.result id hok]
      exact ⟨row, hrow, hready.mpr ⟨id, hok⟩, hkb, hchecksum⟩

/-- **Every history** of deletions and of uploads that reject or replace. -/
theorem history_afterCalls (hpolicy : ∀ call ∈ calls, call.Admits) :
    History codec calls (afterCalls codec calls) := by
  induction calls using List.reverseRecOn with
  | nil =>
      have hnone : ∀ id doc, (afterCalls codec []).documents.get id ≠ some doc := by
        intro id doc hdoc
        exact nomatch (show (none : Option KnowledgeDocument) = some doc from hdoc)
      exact ⟨fun id _ doc _ hdoc => absurd hdoc (hnone id doc),
        fun id doc hdoc => absurd hdoc (hnone id doc),
        fun _ _ hfinished => absurd hfinished not_finished_nil⟩
  | append_singleton calls call ih =>
      have h := ih fun call hcall => hpolicy call (List.mem_append_left _ hcall)
      have hadmits := hpolicy call (List.mem_append_right _ (List.mem_singleton_self call))
      rw [afterCalls_concat]
      cases call with
      | delete docId =>
          refine (h.deletes (deletes_deleteDocument _ docId)).congr fun upload id => ?_
          rw [finished_concat_iff]
          exact or_iff_left fun ⟨_, hcall, _⟩ => nomatch hcall
      | ingest faults upload =>
          show History codec _ (Proc.after (ingestDocument codec faults upload) _)
          rcases run_ingestDocument codec faults upload (afterCalls codec calls) with
            ⟨exc, hrun⟩ | ⟨db₀, hresolve, hrun⟩
          · rw [Proc.after_of_error hrun]
            refine h.congr fun earlier id => ?_
            rw [finished_concat_iff]
            refine or_iff_left fun ⟨faults', hcall, hok⟩ => ?_
            obtain ⟨rfl, rfl⟩ := Call.ingest.inj hcall
            rw [Proc.outcome_of_error hrun] at hok
            cases hok
          · obtain ⟨hdel, hfree⟩ := free_of_resolve h.active hadmits hresolve
            rw [Proc.after_congr hrun]
            exact (h.deletes hdel).stored hfree (storeDocument_spec codec faults upload db₀)
              (Proc.outcome_congr hrun)

end Histories

/-! ## Retrying an upload -/

theorem rejected_iff {codec : Codec} {upload : Upload} {db : KnowledgeDb} :
    Rejected codec upload db ↔
      validateFile upload.filename upload.contentType upload.fileBytes.length = .ok () ∧
        upload.duplicatePolicy = "reject" ∧
        ∃ id doc, db.getByChecksumInKb (codec.sha256 upload.fileBytes) upload.kbId =
          some (id, doc) := by
  unfold Rejected
  refine and_congr Iff.rfl ?_
  have hrun := run_resolveDuplicate codec upload db
  cases hfound : db.getByChecksumInKb (codec.sha256 upload.fileBytes) upload.kbId with
  | none =>
      rw [hfound] at hrun
      rw [Proc.outcome_of_ok hrun]
      exact iff_of_false nofun fun ⟨_, _, _, hnone⟩ => nomatch hnone
  | some found =>
      rw [hfound] at hrun
      dsimp only at hrun
      by_cases hreject : upload.duplicatePolicy = "reject"
      · rw [if_pos hreject] at hrun
        rw [Proc.outcome_of_error hrun]
        exact iff_of_true rfl ⟨hreject, found.1, found.2, rfl⟩
      · rw [if_neg hreject] at hrun
        refine iff_of_false (fun herror => ?_) fun h => hreject h.1
        split at hrun
        · rw [Proc.outcome_of_ok hrun] at herror
          cases herror
        · rw [Proc.outcome_of_ok hrun] at herror
          cases herror

theorem OneActive.oneReady {db : KnowledgeDb} (h : OneActive db) : OneReady db := by
  intro kbId id id' doc doc' hdoc hdoc' hready hready' hchecksum
  simp only [KnowledgeDocument.readyIn, Bool.and_eq_true, beq_iff_eq, Bool.not_eq_true']
    at hready hready'
  exact h id id' doc doc' hdoc hdoc' hready.1.2 hready'.1.2
    (hready.1.1.trans hready'.1.1.symm) hchecksum

/-- A history keeps one READY document for each checksum. Its rejections are justified if no
    upload finds a document that is not READY. -/
theorem uploads_iff (codec : Codec) (calls : List Call) (hpolicy : ∀ call ∈ calls, call.Admits)
    (hsha : NoCollision codec calls) :
    (RejectionsJustified codec calls ∧
        ∀ before after, calls = before ++ after → OneReady (afterCalls codec before)) ↔
      ∀ before faults upload after, calls = before ++ .ingest faults upload :: after →
        Unblocked codec upload (afterCalls codec before) := by
  have hhistory : ∀ before after, calls = before ++ after →
      History codec before (afterCalls codec before) := by
    intro before after heq
    refine history_afterCalls fun call hcall => hpolicy call ?_
    rw [heq]
    exact List.mem_append_left _ hcall
  constructor
  · intro ⟨hjustified, _⟩ before faults upload after heq hreject hvalid id doc hfound
    have h := hhistory before _ heq
    obtain ⟨earlier, id', doc', hfinished, hkb, hbytes, hdoc', hlive'⟩ :=
      hjustified before faults upload after heq
        (rejected_iff.mpr ⟨hvalid, hreject, id, doc, hfound⟩)
    obtain ⟨row, hrow, hready, hrowKb, hrowChecksum⟩ := h.finished earlier id' hfinished
    obtain rfl := Option.some.inj (hrow.symm.trans hdoc')
    obtain ⟨hdoc, hdocKb, hdocChecksum, hlive⟩ := getByChecksumInKb_some hfound
    -- both have the checksum of the upload, so they are one document
    have hid : id' = id := h.active id' id row doc hrow hdoc hlive' hlive
      (hrowKb.trans (hkb.trans hdocKb.symm))
      (hrowChecksum.trans ((congrArg codec.sha256 hbytes).trans hdocChecksum.symm))
    rw [hid, hdoc] at hrow
    rw [Option.some.inj hrow]
    exact hready
  · intro hunblocked
    refine ⟨?_, fun before after heq => (hhistory before after heq).active.oneReady⟩
    intro before faults upload after heq hrejected
    obtain ⟨hvalid, hreject, id, doc, hfound⟩ := rejected_iff.mp hrejected
    have hready := hunblocked before faults upload after heq hreject hvalid id doc hfound
    obtain ⟨hdoc, hdocKb, hdocChecksum, hlive⟩ := getByChecksumInKb_some hfound
    obtain ⟨earlier, hfinished, hkb, hchecksum⟩ :=
      (hhistory before _ heq).ready id doc hdoc hready
    obtain ⟨faults', hmem⟩ := hfinished.mem
    refine ⟨earlier, id, doc, hfinished, hkb.symm.trans hdocKb, ?_, hdoc, hlive⟩
    refine hsha faults' earlier faults upload ?_ ?_ (hchecksum.symm.trans hdocChecksum)
    · rw [heq]
      exact List.mem_append_left _ hmem
    · rw [heq]
      exact List.mem_append_right _ List.mem_cons_self

/-! A file of one zero byte again: as plain text it fails, and is tried again as a PDF. -/

def failedUpload : Call :=
  .ingest zeroFault (zeroUpload "text/plain")

def secondUpload : Call :=
  .ingest (fun _ => none) (zeroUpload "application/pdf")

/-- The failed document is deleted before the second upload. -/
def clearedHistory : List Call :=
  [failedUpload, .delete 0, secondUpload]

theorem mem_clearedHistory {call : Call} (h : call ∈ clearedHistory) :
    call = failedUpload ∨ call = .delete 0 ∨ call = secondUpload := by
  simpa [clearedHistory] using h

theorem fileBytes_clearedHistory {faults : Faults} {upload : Upload}
    (h : .ingest faults upload ∈ clearedHistory) : upload.fileBytes = [0] := by
  rcases mem_clearedHistory h with hcall | hcall | hcall
  · rw [(Call.ingest.inj hcall).2]
    rfl
  · cases hcall
  · rw [(Call.ingest.inj hcall).2]
    rfl

theorem uploads_iff_cleared :
    RejectionsJustified zeroByte clearedHistory ∧
      ∀ before after, clearedHistory = before ++ after → OneReady (afterCalls zeroByte before) := by
  refine (uploads_iff zeroByte clearedHistory ?_ ?_).mpr ?_
  · intro call hcall
    rcases mem_clearedHistory hcall with rfl | rfl | rfl
    · exact .inl rfl
    · trivial
    · exact .inl rfl
  · intro faults upload faults' upload' hmem hmem' _
    rw [fileBytes_clearedHistory hmem, fileBytes_clearedHistory hmem']
  · intro before faults upload after heq _ _ id doc hfound
    match before with
    | [] =>
        obtain ⟨hget, -⟩ := getByChecksumInKb_some hfound
        exact nomatch (show (none : Option KnowledgeDocument) = some doc from hget)
    | [_] => cases (List.cons.inj (List.cons.inj heq).2).1
    | [first, second] =>
        obtain ⟨hfirst, heq⟩ := List.cons.inj heq
        obtain ⟨hsecond, heq⟩ := List.cons.inj heq
        obtain ⟨-, rfl⟩ := Call.ingest.inj (List.cons.inj heq).1
        rw [← hfirst, ← hsecond] at hfound
        have hfree : ((afterCalls zeroByte [failedUpload, .delete 0]).getByChecksumInKb
            (zeroByte.sha256 [0]) 1).isSome = false := by decide
        have hsome := congrArg Option.isSome hfound
        cases hfree.symm.trans hsome
    | _ :: _ :: _ :: _ =>
        have hlength := congrArg List.length heq
        simp only [clearedHistory, List.length_append, List.length_cons, List.length_nil]
          at hlength
        omega

/-- Otherwise it keeps the file out. -/
theorem failedUpload_not_retryable :
    ¬ RejectionsJustified zeroByte [failedUpload, secondUpload] := by
  intro hjustified
  have hfound : ((afterCalls zeroByte [failedUpload]).getByChecksumInKb
      (zeroByte.sha256 [0]) 1).isSome = true := by decide
  obtain ⟨⟨id, doc⟩, hfound⟩ := Option.isSome_iff_exists.mp hfound
  obtain ⟨earlier, id', -, hfinished, -⟩ := hjustified [failedUpload] _ _ [] rfl
    (rejected_iff.mpr ⟨rfl, rfl, id, doc, hfound⟩)
  obtain hnil | ⟨faults, hcall, hok⟩ := finished_concat_iff.mp
    (show Finished zeroByte ([] ++ [failedUpload]) earlier id' from hfinished)
  · exact not_finished_nil hnil
  · have herror : (Proc.outcome (ingestDocument zeroByte zeroFault (zeroUpload "text/plain"))
        (afterCalls zeroByte [])).isOk = false := by decide
    obtain ⟨rfl, rfl⟩ := Call.ingest.inj hcall
    rw [hok] at herror
    cases herror

end AgentCorp.Knowledge
