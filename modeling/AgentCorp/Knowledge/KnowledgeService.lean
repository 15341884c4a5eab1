/-
  `KnowledgeService`: the documents of a knowledge base, their chunks, and the ingestion pipeline.

  Every commit of the pipeline is a step of its own, and between two commits it may raise where
  `faults` says so. What has been committed stays. The column that a document does not get from
  an upload, its language, is null.
-/
import AgentCorp.Knowledge.Chunker
import AgentCorp.Lib.Table
import AgentCorp.Python.Data
import AgentCorp.Python.Effects

namespace AgentCorp.Knowledge

open AgentCorp.Python

/-! ## Rows -/

inductive ProcessingStatus where
  | uploaded | validating | processing | chunking | ready | failed
  deriving DecidableEq, Repr

structure KnowledgeDocument where
  knowledgeBaseId : Nat
  filename : String
  originalFilename : String
  mimeType : String
  fileSize : Nat
  checksum : String
  language : Option String := none
  processingStatus : ProcessingStatus := .uploaded
  metadata : Option (Dict Json) := none
  uploadedBy : Int
  isDeleted : Bool := false

structure KnowledgeChunk where
  documentId : Nat
  chunkIndex : Nat
  text : String
  tokenCount : Nat
  characterCount : Nat
  metadata : Option (Dict Json) := none
  embeddingStatus : String := "PENDING"
  isDeleted : Bool := false

/-- The tables, with the foreign key of a chunk. -/
structure KnowledgeDb where
  documents : Table KnowledgeDocument
  chunks : Table KnowledgeChunk
  document_exists : ∀ id chunk, chunks.get id = some chunk →
    (documents.get chunk.documentId).isSome = true

namespace KnowledgeDb

variable (db : KnowledgeDb)

def empty : KnowledgeDb where
  documents := .empty
  chunks := .empty
  document_exists := fun _ _ hchunk => nomatch hchunk

def insertDocument (doc : KnowledgeDocument) : KnowledgeDb where
  documents := db.documents.insert doc
  chunks := db.chunks
  document_exists := by
    intro id chunk hchunk
    rw [Table.get_insert]
    split
    · rfl
    · exact db.document_exists id chunk hchunk

/-- A commit of the columns of a document. -/
def updateDocument (id : Nat) (f : KnowledgeDocument → KnowledgeDocument) : KnowledgeDb where
  documents := db.documents.modify id f
  chunks := db.chunks
  document_exists := by
    intro id' chunk hchunk
    have hexists := db.document_exists id' chunk hchunk
    rw [Table.get_modify]
    split
    · next hid => rw [Option.isSome_map, ← hid, hexists]
    · exact hexists

/-- A new chunk, unless its document is missing. -/
def insertChunk (chunk : KnowledgeChunk) : Option KnowledgeDb :=
  if h : (db.documents.get chunk.documentId).isSome = true then
    some {
      documents := db.documents
      chunks := db.chunks.insert chunk
      document_exists := by
        intro id chunk' hchunk
        rw [Table.get_insert] at hchunk
        split at hchunk
        · rw [← Option.some.inj hchunk]
          exact h
        · exact db.document_exists id chunk' hchunk }
  else none

/-- A commit of a chunk's columns other than its document. -/
def updateChunk (id : Nat) (f : KnowledgeChunk → KnowledgeChunk)
    (hf : ∀ chunk, (f chunk).documentId = chunk.documentId) : KnowledgeDb where
  documents := db.documents
  chunks := db.chunks.modify id f
  document_exists := by
    intro id' chunk hchunk
    rw [Table.get_modify] at hchunk
    split at hchunk
    · obtain ⟨old, hold, rfl⟩ := Option.map_eq_some_iff.mp hchunk
      rw [hf]
      exact db.document_exists id old hold
    · exact db.document_exists id' chunk hchunk

def deleteChunk (id : Nat) : KnowledgeDb :=
  db.updateChunk id (fun chunk => { chunk with isDeleted := true }) fun _ => rfl

def setEmbeddingStatus (id : Nat) (status : String) : KnowledgeDb :=
  db.updateChunk id (fun chunk => { chunk with embeddingStatus := status }) fun _ => rfl

/-! ## DocumentRepository and ChunkRepository -/

def getByChecksumInKb (checksum : String) (kbId : Nat) : Option (Nat × KnowledgeDocument) :=
  db.documents.first fun doc =>
    doc.knowledgeBaseId == kbId && doc.checksum == checksum && !doc.isDeleted

def listByKb (kbId : Nat) : List (Nat × KnowledgeDocument) :=
  db.documents.select fun doc => doc.knowledgeBaseId == kbId && !doc.isDeleted

def getActive (docId : Nat) : Option KnowledgeDocument :=
  (db.documents.get docId).filter fun doc => !doc.isDeleted

def listByDocument (docId : Nat) : List (Nat × KnowledgeChunk) :=
  db.chunks.select fun chunk => chunk.documentId == docId && !chunk.isDeleted

/-- `KnowledgeService.delete_document`. -/
def deleteDocument (docId : Nat) : KnowledgeDb :=
  match db.getActive docId with
  | none => db
  | some _ =>
      let db := db.updateDocument docId fun doc => { doc with isDeleted := true }
      (db.listByDocument docId).foldl (fun db entry => db.deleteChunk entry.1) db

end KnowledgeDb

/-! ## DocumentValidator, DocumentProcessor and MetadataExtractor -/

def supportedMimeTypes : List String :=
  ["application/pdf", "text/plain", "text/markdown", "text/html",
    "application/vnd.openxmlformats-officedocument.wordprocessingml.document"]

def maxFileSizeBytes : Nat :=
  25 * 1024 * 1024

/-- `DocumentValidator.validate_file`. -/
def validateFile (filename contentType : String) (fileSize : Nat) : Except Exn Unit :=
  if contentType ∉ supportedMimeTypes then
    .error (.other "UnsupportedFileTypeError"
      ("File content type '" ++ contentType ++ "' is not supported."))
  else if fileSize > maxFileSizeBytes then
    .error (.other "FileValidationError" "File size exceeds the limit of 25.0 MB.")
  else if filename = "" then .error (.other "FileValidationError" "Filename cannot be empty.")
  else .ok ()

/-- What the standard library makes of bytes: `hashlib.sha256(data).hexdigest()` and
    `data.decode("utf-8", errors="replace")`. -/
structure Codec where
  sha256 : List UInt8 → String
  decode : List UInt8 → String

/-- The bytes of an ASCII text. -/
def asciiBytes (text : String) : List UInt8 :=
  text.toList.map fun c => UInt8.ofNat c.toNat

/-- The codec on files of ASCII text with the given digests. -/
def asciiCodec (sha256 : List UInt8 → String) : Codec where
  sha256 := sha256
  decode fileBytes := String.ofList (fileBytes.map fun byte =>
    if byte.toNat < 128 then Char.ofNat byte.toNat else '\uFFFD')

theorem decode_asciiBytes (sha256 : List UInt8 → String) {text : String}
    (hascii : ∀ c ∈ text.toList, c.toNat < 128) :
    (asciiCodec sha256).decode (asciiBytes text) = text := by
  have hchars : (asciiBytes text).map (fun byte =>
      if byte.toNat < 128 then Char.ofNat byte.toNat else '\uFFFD') = text.toList := by
    unfold asciiBytes
    rw [List.map_map]
    refine (List.map_congr_left fun c hc => ?_).trans (List.map_id _)
    have hbyte : (UInt8.ofNat c.toNat).toNat = c.toNat :=
      UInt8.toNat_ofNat_of_lt ((hascii c hc).trans (by decide))
    rw [Function.comp_apply, hbyte, if_pos (hascii c hc), Char.ofNat_toNat, id]
  exact (congrArg String.ofList hchars).trans String.ofList_toList

/-- `DocumentProcessor.process`, where nothing raises. -/
def processDocument (codec : Codec) (fileBytes : List UInt8) (mimeType : String) :
    String × Dict Json :=
  if mimeType ∈ ["text/plain", "text/markdown", "text/html"] then
    let text := codec.decode fileBytes
    (text, [("character_count", .int text.length), ("encoding", .str "utf-8")])
  else if mimeType = "application/pdf" then
    let text := "[PDF CONTENT STUB]\nSize: " ++ toString fileBytes.length ++ " bytes"
    (text, [("page_count", .int 1), ("character_count", .int text.length)])
  else
    let text := codec.decode fileBytes
    (text, [("character_count", .int text.length)])

/-- `filename.rsplit(".", 1)[0]`. -/
def titleOf (filename : String) : String :=
  if '.' ∈ filename.toList then
    String.ofList (filename.toList.reverse.dropWhile (· ≠ '.')).tail.reverse
  else filename

/-- `MetadataExtractor.extract_metadata`. -/
def extractMetadata (filename text : String) (rawMetadata : Dict Json) : Dict Json :=
  Dict.merge [("title", .str (titleOf filename)), ("file_name", .str filename),
    ("character_count", .int text.length), ("word_count", .int (split text).length)] rawMetadata

/-! ## KnowledgeService.ingest_document -/

structure Upload where
  kbId : Nat
  filename : String
  contentType : String
  fileBytes : List UInt8
  userId : Int
  duplicatePolicy : String := "reject"

/-- Where the pipeline may raise: in the steps that compute, before or after the commit of a chunk,
    and in the commit that marks the document as FAILED. -/
inductive IngestPoint where
  | process | metadata | chunking
  | chunk (idx : Nat)
  | refresh (idx : Nat)
  | failed
  deriving DecidableEq, Repr

/-- The exception that is raised at a point, if any. -/
abbrev Faults := IngestPoint → Option Exn

/-- The database, and the object of the document with what is not committed yet. -/
structure IngestState where
  db : KnowledgeDb
  doc : KnowledgeDocument

abbrev Pipeline := Proc IngestState Exn

section Pipeline

variable (codec : Codec) (faults : Faults) (filename contentType : String)
  (fileBytes : List UInt8) (id : Nat)

def reach {σ : Type} (point : IngestPoint) : Proc σ Exn Unit :=
  match faults point with
  | some exc => throw exc
  | none => pure ()

/-- `doc.processing_status = status` and `doc_repo.update(doc)`. -/
def setStatus (status : ProcessingStatus) : Pipeline Unit :=
  modify fun s =>
    let doc := { s.doc with processingStatus := status }
    { db := s.db.updateDocument id fun _ => doc, doc }

/-- `doc.metadata_json = metadata`, which the next commit stores. -/
def setMetadata (metadata : Dict Json) : Pipeline Unit :=
  modify fun s => { s with doc := { s.doc with metadata := some metadata } }

/-- `DocumentProcessor.process`. -/
def process : Pipeline (String × Dict Json) :=
  match faults .process with
  | some exc =>
      throw (.other "ProcessingFailedError" ("Document processing failed: " ++ exc.text))
  | none => pure (processDocument codec fileBytes contentType)

/-- The chunk row of the document `id` at `idx`. -/
def chunkRow (info : ChunkInfo) (idx : Nat) : KnowledgeChunk where
  documentId := id
  chunkIndex := idx
  text := info.text
  tokenCount := info.tokenCount
  characterCount := info.characterCount
  metadata := some [("source_document", .str filename)]

/-- The commit of a new chunk, which also stores what was assigned to the document. -/
def commitChunk (info : ChunkInfo) (idx : Nat) : Pipeline Unit := do
  let s ← get
  match (s.db.updateDocument id fun _ => s.doc).insertChunk (chunkRow filename id info idx) with
  | none => throw (.other "IntegrityError" "violates foreign key constraint")
  | some db => set { s with db }

/-- `chunk_repo.create`. -/
def createChunk (info : ChunkInfo) (idx : Nat) : Pipeline Unit := do
  reach faults (.chunk idx)
  commitChunk filename id info idx
  reach faults (.refresh idx)

def createChunks : List (ChunkInfo × Nat) → Pipeline Unit
  | [] => pure ()
  | (info, idx) :: rest => do
      createChunk faults filename id info idx
      createChunks rest

/-- The body of the `try`, up to the last chunk. -/
def ingestChunks : Pipeline Unit := do
  setStatus id .processing
  let (text, rawMetadata) ← process codec faults contentType fileBytes
  setStatus id .chunking
  reach faults .metadata
  setMetadata (extractMetadata filename text rawMetadata)
  reach faults .chunking
  createChunks faults filename id (chunkText text).zipIdx

def ingestionFailed (exc : Exn) : Exn :=
  .other "KnowledgeBaseError" ("Document ingestion failed: " ++ exc.text)

/-- The `try` statement. -/
def ingestPipeline : Pipeline Unit :=
  tryCatch
    (do
      ingestChunks codec faults filename contentType fileBytes id
      setStatus id .ready)
    fun exc => do
      reach faults .failed
      setStatus id .failed
      throw (ingestionFailed exc)

end Pipeline

/-- Work on the object of a document, over the database. -/
def withDocument {α : Type} (doc : KnowledgeDocument) (p : Pipeline α) :
    Proc KnowledgeDb Exn α := fun db =>
  match p.run { db, doc } with
  | .ok a s => .ok a s.db
  | .error exc s => .error exc s.db

/-- The document entry of an upload. -/
def newDocument (codec : Codec) (upload : Upload) : KnowledgeDocument where
  knowledgeBaseId := upload.kbId
  filename := upload.filename
  originalFilename := upload.filename
  mimeType := upload.contentType
  fileSize := upload.fileBytes.length
  checksum := codec.sha256 upload.fileBytes
  processingStatus := .validating
  uploadedBy := upload.userId

/-- The duplicate check of `ingest_document`. -/
def resolveDuplicate (codec : Codec) (upload : Upload) : Proc KnowledgeDb Exn Unit := do
  let db ← get
  match db.getByChecksumInKb (codec.sha256 upload.fileBytes) upload.kbId with
  | none => pure ()
  | some (existing, _) =>
      if upload.duplicatePolicy = "reject" then
        throw (.other "DuplicateDocumentError"
          "A document with the same content already exists in this knowledge base.")
      else if upload.duplicatePolicy = "replace" then set (db.deleteDocument existing)
      else pure ()

/-- The rest of `ingest_document`, once the checks are passed: the id of the document. -/
def storeDocument (codec : Codec) (faults : Faults) (upload : Upload) :
    Proc KnowledgeDb Exn Nat := do
  let db ← get
  let id := db.documents.next
  set (db.insertDocument (newDocument codec upload))
  withDocument (newDocument codec upload)
    (ingestPipeline codec faults upload.filename upload.contentType upload.fileBytes id)
  return id

/-- `KnowledgeService.ingest_document`. -/
def ingestDocument (codec : Codec) (faults : Faults) (upload : Upload) :
    Proc KnowledgeDb Exn Nat := do
  Proc.ofExcept (validateFile upload.filename upload.contentType upload.fileBytes.length)
  resolveDuplicate codec upload
  storeDocument codec faults upload

end AgentCorp.Knowledge
