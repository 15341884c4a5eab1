/-
  Histories of ingestions, rebuilds and deletions, and what one step of them does.

  A step deletes at most one document: the one `delete_document` names, or the duplicate that an
  upload replaces. Neither takes a vector out of its table.

  * `effect_step`: what a step does to documents, chunks and vectors.
  * `placed_run`: a vector is stored for the knowledge base of its chunk's document.
  * `Current.step`: what is embedded stays current, unless the step deletes it.
  * `current_run`: so it does over a history that deletes nothing embedded.
-/
import AgentCorp.Knowledge.Lifecycle
import AgentCorp.Rag.RagService

namespace AgentCorp.Rag

open AgentCorp.Python AgentCorp.Knowledge

variable {V : Type}

/-- The calls of a history. -/
inductive Operation (V : Type) where
  | ingest (faults : Faults) (upload : Upload)
  | rebuild (E : Embeddings V) (kbId : Nat) (providerName : String)
  | delete (docId : Nat)

def RagDb.empty : RagDb V where
  db := .empty
  tables := fun _ => none

/-- The state after a call, however that ends. -/
def step (codec : Codec) (L : Lower) (s : RagDb V) : Operation V → RagDb V
  | .ingest faults upload =>
      { s with db := Proc.after (ingestDocument codec faults upload) s.db }
  | .rebuild E kbId providerName => Proc.after (rebuildEmbeddings E L kbId providerName) s
  | .delete docId => { s with db := s.db.deleteDocument docId }

def run (codec : Codec) (L : Lower) (s : RagDb V) (history : List (Operation V)) : RagDb V :=
  history.foldl (step codec L) s

/-- The active document that a call deletes. -/
def Operation.deletes (codec : Codec) (s : RagDb V) : Operation V → Option Nat
  | .ingest _ upload => replacedDuplicate codec upload s.db
  | .rebuild .. => none
  | .delete docId => if (s.db.getActive docId).isSome = true then some docId else none

/-- The row of a document is there and marked as deleted. -/
def Deleted (db : KnowledgeDb) (docId : Nat) : Prop :=
  ∃ doc, db.documents.get docId = some doc ∧ doc.isDeleted = true

/-- A vector of a chunk of the document is stored. -/
def Embedded (s : RagDb V) (docId : Nat) : Prop :=
  ∃ kbId c chunk, s.HasVector kbId c ∧ s.db.chunks.get c = some chunk ∧ chunk.documentId = docId

/-! ## What a step does -/

/-- What a call that deletes the document `gone` does to the rows. -/
structure Marks (gone : Option Nat) (db db' : KnowledgeDb) : Prop where
  deleted : ∀ docId, Deleted db' docId ↔ Deleted db docId ∨ gone = some docId
  document : ∀ docId doc, db.documents.get docId = some doc →
    ∃ doc', db'.documents.get docId = some doc' ∧ doc'.knowledgeBaseId = doc.knowledgeBaseId
  chunk : ∀ c chunk, db.chunks.get c = some chunk →
    ∃ chunk', db'.chunks.get c = some chunk' ∧ chunk'.documentId = chunk.documentId
  mark : ∀ c chunk', db'.chunks.get c = some chunk' → chunk'.isDeleted = true →
    gone = some chunk'.documentId ∨ ∃ chunk, db.chunks.get c = some chunk ∧
      chunk.isDeleted = true ∧ chunk.documentId = chunk'.documentId

theorem Marks.refl (db : KnowledgeDb) : Marks none db db where
  deleted := fun _ => by simp
  document := fun _ doc hdoc => ⟨doc, hdoc, rfl⟩
  chunk := fun _ chunk hchunk => ⟨chunk, hchunk, rfl⟩
  mark := fun _ chunk hchunk hdeleted => .inr ⟨chunk, hchunk, hdeleted, rfl⟩

/-- A deletion, and what comes after it. -/
theorem Marks.trans {gone : Option Nat} {a b c : KnowledgeDb} (hab : Marks gone a b)
    (hbc : Marks none b c) : Marks gone a c where
  deleted := by
    intro docId
    rw [hbc.deleted, hab.deleted]
    simp
  document := by
    intro docId doc hdoc
    obtain ⟨doc', hdoc', hkb⟩ := hab.document docId doc hdoc
    obtain ⟨doc'', hdoc'', hkb'⟩ := hbc.document docId doc' hdoc'
    exact ⟨doc'', hdoc'', hkb'.trans hkb⟩
  chunk := by
    intro i chunk hchunk
    obtain ⟨chunk', hchunk', hid⟩ := hab.chunk i chunk hchunk
    obtain ⟨chunk'', hchunk'', hid'⟩ := hbc.chunk i chunk' hchunk'
    exact ⟨chunk'', hchunk'', hid'.trans hid⟩
  mark := by
    intro i chunk'' hchunk'' hdeleted
    rcases hbc.mark i chunk'' hchunk'' hdeleted with hnone | ⟨chunk', hchunk', hmark, hid⟩
    · cases hnone
    · rw [← hid]
      exact hab.mark i chunk' hchunk' hmark

theorem getActive_isSome {db : KnowledgeDb} {docId : Nat} :
    (db.getActive docId).isSome = true ↔
      ∃ doc, db.documents.get docId = some doc ∧ doc.isDeleted = false := by
  unfold KnowledgeDb.getActive
  cases db.documents.get docId with
  | none => simp
  | some doc => simp [Option.filter_some]

theorem deleted_deleteDocument (db : KnowledgeDb) (docId other : Nat) :
    Deleted (db.deleteDocument docId) other ↔
      Deleted db other ∨ (other = docId ∧ (db.getActive docId).isSome = true) := by
  unfold Deleted
  rw [deleteDocument_get, getActive_isSome]
  by_cases hother : other = docId
  · rw [if_pos hother, hother]
    cases db.documents.get docId with
    | none => simp
    | some doc => cases hdeleted : doc.isDeleted <;> simp [hdeleted]
  · simp [hother]

theorem marks_deleteDocument (db : KnowledgeDb) (docId : Nat) :
    Marks (if (db.getActive docId).isSome = true then some docId else none) db
      (db.deleteDocument docId) where
  deleted := by
    intro other
    rw [deleted_deleteDocument]
    by_cases hactive : (db.getActive docId).isSome = true
    · simp [hactive, eq_comm]
    · simp [hactive]
  document := by
    intro id doc hdoc
    have hmarked := deleteDocument_get db docId id
    rw [hdoc] at hmarked
    by_cases hid : id = docId
    · rw [if_pos hid, Option.map_some] at hmarked
      exact ⟨_, hmarked, rfl⟩
    · rw [if_neg hid] at hmarked
      exact ⟨doc, hmarked, rfl⟩
  chunk := by
    intro c chunk hchunk
    have hmarked := deleteDocument_chunk db docId c
    rw [hchunk, Option.map_some] at hmarked
    exact ⟨_, hmarked, rfl⟩
  mark := by
    intro c chunk' hchunk' hdeleted
    rw [deleteDocument_chunk] at hchunk'
    obtain ⟨chunk, hchunk, rfl⟩ := Option.map_eq_some_iff.mp hchunk'
    rcases Bool.or_eq_true_iff.mp hdeleted with hold | hnew
    · exact .inr ⟨chunk, hchunk, hold, rfl⟩
    · rw [Bool.and_eq_true, decide_eq_true_iff] at hnew
      left
      rw [if_pos hnew.2]
      exact congrArg some hnew.1.symm

theorem marks_storeDocument (codec : Codec) (faults : Faults) (upload : Upload)
    (db : KnowledgeDb) :
    Marks none db (Proc.after (storeDocument codec faults upload) db) := by
  obtain ⟨hframe, row, hrow, hlive, -⟩ := storeDocument_after codec faults upload db
  have hnone : db.documents.get db.documents.next = none := db.documents.get_next
  have hold : ∀ docId, docId ≠ db.documents.next →
      (Proc.after (storeDocument codec faults upload) db).documents.get docId =
        db.documents.get docId := by
    intro docId hne
    rw [hframe.document docId hne]
    show (db.documents.insert _).get docId = _
    rw [Table.get_insert, if_neg hne]
  refine ⟨fun docId => ?_, fun docId doc hdoc => ?_, fun c chunk hchunk => ?_,
    fun c chunk' hchunk' hdeleted => ?_⟩
  · unfold Deleted
    by_cases hnew : docId = db.documents.next
    · rw [hnew, hrow, hnone]
      simp [hlive]
    · rw [hold docId hnew]
      simp
  · have hlt := Table.get_lt hdoc
    exact ⟨doc, (hold docId (by omega)).trans hdoc, rfl⟩
  · exact ⟨chunk, hframe.chunk c chunk hchunk, rfl⟩
  · rcases hframe.created c chunk' hchunk' with hold | ⟨-, hcreated⟩
    · exact .inr ⟨chunk', hold, hdeleted, rfl⟩
    · rw [hcreated] at hdeleted
      cases hdeleted

theorem replacedDuplicate_active {codec : Codec} {upload : Upload} {db : KnowledgeDb} {docId : Nat}
    (h : replacedDuplicate codec upload db = some docId) :
    (db.getActive docId).isSome = true := by
  unfold replacedDuplicate at h
  split at h
  · cases h
  · split at h
    · obtain ⟨found, hfound, rfl⟩ := Option.map_eq_some_iff.mp h
      obtain ⟨hget, hmatch⟩ := Table.first_eq_some hfound
      simp only [Bool.and_eq_true, Bool.not_eq_true'] at hmatch
      exact getActive_isSome.mpr ⟨found.2, hget, hmatch.2⟩
    · cases h

theorem marks_ingestDocument (codec : Codec) (faults : Faults) (upload : Upload)
    (db : KnowledgeDb) :
    Marks (replacedDuplicate codec upload db) db
      (Proc.after (ingestDocument codec faults upload) db) := by
  have hreplaced : Marks (replacedDuplicate codec upload db) db
      (withoutReplaced codec upload db) := by
    unfold withoutReplaced
    cases hdocId : replacedDuplicate codec upload db with
    | none => exact .refl db
    | some docId =>
        have hmarks := marks_deleteDocument db docId
        rw [if_pos (replacedDuplicate_active hdocId)] at hmarks
        exact hmarks
  rcases ingestDocument_after codec faults upload db with hafter | hafter
  · rw [hafter]
    exact hreplaced
  · rw [hafter]
    exact hreplaced.trans (marks_storeDocument codec faults upload _)

/-- What a call that deletes the document `gone` does. -/
structure Effect (gone : Option Nat) (s t : RagDb V) : Prop where
  marks : Marks gone s.db t.db
  vector : ∀ kbId c, t.HasVector kbId c →
    s.HasVector kbId c ∨ (gone = none ∧ LiveIn s.db kbId c)
  tables : gone ≠ none → t.tables = s.tables

theorem effect_of_db {gone : Option Nat} {s : RagDb V} {db : KnowledgeDb}
    (h : Marks gone s.db db) : Effect gone s { s with db } where
  marks := h
  vector := fun _ _ hvector => .inl hvector
  tables := fun _ => rfl

theorem effect_of_indexed {s t : RagDb V} (h : Indexed s t) : Effect none s t where
  marks := by
    refine ⟨fun docId => ?_, fun docId doc hdoc => ⟨doc, by rw [h.documents, hdoc], rfl⟩,
      fun c chunk hchunk => ?_, fun c chunk' hchunk' hdeleted => ?_⟩
    · unfold Deleted
      rw [h.documents]
      simp
    · have howner := h.chunk c
      rw [hchunk, Option.map_some] at howner
      obtain ⟨chunk', hchunk', heq⟩ := Option.map_eq_some_iff.mp howner
      exact ⟨chunk', hchunk', congrArg (·.1) heq⟩
    · have howner := (h.chunk c).symm
      rw [hchunk', Option.map_some] at howner
      obtain ⟨chunk, hchunk, heq⟩ := Option.map_eq_some_iff.mp howner
      have hmark : chunk.isDeleted = chunk'.isDeleted := congrArg (·.2) heq
      exact .inr ⟨chunk, hchunk, hmark.trans hdeleted, congrArg (·.1) heq⟩
  vector := fun kbId c hvector => (h.vector kbId c hvector).imp_right fun hlive => ⟨rfl, hlive⟩
  tables := fun hgone => absurd rfl hgone

/-- **One step**. -/
theorem effect_step (codec : Codec) (L : Lower) (s : RagDb V) (op : Operation V) :
    Effect (op.deletes codec s) s (step codec L s op) := by
  cases op with
  | ingest faults upload => exact effect_of_db (marks_ingestDocument codec faults upload s.db)
  | rebuild E kbId providerName =>
      exact effect_of_indexed (rebuildEmbeddings_indexed E L kbId providerName s)
  | delete docId => exact effect_of_db (marks_deleteDocument s.db docId)

/-! ## Vectors are of the knowledge base they are stored for -/

def Placed (s : RagDb V) : Prop :=
  ∀ kbId c, s.HasVector kbId c → ∃ chunk doc, s.db.chunks.get c = some chunk ∧
    s.db.documents.get chunk.documentId = some doc ∧ doc.knowledgeBaseId = kbId

theorem placed_empty : Placed (V := V) .empty := by
  rintro kbId c ⟨table, htable, -⟩
  cases htable

theorem Placed.of_effect {gone : Option Nat} {s t : RagDb V} (h : Placed s)
    (heffect : Effect gone s t) : Placed t := by
  intro kbId c hvector
  have hs : ∃ chunk doc, s.db.chunks.get c = some chunk ∧
      s.db.documents.get chunk.documentId = some doc ∧ doc.knowledgeBaseId = kbId := by
    rcases heffect.vector kbId c hvector with hold | ⟨-, chunk, doc, hchunk, hdoc, hkb, -⟩
    · exact h kbId c hold
    · exact ⟨chunk, doc, hchunk, hdoc, hkb⟩
  obtain ⟨chunk, doc, hchunk, hdoc, hkb⟩ := hs
  obtain ⟨chunk', hchunk', hid⟩ := heffect.marks.chunk c chunk hchunk
  obtain ⟨doc', hdoc', hkb'⟩ := heffect.marks.document _ doc hdoc
  exact ⟨chunk', doc', hchunk', by rw [hid, hdoc'], hkb'.trans hkb⟩

/-- **Vectors stay where they belong**, over any history. -/
theorem placed_run (codec : Codec) (L : Lower) {s : RagDb V} (h : Placed s)
    (history : List (Operation V)) : Placed (run codec L s history) := by
  induction history generalizing s with
  | nil => exact h
  | cons op rest ih => exact ih (h.of_effect (effect_step codec L s op))

/-! ## What is embedded is current -/

/-- A deleted chunk is one of a deleted document, and no vector is one of a deleted document. -/
structure Current (s : RagDb V) : Prop where
  chunk : ∀ c chunk, s.db.chunks.get c = some chunk → chunk.isDeleted = true →
    Deleted s.db chunk.documentId
  vector : ∀ kbId c, s.HasVector kbId c →
    ∃ chunk, s.db.chunks.get c = some chunk ∧ ¬ Deleted s.db chunk.documentId

theorem current_empty : Current (V := V) .empty where
  chunk := fun _ _ hchunk => nomatch hchunk
  vector := by
    rintro kbId c ⟨table, htable, -⟩
    cases htable

theorem Current.not_embedded {s : RagDb V} (h : Current s) {docId : Nat}
    (hdeleted : Deleted s.db docId) : ¬ Embedded s docId := by
  rintro ⟨kbId, c, chunk, hvector, hchunk, rfl⟩
  obtain ⟨chunk', hchunk', hlive⟩ := h.vector kbId c hvector
  rw [← Option.some.inj (hchunk.symm.trans hchunk')] at hlive
  exact hlive hdeleted

/-- The call deletes a document that is embedded. -/
def Stales (codec : Codec) (s : RagDb V) (op : Operation V) : Prop :=
  ∃ docId, op.deletes codec s = some docId ∧ Embedded s docId

theorem Current.of_effect {gone : Option Nat} {s t : RagDb V} (h : Current s)
    (heffect : Effect gone s t) (hgone : ∀ docId, gone = some docId → ¬ Embedded s docId) :
    Current t where
  chunk := by
    intro c chunk hchunk hdeleted
    rw [heffect.marks.deleted]
    rcases heffect.marks.mark c chunk hchunk hdeleted with hnew | ⟨old, hold, hmark, hid⟩
    · exact .inr hnew
    · rw [← hid]
      exact .inl (h.chunk c old hold hmark)
  vector := by
    intro kbId c hvector
    rcases heffect.vector kbId c hvector with hold | ⟨hnone, chunk, doc, hchunk, hdoc, -, hlive⟩
    · obtain ⟨chunk, hchunk, hcurrent⟩ := h.vector kbId c hold
      obtain ⟨chunk', hchunk', hid⟩ := heffect.marks.chunk c chunk hchunk
      refine ⟨chunk', hchunk', ?_⟩
      rw [hid, heffect.marks.deleted]
      intro hdeleted
      rcases hdeleted with hdeleted | hdeleted
      · exact hcurrent hdeleted
      · exact hgone _ hdeleted ⟨kbId, c, chunk, hold, hchunk, rfl⟩
    · obtain ⟨chunk', hchunk', hid⟩ := heffect.marks.chunk c chunk hchunk
      refine ⟨chunk', hchunk', ?_⟩
      rw [hid, heffect.marks.deleted, hnone]
      rintro (⟨doc', hdoc', hdeleted⟩ | hdeleted)
      · rw [← Option.some.inj (hdoc.symm.trans hdoc'), hlive] at hdeleted
        cases hdeleted
      · cases hdeleted

/-- **A step keeps what is embedded current**, unless it deletes it. -/
theorem Current.step {codec : Codec} {L : Lower} {s : RagDb V} {op : Operation V}
    (h : Current s) (hop : ¬ Stales codec s op) : Current (step codec L s op) :=
  h.of_effect (effect_step codec L s op) fun docId hgone hembedded =>
    hop ⟨docId, hgone, hembedded⟩

/-- No call of the history deletes a document that is embedded when the call is made. -/
def NoStaleDeletion (codec : Codec) (L : Lower) (s : RagDb V) (history : List (Operation V)) :
    Prop :=
  ∀ before op after, history = before ++ op :: after → ¬ Stales codec (run codec L s before) op

theorem NoStaleDeletion.cons {codec : Codec} {L : Lower} {s : RagDb V} {op : Operation V}
    {rest : List (Operation V)} :
    NoStaleDeletion codec L s (op :: rest) ↔
      ¬ Stales codec s op ∧ NoStaleDeletion codec L (Rag.step codec L s op) rest := by
  constructor
  · intro h
    exact ⟨h [] op rest rfl, fun before op' after hrest =>
      h (op :: before) op' after (congrArg (op :: ·) hrest)⟩
  · rintro ⟨hfirst, hrest⟩ before op' after hsplit
    cases before with
    | nil =>
        obtain ⟨rfl, -⟩ := List.cons.inj hsplit
        exact hfirst
    | cons first before =>
        obtain ⟨rfl, htail⟩ := List.cons.inj hsplit
        exact hrest before op' after htail

/-- **A history that deletes nothing embedded** keeps what is embedded current. -/
theorem current_run {codec : Codec} {L : Lower} {s : RagDb V} (hs : Current s)
    {history : List (Operation V)} (h : NoStaleDeletion codec L s history) :
    Current (run codec L s history) := by
  induction history generalizing s with
  | nil => exact hs
  | cons op rest ih =>
      obtain ⟨hfirst, hrest⟩ := NoStaleDeletion.cons.mp h
      exact ih (hs.step hfirst) hrest

/-- What is deleted stays deleted. -/
theorem deleted_run (codec : Codec) (L : Lower) {s : RagDb V} {docId : Nat}
    (h : Deleted s.db docId) (history : List (Operation V)) :
    Deleted (run codec L s history).db docId := by
  induction history generalizing s with
  | nil => exact h
  | cons op rest ih => exact ih (((effect_step codec L s op).marks.deleted docId).mpr (.inl h))

end AgentCorp.Rag
