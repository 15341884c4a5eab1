/-
  `get_conversation`, and a reader that asks for its pages while messages are appended.

  The table of the messages is a list of rows in the order in which they were appended. A
  request counts the messages of the conversation and then reads a page of them; rows may
  arrive before the count and between the two queries.

  * `messagesOf_eq_filter`: where the identifiers increase, the query reads the rows as they
    stand.
  * `growing_snapshots`: what the requests find is a growing list.
  * `readConversation_eq`: the reader is that of a growing list.
  * `readConversation_lossless`: it misses no message and repeats none, and it ends.
-/
import AgentCorp.Chat.ChatService
import AgentCorp.Lib.Paging
import Mathlib.Data.List.Sort

namespace AgentCorp.ChatService

open AgentCorp.Python AgentCorp.Chat
open AgentCorp.Runtime (User)
open Paging (Snapshot Growing readPages)

/-! ## ConversationRepository.get_with_messages -/

/-- A `Message` with what the database gives it. -/
structure MessageRow extends Message where
  id : Int
  createdAt : String
  deriving DecidableEq, Repr

/-- A `Conversation` with its timestamps. -/
structure StoredConversation extends toChatConversation : Conversation where
  createdAt : String
  updatedAt : String
  deriving DecidableEq, Repr

/-- The messages of a conversation, `order_by(Message.id.asc())`. -/
def messagesOf (rows : List MessageRow) (conversationId : Int) : List MessageRow :=
  (rows.filter (·.conversationId = conversationId)).insertionSort fun a b => a.id ≤ b.id

/-- `get_with_messages`, with the rows as its count and its last query find them. -/
def getWithMessages (conversations : List StoredConversation) (counted read : List MessageRow)
    (conversationId organizationId : Int) (offset limit : Nat) :
    Option StoredConversation × List MessageRow × Nat :=
  match conversations.find? fun conversation =>
      conversation.id = conversationId ∧ conversation.organizationId = organizationId with
  | none => (none, [], 0)
  | some conversation =>
      let total := (counted.filter (·.conversationId = conversationId)).length
      (some conversation, ((messagesOf read conversationId).drop offset).take limit, total)

/-! ## ChatService.get_conversation -/

structure MessageSchema where
  id : Int
  role : String
  content : String
  provider : Option String
  modelUsed : Option String
  finishReason : Option String
  promptTokens : Option Int
  completionTokens : Option Int
  totalTokens : Option Int
  createdAt : String
  deriving DecidableEq, Repr

/-- `_message_to_schema`. -/
def messageToSchema (message : MessageRow) : MessageSchema where
  id := message.id
  role := message.role
  content := message.content
  provider := message.provider
  modelUsed := message.modelUsed
  finishReason := message.finishReason
  promptTokens := message.promptTokens
  completionTokens := message.completionTokens
  totalTokens := message.totalTokens
  createdAt := message.createdAt

structure ConversationDetail where
  conversationId : Int
  title : String
  runtimeVersion : String
  agentId : Int
  organizationId : Int
  userId : Int
  messages : List MessageSchema
  page : Nat
  pageSize : Nat
  totalMessages : Nat
  createdAt : String
  updatedAt : String
  deriving DecidableEq, Repr

def conversationDetail (conversation : StoredConversation) (messages : List MessageRow)
    (page pageSize total : Nat) : ConversationDetail where
  conversationId := conversation.id
  title := conversation.title
  runtimeVersion := conversation.runtimeVersion
  agentId := conversation.agentId
  organizationId := conversation.organizationId
  userId := conversation.userId
  messages := messages.map messageToSchema
  page := page
  pageSize := pageSize
  totalMessages := total
  createdAt := conversation.createdAt
  updatedAt := conversation.updatedAt

/-- `get_conversation`. Pages start at 1. -/
def getConversation (conversations : List StoredConversation) (counted read : List MessageRow)
    (conversationId : Int) (currentUser : User) (organizationId : Int) (page pageSize : Nat) :
    Except Exn ConversationDetail :=
  let offset := (page - 1) * pageSize
  match getWithMessages conversations counted read conversationId organizationId offset
    pageSize with
  | (none, _, _) => .error (.http 404 "Conversation not found.")
  | (some conversation, messages, total) =>
      if ¬ currentUser.isSuperuser ∧ conversation.userId ≠ currentUser.id then
        .error (.http 403 "You do not have access to this conversation.")
      else .ok (conversationDetail conversation messages page pageSize total)

/-! ## The reader -/

/-- The rows that are appended around one request. -/
structure Arrivals where
  beforeCount : List MessageRow := []
  beforeRead : List MessageRow := []

def Arrivals.all (arrivals : Arrivals) : List MessageRow :=
  arrivals.beforeCount ++ arrivals.beforeRead

/-- The pages from `page` on, with at most `requests` requests. Nothing arrives after the
    schedule. -/
def readConversation (conversations : List StoredConversation) (conversationId : Int)
    (currentUser : User) (organizationId : Int) (pageSize : Nat) :
    Nat → Nat → List MessageRow → List Arrivals → Except Exn (Option (List MessageSchema))
  | 0, _, _, _ => .ok none
  | requests + 1, page, rows, schedule => do
      let arrivals := schedule.headD {}
      let counted := rows ++ arrivals.beforeCount
      let read := counted ++ arrivals.beforeRead
      let detail ← getConversation conversations counted read conversationId currentUser
        organizationId page pageSize
      if detail.totalMessages ≤ page * pageSize then return some detail.messages
      else
        let rest ← readConversation conversations conversationId currentUser organizationId
          pageSize requests (page + 1) read schedule.tail
        return rest.map (detail.messages ++ ·)

/-- The conversation is there, and the user may read it. -/
structure Readable (conversations : List StoredConversation) (conversationId : Int)
    (currentUser : User) (organizationId : Int) (conversation : StoredConversation) : Prop where
  found : conversations.find? (fun conversation =>
    conversation.id = conversationId ∧ conversation.organizationId = organizationId) =
      some conversation
  owned : currentUser.isSuperuser ∨ conversation.userId = currentUser.id

/-- The identifiers increase, in the table and with everything that arrives. -/
def IncreasingIds (rows : List MessageRow) (schedule : List Arrivals) : Prop :=
  (rows ++ schedule.flatMap Arrivals.all).Pairwise fun a b => a.id < b.id

theorem length_messagesOf (rows : List MessageRow) (conversationId : Int) :
    (messagesOf rows conversationId).length =
      (rows.filter (·.conversationId = conversationId)).length :=
  List.length_insertionSort _ _

/-- What a request answers that is let through. -/
theorem getConversation_eq {conversations : List StoredConversation} {conversationId : Int}
    {currentUser : User} {organizationId : Int} {conversation : StoredConversation}
    (h : Readable conversations conversationId currentUser organizationId conversation)
    (counted read : List MessageRow) (k pageSize : Nat) :
    getConversation conversations counted read conversationId currentUser organizationId (k + 1)
        pageSize =
      .ok (conversationDetail conversation
        (Paging.page pageSize k (messagesOf read conversationId)) (k + 1) pageSize
        (messagesOf counted conversationId).length) := by
  have howned : ¬ (¬ currentUser.isSuperuser ∧ conversation.userId ≠ currentUser.id) := by
    rintro ⟨hsuper, hother⟩
    exact h.owned.elim hsuper hother
  simp only [getConversation, getWithMessages, h.found, if_neg howned, length_messagesOf,
    Nat.add_sub_cancel, Paging.page]

/-! ## What the requests find -/

theorem messagesOf_eq_filter {rows : List MessageRow}
    (h : rows.Pairwise fun a b => a.id < b.id) (conversationId : Int) :
    messagesOf rows conversationId = rows.filter (·.conversationId = conversationId) := by
  have hsorted : (rows.filter (·.conversationId = conversationId)).Pairwise
      fun a b => a.id ≤ b.id := (h.filter _).imp fun hlt => le_of_lt hlt
  exact hsorted.insertionSort_eq

theorem messagesOf_initial {rows more : List MessageRow}
    (h : (rows ++ more).Pairwise fun a b => a.id < b.id) (conversationId : Int) :
    messagesOf rows conversationId <+: messagesOf (rows ++ more) conversationId := by
  rw [messagesOf_eq_filter h, messagesOf_eq_filter (List.pairwise_append.mp h).1,
    List.filter_append]
  exact List.prefix_append _ _

/-- What the requests find of the conversation. -/
def snapshots (conversationId : Int) :
    Nat → List MessageRow → List Arrivals → List (Snapshot MessageRow)
  | 0, _, _ => []
  | requests + 1, rows, schedule =>
      let arrivals := schedule.headD {}
      let counted := rows ++ arrivals.beforeCount
      let read := counted ++ arrivals.beforeRead
      ⟨messagesOf counted conversationId, messagesOf read conversationId⟩ ::
        snapshots conversationId requests read schedule.tail

/-- The rows that arrive around the first request, and those of the rest of the schedule. -/
theorem arrive_eq (rows : List MessageRow) (schedule : List Arrivals) :
    rows ++ (schedule.headD {}).beforeCount ++ (schedule.headD {}).beforeRead ++
        schedule.tail.flatMap Arrivals.all =
      rows ++ schedule.flatMap Arrivals.all := by
  cases schedule with
  | nil => simp
  | cons arrivals schedule => simp [Arrivals.all]

theorem IncreasingIds.arrive {rows : List MessageRow} {schedule : List Arrivals}
    (h : IncreasingIds rows schedule) :
    IncreasingIds (rows ++ (schedule.headD {}).beforeCount ++ (schedule.headD {}).beforeRead)
      schedule.tail := by
  unfold IncreasingIds at *
  rwa [arrive_eq]

/-- The rows at any time of a run have increasing identifiers. -/
theorem IncreasingIds.rows {rows : List MessageRow} {schedule : List Arrivals}
    (h : IncreasingIds rows schedule) : rows.Pairwise fun a b => a.id < b.id :=
  (List.pairwise_append.mp h).1

/-- A snapshot starts from the rows that were there before it. -/
theorem messagesOf_initial_head (conversationId : Int) {rows : List MessageRow}
    {schedule : List Arrivals} (h : IncreasingIds rows schedule) (requests : Nat) :
    ∀ request ∈ (snapshots conversationId requests rows schedule).head?,
      messagesOf rows conversationId <+: request.counted := by
  intro request hrequest
  cases requests with
  | zero => simp [snapshots] at hrequest
  | succ requests =>
      have hall := h.arrive.rows
      rw [snapshots, List.head?_cons, Option.mem_some] at hrequest
      rw [← hrequest]
      exact messagesOf_initial (List.pairwise_append.mp hall).1 conversationId

/-- **What the requests find** is a list that grows. -/
theorem growing_snapshots (conversationId : Int) {rows : List MessageRow}
    {schedule : List Arrivals} (h : IncreasingIds rows schedule) (requests : Nat) :
    Growing (snapshots conversationId requests rows schedule) := by
  induction requests generalizing rows schedule with
  | zero => trivial
  | succ requests ih =>
      refine ⟨messagesOf_initial h.arrive.rows conversationId, ?_, ih h.arrive⟩
      exact messagesOf_initial_head conversationId h.arrive requests

/-- Every list that a request reads has increasing identifiers. -/
theorem increasing_snapshots (conversationId : Int) {rows : List MessageRow}
    {schedule : List Arrivals} (h : IncreasingIds rows schedule) (requests : Nat) :
    ∀ request ∈ snapshots conversationId requests rows schedule,
      request.read.Pairwise fun a b => a.id < b.id := by
  induction requests generalizing rows schedule with
  | zero => simp [snapshots]
  | succ requests ih =>
      intro request hrequest
      rcases List.mem_cons.mp hrequest with rfl | hrequest
      · rw [messagesOf_eq_filter h.arrive.rows]
        exact h.arrive.rows.filter _
      · exact ih h.arrive request hrequest

/-- No request finds more than there is in the end. -/
theorem length_snapshots_le (conversationId : Int) (rows : List MessageRow)
    (schedule : List Arrivals) (requests : Nat) :
    ∀ request ∈ snapshots conversationId requests rows schedule,
      request.counted.length ≤ (rows ++ schedule.flatMap Arrivals.all).length := by
  induction requests generalizing rows schedule with
  | zero => simp [snapshots]
  | succ requests ih =>
      intro request hrequest
      rw [← arrive_eq]
      rcases List.mem_cons.mp hrequest with rfl | hrequest
      · rw [length_messagesOf]
        refine (List.length_filter_le _ _).trans ?_
        simp only [List.length_append]
        omega
      · exact ih _ _ request hrequest

theorem length_snapshots (conversationId : Int) (rows : List MessageRow)
    (schedule : List Arrivals) (requests : Nat) :
    (snapshots conversationId requests rows schedule).length = requests := by
  induction requests generalizing rows schedule with
  | zero => rfl
  | succ requests ih => rw [snapshots, List.length_cons, ih]

/-! ## What the reader gets -/

section Reader

variable {conversations : List StoredConversation} {conversationId : Int} {currentUser : User}
  {organizationId : Int} {conversation : StoredConversation}

/-- The reader is the one of the list that its requests find. -/
theorem readConversation_eq
    (haccess : Readable conversations conversationId currentUser organizationId conversation)
    (pageSize requests k : Nat) (rows : List MessageRow) (schedule : List Arrivals) :
    readConversation conversations conversationId currentUser organizationId pageSize requests
        (k + 1) rows schedule =
      .ok ((readPages pageSize (snapshots conversationId requests rows schedule) k).map
        (·.map messageToSchema)) := by
  induction requests generalizing k rows schedule with
  | zero => rfl
  | succ requests ih =>
      simp only [readConversation, getConversation_eq haccess, snapshots, readPages]
      by_cases hcovered : (messagesOf (rows ++ (schedule.headD {}).beforeCount)
          conversationId).length ≤ (k + 1) * pageSize
      · rw [if_pos hcovered]
        exact if_pos hcovered
      · rw [if_neg hcovered]
        refine (if_neg hcovered).trans ?_
        rw [ih]
        cases readPages pageSize (snapshots conversationId requests _ schedule.tail) (k + 1) with
        | none => rfl
        | some rest => exact congrArg (Except.ok ∘ some) (List.map_append ..).symm

/-- What has been read when the reader ends starts with the messages of the first request, and
    has increasing identifiers. -/
theorem spec_of_readPages {pageSize requests : Nat} {rows : List MessageRow}
    {schedule : List Arrivals} (hids : IncreasingIds rows schedule) {out : List MessageRow}
    (h : readPages pageSize (snapshots conversationId requests rows schedule) 0 = some out) :
    messagesOf (rows ++ (schedule.headD {}).beforeCount) conversationId <+: out ∧
      out.Pairwise fun a b => a.id < b.id := by
  have hgrow := growing_snapshots conversationId hids requests
  have hincreasing := increasing_snapshots conversationId hids requests
  cases requests with
  | zero => simp [snapshots, readPages] at h
  | succ requests =>
      obtain ⟨last, hlast, -, hfirst, hend⟩ := Paging.readPages_spec hgrow h
      rw [Nat.zero_mul, List.drop_zero] at hfirst hend
      exact ⟨hfirst, (hincreasing last hlast).sublist hend.sublist⟩

/-- With pages that are not empty, the reader ends. -/
theorem exists_readPages {pageSize : Nat} (hsize : 0 < pageSize) (rows : List MessageRow)
    (schedule : List Arrivals) :
    ∃ requests out,
      readPages pageSize (snapshots conversationId requests rows schedule) 0 = some out := by
  set bound := (rows ++ schedule.flatMap Arrivals.all).length with hbound
  have hlength := length_snapshots conversationId rows schedule (bound + 1)
  have henough : bound ≤ (0 + (bound + 1)) * pageSize := by
    have hmul : bound + 1 ≤ (bound + 1) * pageSize := Nat.le_mul_of_pos_right _ hsize
    rw [Nat.zero_add]
    omega
  refine ⟨bound + 1, Option.isSome_iff_exists.mp (Paging.readPages_isSome ?_
    (length_snapshots_le conversationId rows schedule (bound + 1)) ?_)⟩
  · intro hnil
    rw [hnil, List.length_nil] at hlength
    omega
  · rwa [hlength]

/-- **Pagination is lossless.** A reader of the pages 1, 2, and so on gets every message that
    was there at its first request, in the order of the identifiers, and no message twice,
    whatever is appended meanwhile; and it ends when the appending does. -/
theorem readConversation_lossless
    (haccess : Readable conversations conversationId currentUser organizationId conversation)
    {rows : List MessageRow} {schedule : List Arrivals} (hids : IncreasingIds rows schedule)
    (pageSize : Nat) :
    (∀ requests read,
      readConversation conversations conversationId currentUser organizationId pageSize requests
          1 rows schedule = .ok (some read) →
        (messagesOf (rows ++ (schedule.headD {}).beforeCount) conversationId).map
            messageToSchema <+: read ∧
          read.Pairwise fun a b => a.id < b.id) ∧
      (0 < pageSize → ∃ requests read,
        readConversation conversations conversationId currentUser organizationId pageSize
          requests 1 rows schedule = .ok (some read)) := by
  constructor
  · intro requests read h
    rw [readConversation_eq haccess pageSize requests 0, Except.ok.injEq,
      Option.map_eq_some_iff] at h
    obtain ⟨out, hout, rfl⟩ := h
    obtain ⟨hfirst, hincreasing⟩ := spec_of_readPages hids hout
    exact ⟨hfirst.map _, List.pairwise_map.mpr hincreasing⟩
  · intro hsize
    obtain ⟨requests, out, hout⟩ := exists_readPages hsize rows schedule
    refine ⟨requests, out.map messageToSchema, ?_⟩
    rw [readConversation_eq haccess pageSize requests 0, hout]
    rfl

end Reader

/-! ## A conversation that grows while it is read -/

def ownConversation : StoredConversation where
  id := 7
  organizationId := 1
  agentId := 3
  userId := 5
  title := "Support"
  runtimeVersion := "runtime_v1"
  createdAt := "2026-08-02T00:00:00"
  updatedAt := "2026-08-02T00:00:00"

def numberedRow (id : Int) : MessageRow where
  toMessage := Chat.userMessage 7 "Hello"
  id := id
  createdAt := "2026-08-02T00:00:00"

def owner : User where
  id := 5

def threeRows : List MessageRow :=
  [numberedRow 1, numberedRow 2, numberedRow 3]

/-- One message arrives while the first page is read, one before the second. -/
def twoArrivals : List Arrivals :=
  [{ beforeRead := [numberedRow 4] }, { beforeCount := [numberedRow 6] }]

theorem readConversation_lossless_growing :
    ∃ read, readConversation [ownConversation] 7 owner 1 2 3 1 threeRows twoArrivals =
        .ok (some read) ∧
      read.map MessageSchema.id = [1, 2, 3, 4, 6] ∧ threeRows.map messageToSchema <+: read ∧
      read.Pairwise fun a b => a.id < b.id := by
  have haccess : Readable [ownConversation] 7 owner 1 ownConversation :=
    ⟨by decide, by decide⟩
  have hids : IncreasingIds threeRows twoArrivals := by
    simp [IncreasingIds, threeRows, twoArrivals, Arrivals.all, numberedRow]
  have hread : readConversation [ownConversation] 7 owner 1 2 3 1 threeRows twoArrivals =
      .ok (some ([1, 2, 3, 4, 6].map fun id => messageToSchema (numberedRow id))) := by
    rfl
  obtain ⟨hfirst, hincreasing⟩ := (readConversation_lossless haccess hids 2).1 3 _ hread
  exact ⟨_, hread, rfl, hfirst, hincreasing⟩

end AgentCorp.ChatService
