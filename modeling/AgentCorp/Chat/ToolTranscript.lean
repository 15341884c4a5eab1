/-
  The transcript of a turn with tool calls, as Groq is sent it.

  A follow-up should show the provider the calls that it made, followed by one result for each.
  The internal message has no field for calls, so the provider's own message loses them, and
  the loop has a single round, so that the calls of the second response are never executed.

  * `toolResults_followup`: one result for each call, in order.
  * `transcript_iff`: the turns whose transcript is well formed.
-/
import AgentCorp.Chat.ChatRequests
import AgentCorp.Providers.Groq

namespace AgentCorp.ChatService

open AgentCorp.Python AgentCorp.Chat AgentCorp.Tools
open AgentCorp.Providers (ToolCall ChatResponse WireMessage buildMessage buildMessages
  not_carries_buildMessage resultOf_buildMessage)

/-! ## Well-formed transcripts -/

/-- Every result comes after an assistant's message that makes its call. -/
def Answered (wire : List WireMessage) : Prop :=
  ∀ before message after, wire = before ++ message :: after →
    ∀ callId, message.resultOf = some callId → ∃ call ∈ before, call.Carries callId

/-- The calls whose results are shown. -/
def toolResults (wire : List WireMessage) : List String :=
  wire.filterMap WireMessage.resultOf

/-- The follow-up to a response shows its calls and one result for each, in order. -/
def ShowsResults (response : ChatResponse) (followup : ChatRequest) : Prop :=
  Answered (buildMessages followup.messages) ∧
    toolResults (buildMessages followup.messages) = response.toolCalls.map ToolCall.id

/-- A turn begins: nothing was sent, answered or executed. -/
def ChatState.begin (s : ChatState) : ChatState :=
  { s with requests := [], responses := [], executed := [] }

/-- The transcript of a turn that began with some stored messages: every follow-up shows the
    results of the response before it, and once the answer is stored every call was executed. -/
def TranscriptOk (stored : List Message) (t : ChatState) : Prop :=
  (∀ k followup response, t.requests[k + 1]? = some followup → t.responses[k]? = some response →
    ShowsResults response followup.1) ∧
  ((∃ message ∈ t.messages.drop stored.length, message.role = "assistant") →
    ∀ response ∈ t.responses, ∀ call ∈ response.toolCalls, toolRequest call ∈ t.executed)

/-! ## What a follow-up shows -/

/-- No message shows a call, so a transcript without dangling results has none. -/
theorem toolResults_of_answered {messages : List ChatMessage}
    (h : Answered (buildMessages messages)) : toolResults (buildMessages messages) = [] := by
  refine List.filterMap_eq_nil_iff.mpr fun message hmessage => ?_
  cases hresult : message.resultOf with
  | none => rfl
  | some callId =>
      obtain ⟨before, after, hsplit⟩ := List.append_of_mem hmessage
      obtain ⟨call, hcall, hcarries⟩ := h before message after hsplit callId hresult
      have hin : call ∈ buildMessages messages := by
        rw [hsplit]
        exact List.mem_append_left _ hcall
      obtain ⟨source, -, rfl⟩ := List.mem_map.mp hin
      exact absurd hcarries (not_carries_buildMessage source callId)

theorem toolResults_append (messages results : List ChatMessage) :
    toolResults (buildMessages (messages ++ results)) =
      toolResults (buildMessages messages) ++ toolResults (buildMessages results) := by
  unfold toolResults buildMessages
  rw [List.map_append, List.filterMap_append]

/-- Messages that answer no call show no results. -/
theorem toolResults_of_none {messages : List ChatMessage}
    (h : ∀ message ∈ messages, message.toolCallId = none) :
    toolResults (buildMessages messages) = [] := by
  refine List.filterMap_eq_nil_iff.mpr fun wire hwire => ?_
  obtain ⟨message, hmessage, rfl⟩ := List.mem_map.mp hwire
  rw [resultOf_buildMessage, h message hmessage]
  split <;> rfl

/-- The messages of the results show one result each, in order. -/
theorem toolResults_toolMessages {results : List ToolCallResult}
    (h : ∀ result ∈ results, result.callId ≠ "") :
    toolResults (buildMessages (results.map toolMessage)) = results.map ToolCallResult.callId := by
  induction results with
  | nil => rfl
  | cons result rest ih =>
      obtain ⟨hfirst, hrest⟩ := List.forall_mem_cons.mp h
      have hresult : (buildMessage (toolMessage result)).resultOf = some result.callId := by
        rw [resultOf_buildMessage]
        simp [toolMessage, nonempty, hfirst]
      show (buildMessage (toolMessage result) :: buildMessages (rest.map toolMessage)).filterMap
        WireMessage.resultOf = _
      rw [List.filterMap_cons_some hresult, List.map_cons]
      exact congrArg _ (ih hrest)

/-- A batch answers the calls of the response, in order. -/
theorem callIds_of_batch {env : Nat → ToolEnv} {organizationId agentId conversationId : Int}
    {calls : List ToolCall} {batch : ToolExecutionResult}
    (h : executeBatch env (calls.map toolRequest) organizationId agentId conversationId =
      .ok batch) : batch.results.map ToolCallResult.callId = calls.map ToolCall.id := by
  have hpairs := congrArg (List.map Prod.fst) (executeBatch_ok h)
  simpa [List.map_map, Function.comp_def, toolRequest] using hpairs

/-- The results are shown, though: one for each call, in order. -/
theorem toolResults_followup {env : Nat → ToolEnv} {organizationId agentId conversationId : Int}
    {request : ChatRequest} {response : ChatResponse} {batch : ToolExecutionResult}
    (hbatch : executeBatch env (response.toolCalls.map toolRequest) organizationId agentId
      conversationId = .ok batch)
    (hrequest : ∀ message ∈ request.messages, message.toolCallId = none)
    (hresponse : response.message.toolCallId = none)
    (hids : ∀ call ∈ response.toolCalls, call.id ≠ "") :
    toolResults (buildMessages (followupRequest request response batch.results).messages) =
      response.toolCalls.map ToolCall.id := by
  have hcallIds := callIds_of_batch hbatch
  have hresults : ∀ result ∈ batch.results, result.callId ≠ "" := by
    intro result hresult
    obtain ⟨call, hcall, heq⟩ :=
      List.mem_map.mp (hcallIds ▸ List.mem_map_of_mem hresult : result.callId ∈ _)
    exact heq ▸ hids call hcall
  have hmessage : ∀ message ∈
      (if response.message.content = "" then [] else [response.message]),
      message.toolCallId = none := by
    intro message hin
    split at hin
    · exact absurd hin List.not_mem_nil
    · rw [List.mem_singleton.mp hin]
      exact hresponse
  unfold followupRequest
  dsimp only
  rw [toolResults_append, toolResults_append, toolResults_of_none hrequest,
    toolResults_of_none hmessage, toolResults_toolMessages hresults, hcallIds]
  rfl

/-- A follow-up to a response with calls does not show them. -/
theorem not_showsResults {response : ChatResponse} (h : response.toolCalls ≠ [])
    (followup : ChatRequest) : ¬ ShowsResults response followup := by
  rintro ⟨hanswered, hresults⟩
  rw [toolResults_of_answered hanswered] at hresults
  exact h (List.map_eq_nil_iff.mp hresults.symm)

/-! ## The turns whose transcript is well formed -/

section Transcript

variable (env : ChatEnv) (conversation : Conversation) (agent : Agent)

/-- The part of a turn that ends with the provider's first response. -/
def firstAnswer (userMessage : String) (overrides : Overrides) (persistUserMessage : Bool) :
    Py ChatState (ChatRequest × ChatResponse) := do
  let request ← prepareRequest env conversation agent userMessage overrides persistUserMessage
  let response ← executeProvider env request overrides.provider
  return (request, response)

/-- A turn is its first answer and what is made of it. -/
theorem executeAndPersist_eq (userMessage : String) (overrides : Overrides)
    (persistUserMessage : Bool) :
    executeAndPersist env conversation agent userMessage overrides persistUserMessage =
      firstAnswer env conversation agent userMessage overrides persistUserMessage >>=
        fun (request, response) =>
          finishTurn env conversation agent overrides.provider request response := by
  unfold executeAndPersist firstAnswer answerRequest
  simp only [bind_assoc, pure_bind]

/-- What the first answer leaves behind. -/
theorem firstAnswer_state {userMessage : String} {overrides : Overrides}
    {persistUserMessage : Bool} {s t : ChatState} {request : ChatRequest}
    {response : ChatResponse}
    (h : (firstAnswer env conversation agent userMessage overrides persistUserMessage).run
      s.begin = .ok (request, response) t) :
    ∃ added, (∀ message ∈ added, message.role = "user") ∧
      t = { s.begin with
        messages := s.messages ++ added
        requests := [(request, overrides.provider)]
        responses := [response] } := by
  obtain ⟨added, hadded, hrun⟩ := prepareRequest_run env conversation agent userMessage overrides
    persistUserMessage s.begin
  unfold firstAnswer at h
  rw [EStateM.run_bind, hrun] at h
  cases hprepared : prepared env conversation agent userMessage overrides persistUserMessage
      s.begin.messages with
  | error raised => simp [hprepared] at h
  | ok prepared =>
      simp only [hprepared] at h
      rw [EStateM.run_bind] at h
      cases hprovider : (executeProvider env prepared overrides.provider).run
          { s.begin with messages := s.begin.messages ++ added } with
      | error raised u => simp [hprovider] at h
      | ok response' u =>
          simp only [hprovider] at h
          obtain ⟨hpair, rfl⟩ := EStateM.Result.ok.inj h
          obtain ⟨rfl, rfl⟩ := Prod.mk.inj hpair
          refine ⟨added, fun message hmessage => ?_, executeProvider_ok env _ hprovider⟩
          rw [hadded message hmessage]
          rfl

/-- The provider asks for no tool; or a tool call is interrupted before the follow-up; or there
    are no tools, and the answer is not stored either. -/
def NothingLost (response : ChatResponse) : Prop :=
  response.toolCalls = [] ∨
    (env.hasTools ∧ Interrupted env.tools (response.toolCalls.map toolRequest)
      conversation.organizationId agent.id conversation.id) ∨
    (¬ env.hasTools ∧ ¬ env.assistantWrite.stored)

/-- A turn that ends without a follow-up or an answer has lost nothing yet. -/
theorem transcriptOk_of_unanswered {stored added : List Message} {t : ChatState}
    {request : ChatRequest × Option String} (hadded : ∀ message ∈ added, message.role = "user")
    (hmessages : t.messages = stored ++ added) (hrequests : t.requests = [request]) :
    TranscriptOk stored t := by
  refine ⟨fun k followup response hk => ?_, ?_⟩
  · rw [hrequests] at hk
    simp at hk
  · rintro ⟨message, hmessage, hrole⟩
    rw [hmessages, List.drop_left] at hmessage
    rw [hadded message hmessage] at hrole
    exact absurd hrole (by decide)

/-- Without a follow-up, the answer may be stored if no call was made. -/
theorem transcriptOk_of_noCalls {stored : List Message} {t : ChatState}
    {request : ChatRequest × Option String} {response : ChatResponse}
    (hrequests : t.requests = [request]) (hresponses : t.responses = [response])
    (hcalls : response.toolCalls = []) : TranscriptOk stored t := by
  refine ⟨fun k followup _ hk => ?_, fun _ other hother call hcall => ?_⟩
  · rw [hrequests] at hk
    simp at hk
  · rw [hresponses] at hother
    rw [List.mem_singleton.mp hother, hcalls] at hcall
    exact absurd hcall List.not_mem_nil

section Finish

variable {providerOverride : Option String} {request : ChatRequest} {response : ChatResponse}
  (s : ChatState)

/-- Without calls or without tools, the answer is stored as it is. -/
theorem finishTurn_answered (h : ¬ (response.toolCalls ≠ [] ∧ env.hasTools)) :
    Proc.after (finishTurn env conversation agent providerOverride request response) s =
      { s with messages := s.messages ++
          if env.assistantWrite.stored then
            [(reply conversation response providerOverride).message] else [] } := by
  unfold finishTurn resolveTools
  rw [if_neg h]
  show Proc.after (onMessages _ >>= fun _ => pure _) s = _
  rw [Proc.after_bind_pure, onMessages_create_after]

/-- With calls and tools, the batch is executed. -/
theorem finishTurn_tools (h : response.toolCalls ≠ [] ∧ env.hasTools) :
    finishTurn env conversation agent providerOverride request response = (do
      let batch ← executeTools env conversation agent (response.toolCalls.map toolRequest)
      let response ← providerChat env (followupRequest request response batch.results)
        providerOverride
      persistAnswer env conversation response providerOverride) := by
  obtain ⟨call, rest, hcalls⟩ := List.exists_cons_of_ne_nil h.1
  unfold finishTurn resolveTools executeToolLoop
  rw [if_pos h, hcalls, List.map_cons]
  simp only [bind_assoc]

/-- An interrupted batch ends the turn. -/
theorem finishTurn_interrupted (h : response.toolCalls ≠ [] ∧ env.hasTools)
    (hinterrupted : Interrupted env.tools (response.toolCalls.map toolRequest)
      conversation.organizationId agent.id conversation.id) :
    Proc.after (finishTurn env conversation agent providerOverride request response) s = s := by
  obtain ⟨raised, hraised⟩ := executeBatch_error_iff.mpr hinterrupted
  rw [finishTurn_tools env conversation agent h]
  unfold executeTools
  rw [hraised]
  rfl

variable (providerOverride request) in
/-- Otherwise the provider is sent a follow-up. -/
theorem finishTurn_followup (h : response.toolCalls ≠ [] ∧ env.hasTools)
    (hinterrupted : ¬ Interrupted env.tools (response.toolCalls.map toolRequest)
      conversation.organizationId agent.id conversation.id) :
    ∃ followup,
      s.requests ++ [followup] <+:
        (Proc.after (finishTurn env conversation agent providerOverride request response)
          s).requests ∧
      s.responses <+:
        (Proc.after (finishTurn env conversation agent providerOverride request response)
          s).responses := by
  cases hbatch : executeBatch env.tools (response.toolCalls.map toolRequest)
      conversation.organizationId agent.id conversation.id with
  | error raised => exact absurd (executeBatch_error_iff.mp ⟨raised, hbatch⟩) hinterrupted
  | ok batch =>
      let followup := followupRequest request response batch.results
      let s' := { s with executed := s.executed ++ response.toolCalls.map toolRequest }
      have hrun : (executeTools env conversation agent
          (response.toolCalls.map toolRequest)).run s = .ok batch s' := by
        unfold executeTools
        rw [hbatch]
        rfl
      refine ⟨(followup, providerOverride), ?_⟩
      rw [finishTurn_tools env conversation agent h, Proc.after_bind, hrun]
      dsimp only
      rw [Proc.after_bind, providerChat_run]
      cases env.chat s'.requests.length followup providerOverride with
      | error raised => exact ⟨List.prefix_refl _, List.prefix_refl _⟩
      | ok response' =>
          have hkept := persistAnswer_remembers env conversation response' providerOverride
            { s' with
              requests := s'.requests ++ [(followup, providerOverride)]
              responses := s'.responses ++ [response'] }
          exact ⟨hkept.1, (List.prefix_append _ _).trans hkept.2⟩

end Finish

/-- The tool that the provider calls below. -/
def echoCall : ToolCall where
  id := "call_1"
  name := "echo"
  arguments := [("message", .str "Hi")]

def echoResponse : ChatResponse where
  model := "llama"
  message := { role := .assistant, content := "" }
  toolCalls := [echoCall]

def doneResponse : ChatResponse where
  model := "llama"
  message := { role := .assistant, content := "Done." }

/-- A provider that calls a tool, is handed the result, and answers. -/
def echoChat : ChatEnv :=
  { quietChat with
    collaborators := ⟨some ⟨fun _ => .ok [], fun _ => .ok none, []⟩, none, none, none⟩
    chat := fun n _ _ => .ok (if n = 0 then echoResponse else doneResponse)
    tools := fun _ => ⟨fun _ => .ok ⟨true, none, none⟩, fun _ => .ok 1, fun _ _ => .ok "Hi"⟩ }

/-- The turn in which the provider calls the tool. -/
def echoTurn : ChatState :=
  Proc.after (executeAndPersist echoChat quietConversation quietAgent "Hi" {} true)
    emptyConversation.begin

/-- The provider is handed the result of a call that no message before it makes. -/
theorem echoTurn_not_transcriptOk :
    echoTurn.requests.map (fun request => buildMessages request.1.messages) =
      [[[("role", .text "user"), ("content", .text "Hi")]],
        [[("role", .text "user"), ("content", .text "Hi")],
          [("role", .text "tool"), ("content", .text "Hi"), ("name", .text "echo"),
            ("tool_call_id", .text "call_1")]]] ∧
    ¬ TranscriptOk [] echoTurn := by
  refine ⟨by decide +kernel, fun hok => ?_⟩
  have hresponse : echoTurn.responses[0]? = some echoResponse := by decide +kernel
  cases hfollowup : echoTurn.requests[0 + 1]? with
  | none => exact absurd hfollowup (by decide +kernel)
  | some followup =>
      exact not_showsResults (by decide) followup.1 (hok.1 0 followup _ hfollowup hresponse)

/-- **Tool transcripts.** After a first response of the provider, the transcript of a turn is
    well formed exactly if nothing was lost. -/
theorem transcript_iff {userMessage : String} {overrides : Overrides} {persistUserMessage : Bool}
    {s t : ChatState} {request : ChatRequest} {response : ChatResponse}
    (h : (firstAnswer env conversation agent userMessage overrides persistUserMessage).run
      s.begin = .ok (request, response) t) :
    TranscriptOk s.messages (Proc.after
        (executeAndPersist env conversation agent userMessage overrides persistUserMessage)
        s.begin) ↔
      NothingLost env conversation agent response := by
  obtain ⟨added, hadded, rfl⟩ := firstAnswer_state env conversation agent h
  rw [executeAndPersist_eq, Proc.after_bind, h]
  dsimp only
  unfold NothingLost
  by_cases hloop : response.toolCalls ≠ [] ∧ env.hasTools
  · by_cases hinterrupted : Interrupted env.tools (response.toolCalls.map toolRequest)
        conversation.organizationId agent.id conversation.id
    · rw [finishTurn_interrupted env conversation agent _ hloop hinterrupted]
      exact iff_of_true (transcriptOk_of_unanswered hadded rfl rfl)
        (.inr (.inl ⟨hloop.2, hinterrupted⟩))
    · refine iff_of_false (fun hok => ?_) ?_
      · obtain ⟨followup, hrequests, hresponses⟩ := finishTurn_followup env conversation agent
          overrides.provider request _ hloop hinterrupted
        obtain ⟨more, hmore⟩ := hrequests
        obtain ⟨others, hothers⟩ := hresponses
        refine not_showsResults hloop.1 followup.1 (hok.1 0 followup response ?_ ?_)
        · rw [← hmore]
          rfl
        · rw [← hothers]
          rfl
      · rintro (hcalls | ⟨-, hin⟩ | ⟨hnone, -⟩)
        · exact hloop.1 hcalls
        · exact hinterrupted hin
        · exact hnone hloop.2
  · rw [finishTurn_answered env conversation agent _ hloop]
    by_cases hcalls : response.toolCalls = []
    · exact iff_of_true (transcriptOk_of_noCalls rfl rfl hcalls) (.inl hcalls)
    · have hnone : ¬ env.hasTools := fun htools => hloop ⟨hcalls, htools⟩
      by_cases hstored : env.assistantWrite.stored
      · refine iff_of_false (fun hok => ?_) ?_
        · obtain ⟨call, rest, hcall⟩ := List.exists_cons_of_ne_nil hcalls
          refine absurd (hok.2 ⟨(reply conversation response overrides.provider).message, ?_, rfl⟩
            response (List.mem_singleton_self _) call (by rw [hcall]; exact List.mem_cons_self))
            List.not_mem_nil
          rw [if_pos hstored, List.append_assoc, List.drop_left]
          exact List.mem_append_right _ (List.mem_singleton_self _)
        · rintro (hnil | ⟨htools, -⟩ | ⟨-, hnot⟩)
          · exact hcalls hnil
          · exact hnone htools
          · exact hnot hstored
      · rw [if_neg hstored, List.append_nil]
        exact iff_of_true (transcriptOk_of_unanswered hadded rfl rfl)
          (.inr (.inr ⟨hnone, hstored⟩))

end Transcript

/-- The same provider, where the tool is cancelled while it runs. -/
def cancelledChat : ChatEnv :=
  { echoChat with
    tools := fun _ =>
      ⟨fun _ => .ok ⟨true, none, none⟩, fun _ => .ok 1, fun _ _ => .error (.other .cancelledError)⟩ }

/-- The turn ends with the call, before anything could lose it. -/
theorem cancelledTurn_transcriptOk :
    TranscriptOk [] (Proc.after (executeAndPersist cancelledChat quietConversation quietAgent "Hi"
      {} true) emptyConversation.begin) := by
  have hcancelled : Interrupted cancelledChat.tools (echoResponse.toolCalls.map toolRequest)
      quietConversation.organizationId quietAgent.id quietConversation.id :=
    executeBatch_error_iff.mp ⟨.cancelledError, by decide +kernel⟩
  exact (@transcript_iff cancelledChat quietConversation quietAgent "Hi" {} true emptyConversation _
    (hiRequest [{ role := .user, content := "Hi" }]) echoResponse
    (Proc.run_of_outcome (by decide +kernel))).mpr (.inr (.inl ⟨rfl, hcancelled⟩))

end AgentCorp.ChatService
