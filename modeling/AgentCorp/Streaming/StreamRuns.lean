/-
  Every run of `StreamingService._execute_stream`, and what all of them have in common.

  `Ending` lists the ways a run can end, with the rows, the counter calls and the events that
  it leaves. The consumer can close the generator at any event; after a terminal one that
  changes nothing any more.

  * `executeStream_ending`: every run ends in one of these ways.
  * `executeStream_accounts_iff`: exactly when a run is counted once.
  * `executeStream_persists`: which assistant message is stored, and what was yielded.
-/
import AgentCorp.Streaming.StreamingService

namespace AgentCorp.Streaming

open AgentCorp.Python AgentCorp.Chat
open AgentCorp.Runtime (StreamingChatRequest)

/-! ## Handlers -/

/-- The counter calls of the outer handlers. -/
def failureOps : BaseExn → List CounterOp
  | .exception (.http _ _) => [.decrement]
  | .exception _ => [.failed, .decrement]
  | _ => []

/-- Their event, as the `n`-th one. -/
def failureEvents (env : StreamEnv) (n : Nat) : BaseExn → List StreamEvent
  | .exception (.http _ _) => []
  | .exception _ =>
      [.error "An unexpected error occurred during streaming." "internal_error" (env.now n)]
  | _ => []

/-- The counter calls of the handlers around the provider's stream. -/
def interruptOps : BaseExn → List CounterOp
  | .generatorExit => [.cancelled, .decrement]
  | .exception _ => [.failed, .decrement]
  | .cancelledError => []

def interruptEvents (env : StreamEnv) (n : Nat) : BaseExn → List StreamEvent
  | .exception exc => [.error exc.text "provider_streaming_error" (env.now n)]
  | _ => []

theorem handleFailure_after (env : StreamEnv) (raised : BaseExn) (s : StreamState) :
    Proc.after (handleFailure env raised) s =
      { s with
        counterOps := s.counterOps ++ failureOps raised
        yielded := s.yielded ++ failureEvents env s.yielded.length raised } := by
  unfold handleFailure
  cases raised with
  | exception exc =>
      cases exc <;>
        simp [failureOps, failureEvents, Proc.after_bind, yieldEvent_after]
  | cancelledError => simp [failureOps, failureEvents]
  | generatorExit => simp [failureOps, failureEvents]

/-- What the outer handlers do not catch goes through them. -/
theorem after_unhandled (env : StreamEnv) {p : Py StreamState Unit} {s : StreamState}
    (h : ∀ exc t, p.run s ≠ .error (.exception exc) t) :
    Proc.after (tryCatch p (handleFailure env)) s = Proc.after p s := by
  rw [Proc.after_tryCatch]
  unfold Proc.after
  cases hrun : p.run s with
  | ok _ t => rfl
  | error raised t =>
      cases raised with
      | exception exc => exact absurd hrun (h exc t)
      | cancelledError => rfl
      | generatorExit => rfl

theorem handleInterrupt_after (env : StreamEnv) (raised : BaseExn) (s : StreamState) :
    Proc.after (handleInterrupt env raised) s =
      { s with
        counterOps := s.counterOps ++ interruptOps raised
        yielded := s.yielded ++ interruptEvents env s.yielded.length raised } := by
  unfold handleInterrupt
  cases raised with
  | exception exc => simp [interruptOps, interruptEvents, Proc.after_bind, yieldEvent_after]
  | cancelledError => simp [interruptOps, interruptEvents]
  | generatorExit => simp [interruptOps, interruptEvents, Proc.after]

/-- These handlers go on to no further step, and raise no `Exception`. -/
theorem handleInterrupt_ends (env : StreamEnv) (raised : BaseExn) (s : StreamState) :
    (∃ t, (handleInterrupt env raised).run s = .ok none t) ∨
      ∃ raised' t, (∀ exc, raised' ≠ .exception exc) ∧
        (handleInterrupt env raised).run s = .error raised' t := by
  unfold handleInterrupt
  cases raised with
  | exception exc =>
      simp only [EStateM.run_bind, count_run, yieldEvent_run]
      by_cases hcloses : env.closes s.yielded.length
      · rw [if_pos hcloses]
        exact .inr ⟨.generatorExit, _, by simp, rfl⟩
      · rw [if_neg hcloses]
        exact .inl ⟨_, rfl⟩
  | cancelledError => exact .inr ⟨.cancelledError, s, by simp, rfl⟩
  | generatorExit => exact .inl ⟨_, rfl⟩

/-! ## Endings -/

section Ending

variable (env : StreamEnv) (payload : StreamingChatRequest) (conversation : Conversation)
  (agent : Agent) (rows : List Message)

/-- The provider's stream for a request. -/
def providerStream (request : ChatRequest) : ChunkStream :=
  env.streamChat request payload.provider

/-- The local variables after all chunks of the stream. -/
def finalLocals (request : ChatRequest) : StreamLocals :=
  (StreamLocals.start payload agent).after (providerStream env payload request).chunks

/-- The consumer closes the generator at a token event. -/
def ClosedEarly (request : ChatRequest) : Prop :=
  ClosesIn env 0 (tokens (providerStream env payload request).chunks).length

/-- The ways a run that starts with `rows` can end, and the state that it leaves. -/
inductive Ending : StreamState → Prop
  | unprepared (raised : BaseExn) (added : List Message)
      (hprepared : prepared env payload conversation agent rows = .error raised)
      (hadded : ∀ message ∈ added, message = userMessage conversation.id payload.message) :
      Ending ⟨rows ++ added, .increment :: failureOps raised, failureEvents env 0 raised⟩
  | interrupted (request : ChatRequest) (raised : BaseExn) (events : List StreamEvent)
      (hprepared : prepared env payload conversation agent rows = .ok request)
      (hraised : (ClosedEarly env payload request ∧ raised = .generatorExit) ∨
        (¬ ClosedEarly env payload request ∧
          (providerStream env payload request).ending = .error raised))
      (hevents : ∀ event ∈ events, event.tokenText.isSome) :
      Ending ⟨rows ++ [userMessage conversation.id payload.message],
        .increment :: interruptOps raised,
        events ++ interruptEvents env events.length raised⟩
  | unsaved (request : ChatRequest) (exc : Exn) (events : List StreamEvent)
      (l : StreamLocals) (hl : l = finalLocals env payload agent request)
      (hprepared : prepared env payload conversation agent rows = .ok request)
      (hopen : ¬ ClosedEarly env payload request)
      (hending : (providerStream env payload request).ending = .ok ())
      (hwrite : env.assistantWrite.result = .error exc)
      (hevents : ∀ event ∈ events, event.tokenText.isSome)
      (htokens : events.filterMap StreamEvent.tokenText =
        tokens (providerStream env payload request).chunks) :
      Ending ⟨rows ++ userMessage conversation.id payload.message ::
          (if env.assistantWrite.stored then [assistantMessage conversation l] else []),
        .increment :: failureOps (.exception exc),
        events ++ failureEvents env events.length (.exception exc)⟩
  | completed (request : ChatRequest) (events : List StreamEvent)
      (l : StreamLocals) (hl : l = finalLocals env payload agent request)
      (hprepared : prepared env payload conversation agent rows = .ok request)
      (hopen : ¬ ClosedEarly env payload request)
      (hending : (providerStream env payload request).ending = .ok ())
      (hwrite : env.assistantWrite.result = .ok ())
      (hevents : ∀ event ∈ events, event.tokenText.isSome)
      (htokens : events.filterMap StreamEvent.tokenText =
        tokens (providerStream env payload request).chunks) :
      Ending ⟨rows ++
          [userMessage conversation.id payload.message, assistantMessage conversation l],
        [.increment, .completed env.elapsed l.tokensSent, .decrement],
        events ++ [.done l.finishReason l.finalUsage env.elapsed l.tokensSent]⟩

end Ending

theorem receiveTokens_exhausted {env : StreamEnv} {l l' : StreamLocals} {stream : ChunkStream}
    {s t : StreamState} (h : (consumeStream env l stream).run s = .ok l' t) :
    (receiveTokens env l stream).run s = .ok (some l') t := by
  have hmap : (some <$> consumeStream env l stream).run s = .ok (some l') t := by
    rw [Proc.run_map, h]
  unfold receiveTokens
  rw [Proc.run_tryCatch, hmap]

theorem receiveTokens_interrupted {env : StreamEnv} {l : StreamLocals} {stream : ChunkStream}
    {raised : BaseExn} {s t : StreamState}
    (h : (consumeStream env l stream).run s = .error raised t) :
    (receiveTokens env l stream).run s = (handleInterrupt env raised).run t := by
  have hmap : (some <$> consumeStream env l stream).run s = .error raised t := by
    rw [Proc.run_map, h]
  unfold receiveTokens
  rw [Proc.run_tryCatch, hmap]

/-- A stream that is interrupted: the handlers around it have the last word. -/
theorem streamSteps_interrupted {env : StreamEnv} {payload : StreamingChatRequest}
    {conversation : Conversation} {agent : Agent} {request : ChatRequest} {raised : BaseExn}
    {s t u : StreamState}
    (hprepare : (prepareRequest env payload conversation agent).run s = .ok request t)
    (hstream : (consumeStream env (.start payload agent) (providerStream env payload request)).run
      t = .error raised u) :
    Proc.after (tryCatch (streamSteps env payload conversation agent) (handleFailure env)) s =
      { u with
        counterOps := u.counterOps ++ interruptOps raised
        yielded := u.yielded ++ interruptEvents env u.yielded.length raised } := by
  have hreceive : (receiveTokens env (.start payload agent)
      (env.streamChat request payload.provider)).run t = (handleInterrupt env raised).run u :=
    receiveTokens_interrupted hstream
  have hafter := handleInterrupt_after env raised u
  unfold Proc.after at hafter
  rw [after_unhandled env]
  · unfold streamSteps Proc.after
    rw [EStateM.run_bind, hprepare]
    dsimp only
    rw [EStateM.run_bind, hreceive]
    rcases handleInterrupt_ends env raised u with ⟨v, hrun⟩ | ⟨raised', v, -, hrun⟩
    · rw [hrun] at hafter ⊢
      exact hafter
    · rw [hrun] at hafter ⊢
      exact hafter
  · intro exc v
    unfold streamSteps
    rw [EStateM.run_bind, hprepare]
    dsimp only
    rw [EStateM.run_bind, hreceive]
    rcases handleInterrupt_ends env raised u with ⟨v', hrun⟩ | ⟨raised', v', hno, hrun⟩
    · rw [hrun]
      simp
    · rw [hrun]
      intro heq
      exact hno exc (EStateM.Result.error.inj heq).1

/-- A stream that is exhausted: what follows it decides. -/
theorem streamSteps_exhausted {env : StreamEnv} {payload : StreamingChatRequest}
    {conversation : Conversation} {agent : Agent} {request : ChatRequest} {l : StreamLocals}
    {s t u : StreamState}
    (hprepare : (prepareRequest env payload conversation agent).run s = .ok request t)
    (hstream : (consumeStream env (.start payload agent) (providerStream env payload request)).run
      t = .ok l u) :
    (streamSteps env payload conversation agent).run s =
      (finishStream env conversation l).run u := by
  have hreceive : (receiveTokens env (.start payload agent)
      (env.streamChat request payload.provider)).run t = .ok (some l) u :=
    receiveTokens_exhausted hstream
  unfold streamSteps
  rw [EStateM.run_bind, hprepare]
  dsimp only
  rw [EStateM.run_bind, hreceive]

/-- After an exhausted stream the assistant's message is stored and the run counted, or the
    write fails. -/
theorem finishStream_after (env : StreamEnv) (conversation : Conversation) (l : StreamLocals)
    (s : StreamState) :
    Proc.after (tryCatch (finishStream env conversation l) (handleFailure env)) s =
      match env.assistantWrite.result with
      | .ok () =>
          { rows := s.rows ++ [assistantMessage conversation l]
            counterOps := s.counterOps ++ [.completed env.elapsed l.tokensSent, .decrement]
            yielded := s.yielded ++
              [.done l.finishReason l.finalUsage env.elapsed l.tokensSent] }
      | .error exc =>
          { rows := s.rows ++
              if env.assistantWrite.stored then [assistantMessage conversation l] else []
            counterOps := s.counterOps ++ failureOps (.exception exc)
            yielded := s.yielded ++ failureEvents env s.yielded.length (.exception exc) } := by
  have hwrite := onRows_create_run env.assistantWrite (assistantMessage conversation l) s
  cases hresult : env.assistantWrite.result with
  | error exc =>
      rw [hresult] at hwrite
      have hrun : (finishStream env conversation l).run s = .error (.exception exc)
          { s with rows := s.rows ++
              if env.assistantWrite.stored then [assistantMessage conversation l] else [] } := by
        unfold finishStream
        rw [EStateM.run_bind, hwrite]
      rw [Proc.after_tryCatch, hrun]
      dsimp only
      rw [handleFailure_after]
  | ok _ =>
      rw [hresult] at hwrite
      have hrun : (finishStream env conversation l).run s =
          (yieldEvent env fun _ => .done l.finishReason l.finalUsage env.elapsed
            l.tokensSent).run
            { s with
              rows := s.rows ++ [assistantMessage conversation l]
              counterOps := s.counterOps ++
                [.completed env.elapsed l.tokensSent, .decrement] } := by
        unfold finishStream
        rw [EStateM.run_bind, hwrite]
        simp only [EStateM.run_bind, count_run, List.append_assoc, List.singleton_append]
      rw [after_unhandled env, Proc.after_congr hrun, yieldEvent_after]
      intro exc t
      rw [hrun, yieldEvent_run]
      dsimp only
      split <;> simp

/-- **Every run.** -/
theorem executeStream_ending (env : StreamEnv) (payload : StreamingChatRequest)
    (conversation : Conversation) (agent : Agent) (rows : List Message) :
    Ending env payload conversation agent rows
      (Proc.after (executeStream env payload conversation agent) ⟨rows, [], []⟩) := by
  unfold executeStream
  rw [Proc.after_bind, count_run]
  dsimp only
  rw [List.nil_append]
  obtain ⟨added, hadded, hprepare⟩ := prepareRequest_run env payload conversation agent
    ⟨rows, [.increment], []⟩
  cases hprepared : prepared env payload conversation agent rows with
  | error raised =>
      simp only [hprepared] at hprepare
      have hsteps : (streamSteps env payload conversation agent).run ⟨rows, [.increment], []⟩ =
          .error raised ⟨rows ++ added, [.increment], []⟩ := by
        unfold streamSteps
        rw [EStateM.run_bind, hprepare]
      rw [Proc.after_tryCatch, hsteps]
      dsimp only
      rw [handleFailure_after]
      exact .unprepared raised added hprepared hadded
  | ok request =>
      simp only [hprepared] at hprepare
      obtain ⟨rfl, hprepare⟩ := hprepare
      obtain ⟨events, hevents, ⟨hclosed, hstream⟩ | ⟨hopen, htokens, hstream⟩⟩ :=
        consumeStream_run env (.start payload agent) (providerStream env payload request)
          ⟨rows ++ [userMessage conversation.id payload.message], [.increment], []⟩
      · rw [streamSteps_interrupted hprepare hstream]
        exact .interrupted request .generatorExit events hprepared (.inl ⟨hclosed, rfl⟩) hevents
      · cases hending : (providerStream env payload request).ending with
        | error raised =>
            rw [hending] at hstream
            rw [streamSteps_interrupted hprepare hstream]
            exact .interrupted request raised events hprepared (.inr ⟨hopen, hending⟩) hevents
        | ok _ =>
            rw [hending] at hstream
            have hafter := finishStream_after env conversation
              (finalLocals env payload agent request)
              ⟨rows ++ [userMessage conversation.id payload.message], [.increment], events⟩
            rw [Proc.after_tryCatch] at hafter ⊢
            rw [streamSteps_exhausted hprepare hstream]
            refine Eq.subst hafter.symm ?_
            cases hwrite : env.assistantWrite.result with
            | error exc =>
                dsimp only
                rw [List.append_assoc]
                exact .unsaved request exc events _ rfl hprepared hopen hending hwrite hevents
                  htokens
            | ok _ =>
                dsimp only
                rw [List.append_assoc]
                exact .completed request events _ rfl hprepared hopen hending hwrite hevents htokens

/-! ## Accounting -/

/-- A run is counted once: it raises and lowers the number of active streams once, and raises
    one of the other three counters once. -/
def Accounted (ops : List CounterOp) : Prop :=
  ops.count .increment = 1 ∧ ops.count .decrement = 1 ∧ ops.countP CounterOp.records = 1

/-- How everything must turn out for a run to be counted once: no await is cancelled, and no
    step outside the provider's stream raises an `HTTPException`. -/
def Settles (env : StreamEnv) (payload : StreamingChatRequest) (conversation : Conversation)
    (agent : Agent) (rows : List Message) : Prop :=
  match prepared env payload conversation agent rows with
  | .error raised => ∃ exc, raised = .exception exc ∧ ¬ exc.isHttp
  | .ok request =>
      ClosedEarly env payload request ∨
        match (providerStream env payload request).ending with
        | .error raised => raised ≠ .cancelledError
        | .ok () => ∀ exc, env.assistantWrite.result = .error exc → ¬ exc.isHttp

theorem accounted_failureOps (raised : BaseExn) :
    Accounted (.increment :: failureOps raised) ↔
      ∃ exc, raised = .exception exc ∧ ¬ exc.isHttp := by
  cases raised with
  | exception exc =>
      cases exc <;>
        simp [Accounted, failureOps, List.countP_cons, CounterOp.records, Exn.isHttp]
  | cancelledError => simp [Accounted, failureOps]
  | generatorExit => simp [Accounted, failureOps]

theorem accounted_interruptOps (raised : BaseExn) :
    Accounted (.increment :: interruptOps raised) ↔ raised ≠ .cancelledError := by
  cases raised <;> simp [Accounted, interruptOps, List.countP_cons, CounterOp.records]

theorem accounted_iff_of_ending {env : StreamEnv} {payload : StreamingChatRequest}
    {conversation : Conversation} {agent : Agent} {rows : List Message} {s : StreamState}
    (h : Ending env payload conversation agent rows s) :
    Accounted s.counterOps ↔ Settles env payload conversation agent rows := by
  unfold Settles
  cases h with
  | unprepared raised added hprepared =>
      rw [hprepared]
      exact accounted_failureOps raised
  | interrupted request raised events hprepared hraised =>
      rw [hprepared]
      refine (accounted_interruptOps raised).trans ?_
      rcases hraised with ⟨hclosed, rfl⟩ | ⟨hopen, hending⟩
      · exact iff_of_true (by simp) (.inl hclosed)
      · simp only [hopen, hending, false_or]
  | unsaved request exc events l hl hprepared hopen hending hwrite =>
      rw [hprepared]
      refine (accounted_failureOps (.exception exc)).trans ?_
      simp only [hopen, hending, hwrite, false_or, BaseExn.exception.injEq, Except.error.injEq,
        exists_eq_left', forall_eq']
  | completed request events l hl hprepared hopen hending hwrite =>
      rw [hprepared]
      refine iff_of_true (by simp [Accounted, List.countP_cons, CounterOp.records]) (.inr ?_)
      simp [hending, hwrite]

/-- The calls of a run that is counted once. -/
theorem counterOps_of_accounted {env : StreamEnv} {payload : StreamingChatRequest}
    {conversation : Conversation} {agent : Agent} {rows : List Message} {s : StreamState}
    (h : Ending env payload conversation agent rows s) (hcounted : Accounted s.counterOps) :
    ∃ op : CounterOp, op.records ∧ s.counterOps = [.increment, op, .decrement] := by
  have hfailure : ∀ raised, Accounted (.increment :: failureOps raised) →
      ∃ op : CounterOp, op.records ∧
        CounterOp.increment :: failureOps raised = [.increment, op, .decrement] := by
    intro raised hops
    obtain ⟨exc, rfl, hexc⟩ := (accounted_failureOps raised).mp hops
    cases exc with
    | http => exact absurd rfl hexc
    | _ => exact ⟨.failed, rfl, rfl⟩
  cases h with
  | unprepared raised => exact hfailure raised hcounted
  | unsaved _ exc => exact hfailure (.exception exc) hcounted
  | completed => exact ⟨_, rfl, rfl⟩
  | interrupted _ raised =>
      have hraised := (accounted_interruptOps raised).mp hcounted
      cases raised with
      | exception exc => exact ⟨.failed, rfl, rfl⟩
      | cancelledError => exact absurd rfl hraised
      | generatorExit => exact ⟨.cancelled, rfl, rfl⟩

/-- Run alone, a stream that is counted once leaves the number of active streams as it was and
    raises one of the other numbers by one. -/
theorem counters_of_accounted {env : StreamEnv} {payload : StreamingChatRequest}
    {conversation : Conversation} {agent : Agent} {rows : List Message} {s : StreamState}
    (h : Ending env payload conversation agent rows s) (hcounted : Accounted s.counterOps)
    {counters : StreamCounters} (hactive : 0 ≤ counters.active) :
    let counters' := s.counterOps.foldl CounterOp.apply counters
    counters'.active = counters.active ∧
      (counters'.completed, counters'.cancelled, counters'.failed) ∈
        [(counters.completed + 1, counters.cancelled, counters.failed),
          (counters.completed, counters.cancelled + 1, counters.failed),
          (counters.completed, counters.cancelled, counters.failed + 1)] := by
  obtain ⟨op, hop, hops⟩ := counterOps_of_accounted h hcounted
  rw [hops]
  have hmax : max 0 (counters.active + 1 - 1) = counters.active := by omega
  cases op with
  | increment => simp [CounterOp.records] at hop
  | decrement => simp [CounterOp.records] at hop
  | completed latency tokens => exact ⟨hmax, List.mem_cons_self⟩
  | cancelled => exact ⟨hmax, List.mem_cons_of_mem _ List.mem_cons_self⟩
  | failed => exact ⟨hmax, List.mem_cons_of_mem _ (List.mem_cons_of_mem _ List.mem_cons_self)⟩

/-- A stream over no messages and no services, whose provider is cancelled at its first await. -/
def cancelledEnv : StreamEnv where
  L := Lower.asciiOnly
  collaborators := ⟨none, none, none, none⟩
  readHistory := .ok ()
  userWrite := .succeeds
  assistantWrite := .succeeds
  streamChat := fun _ _ => ⟨[], .error .cancelledError⟩
  closes := fun _ => false
  now := fun _ => ⟨0, "1970-01-01T00:00:00+00:00"⟩
  elapsed := 0

def sampleAgent : Agent where
  id := 1
  systemPrompt := ""
  modelName := "llama3"
  temperature := 1
  maxTokens := 1024

/-- Cancelled while it waits for the provider, a stream stays active and is not recorded. -/
theorem cancelledEnv_not_accounted :
    ¬ Accounted (Proc.after (executeStream cancelledEnv { message := "Hello" } ⟨1, 1⟩ sampleAgent)
      ⟨[], [], []⟩).counterOps := by
  have hops : (Proc.after (executeStream cancelledEnv { message := "Hello" } ⟨1, 1⟩ sampleAgent)
      ⟨[], [], []⟩).counterOps = [.increment] := by
    decide +kernel
  rw [hops]
  simp [Accounted]

/-- **Accounting.** A run is counted once exactly if no await that it reaches is cancelled and
    no step outside the provider's stream raises an `HTTPException`. -/
theorem executeStream_accounts_iff (env : StreamEnv) (payload : StreamingChatRequest)
    (conversation : Conversation) (agent : Agent) (rows : List Message) :
    Accounted
        (Proc.after (executeStream env payload conversation agent) ⟨rows, [], []⟩).counterOps ↔
      Settles env payload conversation agent rows :=
  accounted_iff_of_ending (executeStream_ending env payload conversation agent rows)

/-! ## Persistence -/

/-- The provider's stream is exhausted, without an error and without a close. -/
def Exhausted (env : StreamEnv) (payload : StreamingChatRequest) (conversation : Conversation)
    (agent : Agent) (rows : List Message) : Prop :=
  ∃ request, prepared env payload conversation agent rows = .ok request ∧
    ¬ ClosedEarly env payload request ∧ (providerStream env payload request).ending = .ok ()

/-- The assistant messages that a run has added to `rows`. -/
def answers (rows : List Message) (s : StreamState) : List Message :=
  (s.rows.drop rows.length).filter (·.role = "assistant")

/-- The tokens of the token events that were yielded. -/
def yieldedTokens (s : StreamState) : List String :=
  s.yielded.filterMap StreamEvent.tokenText

/-- What a run stores against what it yields. -/
structure Persists (env : StreamEnv) (payload : StreamingChatRequest) (conversation : Conversation)
    (agent : Agent) (rows : List Message) (s : StreamState) : Prop where
  appends : rows <+: s.rows
  atMostOne : (answers rows s).length ≤ 1
  stored_iff : env.userWrite.result = .ok () → env.assistantWrite.result = .ok () →
    (answers rows s ≠ [] ↔ Exhausted env payload conversation agent rows)
  content : ∀ message ∈ answers rows s, message.content = String.join (yieldedTokens s)
  sent : ∀ finishReason usage latency (tokensSent : Int),
    .done finishReason usage latency tokensSent ∈ s.yielded →
      tokensSent = (yieldedTokens s).length
  /-- Nothing follows a done or error event, so there is at most one. -/
  terminal : ∀ earlier event later, s.yielded = earlier ++ event :: later →
    event.tokenText = none → later = []

/-- What is not like those before the last one is followed by nothing. -/
theorem eq_nil_after {α : Type} {p : α → Prop} {before last earlier later : List α} {x : α}
    (hbefore : ∀ y ∈ before, p y) (hlast : last.length ≤ 1)
    (hsplit : before ++ last = earlier ++ x :: later) (hx : ¬ p x) : later = [] := by
  rcases List.append_eq_append_iff.mp hsplit with ⟨more, -, rfl⟩ | ⟨more, rfl, hrest⟩
  · rw [List.length_append, List.length_cons] at hlast
    exact List.eq_nil_of_length_eq_zero (by omega)
  · cases more with
    | nil =>
        rw [List.nil_append] at hrest
        rw [← hrest, List.length_cons] at hlast
        exact List.eq_nil_of_length_eq_zero (by omega)
    | cons first more =>
        obtain ⟨rfl, -⟩ := List.cons.inj hrest
        exact absurd (hbefore x (by simp)) hx

/-- After token events, at most one further event comes last. -/
theorem terminal_last {events tail earlier later : List StreamEvent} {event : StreamEvent}
    (hevents : ∀ e ∈ events, e.tokenText.isSome) (htail : tail.length ≤ 1)
    (hsplit : events ++ tail = earlier ++ event :: later) (hevent : event.tokenText = none) :
    later = [] :=
  eq_nil_after hevents htail hsplit (by simp [hevent])

/-- The local variables at the end of the stream hold exactly its tokens. -/
theorem finalLocals_collected (env : StreamEnv) (payload : StreamingChatRequest) (agent : Agent)
    (request : ChatRequest) :
    (finalLocals env payload agent request).collectedTokens =
        tokens (providerStream env payload request).chunks ∧
      (finalLocals env payload agent request).tokensSent =
        (tokens (providerStream env payload request).chunks).length := by
  obtain ⟨hcollected, hsent⟩ := after_collected (providerStream env payload request).chunks
    (StreamLocals.start payload agent)
  refine ⟨hcollected, hsent.trans ?_⟩
  exact zero_add _

section Persists

variable {env : StreamEnv} {payload : StreamingChatRequest} {conversation : Conversation}
  {agent : Agent} {rows : List Message}

theorem Persists.of_parts {added : List Message} {ops : List CounterOp}
    {events tail : List StreamEvent}
    (hone : (added.filter (·.role = "assistant")).length ≤ 1)
    (hstored : env.userWrite.result = .ok () → env.assistantWrite.result = .ok () →
      (added.filter (·.role = "assistant") ≠ [] ↔
        Exhausted env payload conversation agent rows))
    (hcontent : ∀ message ∈ added.filter (·.role = "assistant"),
      message.content = String.join (events.filterMap StreamEvent.tokenText))
    (hevents : ∀ event ∈ events, event.tokenText.isSome)
    (htail : tail.length ≤ 1) (hnone : ∀ event ∈ tail, event.tokenText = none)
    (hsent : ∀ finishReason usage latency (tokensSent : Int),
      .done finishReason usage latency tokensSent ∈ tail →
        tokensSent = (events.filterMap StreamEvent.tokenText).length) :
    Persists env payload conversation agent rows ⟨rows ++ added, ops, events ++ tail⟩ := by
  have hanswers : answers rows ⟨rows ++ added, ops, events ++ tail⟩ =
      added.filter (·.role = "assistant") := by
    unfold answers
    rw [List.drop_left]
  have htokens : yieldedTokens ⟨rows ++ added, ops, events ++ tail⟩ =
      events.filterMap StreamEvent.tokenText := by
    unfold yieldedTokens
    rw [List.filterMap_append, List.filterMap_eq_nil_iff.mpr hnone, List.append_nil]
  refine ⟨List.prefix_append _ _, ?_, ?_, ?_, ?_, fun earlier event later =>
    terminal_last hevents htail⟩
  · rw [hanswers]
    exact hone
  · rw [hanswers]
    exact hstored
  · rw [hanswers, htokens]
    exact hcontent
  · intro finishReason usage latency tokensSent hmem
    rw [htokens]
    rcases List.mem_append.mp hmem with hin | hin
    · exact absurd (hevents _ hin) (by simp [StreamEvent.tokenText])
    · exact hsent _ _ _ _ hin

theorem failureEvents_tail (env : StreamEnv) (n : Nat) (raised : BaseExn) :
    (failureEvents env n raised).length ≤ 1 ∧
      ∀ event ∈ failureEvents env n raised, ∃ text code now, event = .error text code now := by
  cases raised with
  | exception exc => cases exc <;> simp [failureEvents]
  | cancelledError => simp [failureEvents]
  | generatorExit => simp [failureEvents]

theorem interruptEvents_tail (env : StreamEnv) (n : Nat) (raised : BaseExn) :
    (interruptEvents env n raised).length ≤ 1 ∧
      ∀ event ∈ interruptEvents env n raised, ∃ text code now, event = .error text code now := by
  cases raised <;> simp [interruptEvents]

/-- A tail of error events has no token and no done event. -/
theorem errors_tail {tail : List StreamEvent}
    (h : ∀ event ∈ tail, ∃ text code now, event = .error text code now) :
    (∀ event ∈ tail, event.tokenText = none) ∧
      ∀ finishReason usage latency tokensSent,
        .done finishReason usage latency tokensSent ∉ tail := by
  constructor
  · intro event hevent
    obtain ⟨text, code, now, rfl⟩ := h event hevent
    rfl
  · intro finishReason usage latency tokensSent hdone
    obtain ⟨text, code, now, heq⟩ := h _ hdone
    cases heq

/-- A run that stores no answer yields at most an error event after its tokens. -/
theorem Persists.of_unanswered {added : List Message} {ops : List CounterOp}
    {events tail : List StreamEvent} (hfilter : added.filter (·.role = "assistant") = [])
    (hexhausted : ¬ Exhausted env payload conversation agent rows)
    (hevents : ∀ event ∈ events, event.tokenText.isSome) (htail : tail.length ≤ 1)
    (herrors : ∀ event ∈ tail, ∃ text code now, event = .error text code now) :
    Persists env payload conversation agent rows ⟨rows ++ added, ops, events ++ tail⟩ := by
  obtain ⟨hnone, hdone⟩ := errors_tail herrors
  refine .of_parts ?_ ?_ ?_ hevents htail hnone fun _ _ _ _ hin => absurd hin (hdone _ _ _ _)
  · rw [hfilter]
    exact Nat.zero_le 1
  · intro _ _
    rw [hfilter]
    exact iff_of_false (by simp) hexhausted
  · rw [hfilter]
    simp

theorem filter_userMessage (conversation : Conversation) (content : String)
    (added : List Message) :
    (userMessage conversation.id content :: added).filter (·.role = "assistant") =
      added.filter (·.role = "assistant") :=
  List.filter_cons_of_neg (by simp [userMessage])

theorem filter_assistantMessage (conversation : Conversation) (l : StreamLocals) :
    [assistantMessage conversation l].filter (·.role = "assistant") =
      [assistantMessage conversation l] :=
  List.filter_cons_of_pos (by simp [assistantMessage])

theorem persists_of_ending {s : StreamState} (h : Ending env payload conversation agent rows s) :
    Persists env payload conversation agent rows s := by
  cases h with
  | unprepared raised added hprepared hadded =>
      obtain ⟨htail, herrors⟩ := failureEvents_tail env 0 raised
      refine Persists.of_unanswered ?_ ?_ (fun _ hin => absurd hin List.not_mem_nil) htail herrors
      · refine List.filter_eq_nil_iff.mpr fun message hmessage => ?_
        rw [hadded message hmessage]
        simp [userMessage]
      · rintro ⟨request, hok, -⟩
        rw [hprepared] at hok
        cases hok
  | interrupted request raised events hprepared hraised hevents =>
      obtain ⟨htail, herrors⟩ := interruptEvents_tail env events.length raised
      refine .of_unanswered (filter_userMessage conversation _ []) ?_ hevents htail herrors
      rintro ⟨request', hok, hopen, hending⟩
      obtain rfl := Except.ok.inj (hprepared.symm.trans hok)
      rcases hraised with ⟨hclosed, -⟩ | ⟨-, herror⟩
      · exact hopen hclosed
      · rw [hending] at herror
        cases herror
  | unsaved request exc events l hl hprepared hopen hending hwrite hevents htokens =>
      obtain ⟨htail, herrors⟩ := failureEvents_tail env events.length (.exception exc)
      obtain ⟨hnone, hdone⟩ := errors_tail herrors
      refine .of_parts ?_ ?_ ?_ hevents htail hnone fun _ _ _ _ hin => absurd hin (hdone _ _ _ _)
      · rw [filter_userMessage]
        cases env.assistantWrite.stored
        · simp
        · exact (filter_assistantMessage conversation l).symm ▸ le_rfl
      · intro _ hsaved
        rw [hsaved] at hwrite
        cases hwrite
      · -- The row may be there all the same, if only the refresh failed.
        intro message hmessage
        rw [filter_userMessage] at hmessage
        have hmem := List.mem_of_mem_filter hmessage
        cases hstored : env.assistantWrite.stored with
        | false => simp [hstored] at hmem
        | true =>
            obtain rfl : message = assistantMessage conversation l := by simpa [hstored] using hmem
            rw [htokens, ← (finalLocals_collected env payload agent request).1, ← hl]
            rfl
  | completed request events l hl hprepared hopen hending hwrite hevents htokens =>
      obtain ⟨hcollected, hsent⟩ := finalLocals_collected env payload agent request
      rw [← hl, ← htokens] at hcollected hsent
      refine .of_parts ?_ ?_ ?_ hevents le_rfl ?_ ?_
      · rw [filter_userMessage, filter_assistantMessage]
        exact le_rfl
      · intro _ _
        rw [filter_userMessage, filter_assistantMessage]
        exact iff_of_true (by simp) ⟨request, hprepared, hopen, hending⟩
      · rw [filter_userMessage, filter_assistantMessage]
        intro message hmessage
        rw [List.mem_singleton.mp hmessage, ← hcollected]
        rfl
      · intro event hevent
        rw [List.mem_singleton.mp hevent]
        rfl
      · intro finishReason usage latency tokensSent hdone
        obtain ⟨-, -, -, rfl⟩ := StreamEvent.done.inj (List.mem_singleton.mp hdone)
        exact hsent

end Persists

/-- **Persistence.** Every run, over every stream of the provider and every close of the
    consumer, stores at most one answer, made of the tokens that were yielded; with successful
    writes it stores one exactly if the stream was exhausted; and it ends with at most one done
    or error event. -/
theorem executeStream_persists (env : StreamEnv) (payload : StreamingChatRequest)
    (conversation : Conversation) (agent : Agent) (rows : List Message) :
    Persists env payload conversation agent rows
      (Proc.after (executeStream env payload conversation agent) ⟨rows, [], []⟩) :=
  persists_of_ending (executeStream_ending env payload conversation agent rows)

end AgentCorp.Streaming
