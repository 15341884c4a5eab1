/-
  The status of a multi-agent session under any interleaving of the calls on it.

  `start_session` checks the status before it starts; `complete_session` and `cancel_session` do
  not look at it, and `start_session` ends with `complete_session` on the row it loaded before its
  agents ran.

  * `based_call`: a call commits the row it has read, and starts only what it has read as PENDING.
  * `lifecycle_iff_of_open`, `lifecycle_iff_of_ended`: what the commits make of the row.
  * `lifecycle_iff_orderly`: along which orders of commits the status follows its lifecycle.
-/
import AgentCorp.MultiAgent.MultiAgentService

namespace AgentCorp.MultiAgent

open AgentCorp.Python
open Interleaving

variable {Payload : Type}

/-! ## Calls -/

/-- A call that another request makes on the session. -/
inductive Call (Payload : Type) where
  | start (env : StartEnv Payload)
  | complete (completedAt : Instant)
  | cancel (completedAt : Instant)
  | updateParticipant (agentId : Int) (status : String) (result : Option Payload) (now : Instant)

def Call.prog : Call Payload → Service Payload Unit
  | .start env => do let _ ← startSession env
  | .complete completedAt => do let _ ← completeSession completedAt
  | .cancel completedAt => do let _ ← cancelSession completedAt
  | .updateParticipant agentId status result now => do
      let _ ← updateParticipantStatus agentId status result now

/-! ## What a call commits -/

/-- A state that has been there holds this row. -/
def Knows (session : MultiAgentSession Payload) (seen : SessionRows Payload → Prop) : Prop :=
  ∃ rows, seen rows ∧ rows.session = session

/-- A commit of the session's row is based on a row that has been there, and one that starts the
    session on a PENDING one. -/
def basis : Basis (SessionRows Payload) (Commit Payload) := fun seen commit =>
  match commit with
  | .session loaded write =>
      Knows loaded seen ∧ ∀ startedAt, write = .start startedAt → loaded.status = .pending
  | .participant _ _ _ => True

theorem basis_mono : Basis.Mono (basis : Basis (SessionRows Payload) (Commit Payload)) := by
  intro seen seen' commit h hgood
  cases commit with
  | session loaded write =>
      obtain ⟨⟨rows, hrows, hsession⟩, hstart⟩ := hgood
      exact ⟨⟨rows, h rows hrows, hsession⟩, hstart⟩
  | participant index loaded assigned => trivial

section Based

variable {seen : SessionRows Payload → Prop} {session : MultiAgentSession Payload}

theorem Knows.mono {seen' : SessionRows Payload → Prop} (h : Knows session seen)
    (hseen : ∀ rows, seen rows → seen' rows) : Knows session seen' := by
  obtain ⟨rows, hrows, hsession⟩ := h
  exact ⟨rows, hseen rows hrows, hsession⟩

theorem based_updateSession {write : SessionWrite Payload}
    (h : basis seen (.session session write)) :
    Based basis (fun seen' session' => Knows session' seen') seen
      (updateSession session write) :=
  ⟨h, fun rows => ⟨rows, .inl rfl, rfl⟩⟩

theorem based_updateParticipant (h : Knows session seen) (index : Nat)
    (loaded assigned : MultiAgentParticipant Payload) :
    Based basis (fun seen' _ => Knows session seen') seen
      (updateParticipant index loaded assigned) :=
  ⟨trivial, fun _ => h.mono fun _ => .inr⟩

theorem based_runParticipants (h : Knows session seen) (env : StartEnv Payload) (index : Nat)
    (participants : List (MultiAgentParticipant Payload)) :
    Based basis (fun seen' _ => Knows session seen') seen
      (runParticipants env index participants) := by
  induction participants generalizing seen index with
  | nil => exact h
  | cons participant rest ih =>
      unfold runParticipants
      refine based_bind (based_updateParticipant h index _ _) fun seen₁ running h₁ => ?_
      refine based_bind (based_updateParticipant h₁ index _ _) fun seen₂ settled h₂ => ?_
      exact based_bind (ih h₂ (index + 1)) fun seen₃ _ h₃ => h₃

theorem based_finishSession (h : Knows session seen)
    (participants : List (MultiAgentParticipant Payload)) (completedAt : Instant) :
    Based basis (fun seen' session' => Knows session' seen') seen
      (finishSession session participants completedAt) :=
  based_updateSession ⟨h, fun _ hstart => by cases hstart⟩

theorem based_startSession (env : StartEnv Payload) :
    Based basis (fun _ _ => True) seen (startSession env) := by
  intro rows
  show Based basis _ _ (if rows.session.status ≠ .pending then _ else _)
  by_cases hpending : rows.session.status ≠ .pending
  · rw [if_pos hpending]
    trivial
  · rw [if_neg hpending]
    have hloaded : basis (fun t => t = rows ∨ seen t)
        (.session rows.session (.start env.startedAt)) :=
      ⟨⟨rows, .inl rfl, rfl⟩, fun _ _ => not_not.mp hpending⟩
    refine based_bind (based_updateSession hloaded) fun seen₁ session h₁ => ?_
    intro rows₁
    have h₂ : Knows session (fun t => t = rows₁ ∨ seen₁ t) := h₁.mono fun _ => .inr
    show Based basis _ _ (runParticipants env 0 rows₁.participants >>= _)
    refine based_bind (based_runParticipants h₂ env 0 rows₁.participants)
      fun seen₃ participants h₃ => ?_
    show Based basis _ _ (if isSessionComplete (participants.map (·.status)) then _ else _)
    by_cases hcomplete : isSessionComplete (participants.map (·.status)) = true
    · rw [if_pos hcomplete]
      exact based_bind (based_finishSession h₃ participants env.completedAt) fun _ _ _ => trivial
    · rw [if_neg hcomplete]
      trivial

theorem based_updateParticipantStatus (agentId : Int) (status : String)
    (result : Option Payload) (now : Instant) :
    Based basis (fun _ _ => True) seen (updateParticipantStatus agentId status result now) := by
  intro rows rows₁
  dsimp only
  cases hfound : (rows₁.participants.findIdx? (·.agentId == agentId)).bind fun index =>
      rows₁.participants[index]?.map fun participant => (index, participant) with
  | none => trivial
  | some found => exact ⟨trivial, fun _ => trivial⟩

/-- **A call** commits the row that it has read. -/
theorem based_call (call : Call Payload) : Based basis (fun _ _ => True) seen call.prog := by
  cases call with
  | start env => exact based_bind (based_startSession env) fun _ _ _ => trivial
  | complete completedAt =>
      intro rows rows₁
      have h : Knows rows.session (fun t => t = rows₁ ∨ t = rows ∨ seen t) :=
        ⟨rows, .inr (.inl rfl), rfl⟩
      exact based_bind (based_finishSession h rows₁.participants completedAt)
        fun _ _ _ => trivial
  | cancel completedAt =>
      intro rows
      have h : basis (fun t => t = rows ∨ seen t) (.session rows.session (.cancel completedAt)) :=
        ⟨⟨rows, .inl rfl, rfl⟩, fun _ hstart => by cases hstart⟩
      exact based_bind (based_updateSession h) fun _ _ _ => trivial
  | updateParticipant agentId status result now =>
      exact based_bind (based_updateParticipantStatus agentId status result now)
        fun _ _ _ => trivial

end Based

/-! ## Properties of a run -/

/-- The columns that the end of a session fixes. -/
def MultiAgentSession.ending (session : MultiAgentSession Payload) :
    SessionStatus × Option (MergedResult Payload) × Option Instant :=
  (session.status, session.result, session.completedAt)

/-- PENDING to RUNNING, RUNNING to COMPLETED, either of the first two to CANCELLED, or no move. -/
def SessionStatus.MayMove (a b : SessionStatus) : Prop :=
  a = b ∨ (a = .pending ∧ b = .running) ∨ (a = .running ∧ b = .completed) ∨
    ((a = .pending ∨ a = .running) ∧ b = .cancelled)

/-- From one stored row to the next. -/
def Follows (a b : MultiAgentSession Payload) : Prop :=
  a.status.MayMove b.status ∧ (a.status.Terminal → b.ending = a.ending)

/-- Every commit of a run moves the session along its lifecycle. -/
def Lifecycle : SessionRows Payload → List (Commit Payload × SessionRows Payload) → Prop
  | _, [] => True
  | rows, (_, next) :: trace => Follows rows.session next.session ∧ Lifecycle next trace

/-- What the commits of a run set in the session's row, in order. -/
def sessionWrites (trace : List (Commit Payload × SessionRows Payload)) :
    List (SessionWrite Payload) :=
  trace.filterMap fun entry =>
    match entry.1 with
    | .session _ write => some write
    | .participant _ _ _ => none

/-- The order of commits: nothing but the same write comes after a completion or a cancellation,
    and a completion comes after a start. -/
def Orderly : (started : Bool) → List (SessionWrite Payload) → Prop
  | _, [] => True
  | _, .start _ :: rest => Orderly true rest
  | started, .complete completedAt result :: rest =>
      started = true ∧ ∀ write ∈ rest, write = .complete completedAt result
  | _, .cancel completedAt :: rest => ∀ write ∈ rest, write = .cancel completedAt

section Decide

variable [DecidableEq Payload]

instance (a b : SessionStatus) : Decidable (a.MayMove b) :=
  inferInstanceAs (Decidable (_ ∨ _))

instance (a b : MultiAgentSession Payload) : Decidable (Follows a b) :=
  inferInstanceAs (Decidable (_ ∧ _))

instance decidableLifecycle : (rows : SessionRows Payload) →
    (trace : List (Commit Payload × SessionRows Payload)) → Decidable (Lifecycle rows trace)
  | _, [] => isTrue trivial
  | rows, (_, next) :: trace =>
      have := decidableLifecycle next trace
      inferInstanceAs (Decidable (Follows rows.session next.session ∧ Lifecycle next trace))

instance decidableOrderly : (started : Bool) → (writes : List (SessionWrite Payload)) →
    Decidable (Orderly started writes)
  | _, [] => isTrue trivial
  | _, .start _ :: rest => decidableOrderly true rest
  | started, .complete completedAt result :: rest =>
      inferInstanceAs (Decidable (started = true ∧
        ∀ write ∈ rest, write = .complete completedAt result))
  | _, .cancel completedAt :: rest =>
      inferInstanceAs (Decidable (∀ write ∈ rest, write = .cancel completedAt))

end Decide

/-! ## One commit -/

/-- A session that has neither been completed nor cancelled. -/
def Open (session : MultiAgentSession Payload) : Prop :=
  (session.status = .pending ∨ session.status = .running) ∧ session.result = none ∧
    session.completedAt = none

/-- The object of a request is open, or it shows the end that is stored. -/
def Current (loaded stored : MultiAgentSession Payload) : Prop :=
  Open loaded ∨ loaded.ending = stored.ending

section Commit

variable {loaded stored : MultiAgentSession Payload}

theorem Open.not_terminal (h : Open stored) : ¬ stored.status.Terminal := by
  intro hterminal
  rcases h.1 with hstatus | hstatus <;> rcases hterminal with hend | hend <;>
    rw [hstatus] at hend <;> cases hend

theorem Open.ne_of_terminal (h : Open loaded) {status : SessionStatus}
    (hstatus : status.Terminal) : status ≠ loaded.status := by
  intro heq
  rw [heq] at hstatus
  exact h.not_terminal hstatus

/-- An assignment arrives unless it is what was loaded and something else is stored. -/
theorem column_eq {α : Type} [DecidableEq α] {loaded assigned stored : α}
    (h : assigned = loaded → loaded = stored) : column loaded assigned stored = assigned := by
  unfold column
  by_cases heq : assigned = loaded
  · rw [if_pos heq, heq, h heq]
  · exact if_neg heq

theorem column_loaded {α : Type} [DecidableEq α] (loaded stored : α) :
    column loaded loaded stored = stored :=
  if_pos rfl

theorem commit_status (h : Current loaded stored) {status : SessionStatus}
    (hstatus : status.Terminal) : column loaded.status status stored.status = status := by
  apply column_eq
  intro heq
  rcases h with hopen | hended
  · exact absurd heq (hopen.ne_of_terminal hstatus)
  · exact congrArg (·.1) hended

theorem commit_completedAt (h : Current loaded stored) (completedAt : Instant) :
    column loaded.completedAt (some completedAt) stored.completedAt = some completedAt := by
  apply column_eq
  intro heq
  rcases h with hopen | hended
  · exact absurd (heq.trans hopen.2.2) (Option.some_ne_none _)
  · exact congrArg (·.2.2) hended

variable [DecidableEq Payload]

/-- A start writes RUNNING and leaves an open row open. -/
theorem commit_start_status (hloaded : loaded.status = .pending) (startedAt : Instant)
    (stored : MultiAgentSession Payload) :
    (commitSession loaded ((SessionWrite.start startedAt).assign loaded) stored).status =
      .running := by
  show column loaded.status .running stored.status = .running
  rw [hloaded]
  rfl

theorem commit_start_open (hloaded : loaded.status = .pending) (hstored : Open stored)
    (startedAt : Instant) :
    Open (commitSession loaded ((SessionWrite.start startedAt).assign loaded) stored) := by
  refine ⟨.inr (commit_start_status hloaded startedAt stored), ?_, ?_⟩
  · show column loaded.result loaded.result stored.result = none
    rw [column_loaded]
    exact hstored.2.1
  · show column loaded.completedAt loaded.completedAt stored.completedAt = none
    rw [column_loaded]
    exact hstored.2.2

theorem commit_complete (h : Current loaded stored) (completedAt : Instant)
    (result : MergedResult Payload) :
    (commitSession loaded ((SessionWrite.complete completedAt result).assign loaded)
      stored).ending = (.completed, some result, some completedAt) := by
  have hresult : column loaded.result (some result) stored.result = some result := by
    apply column_eq
    intro heq
    rcases h with hopen | hended
    · exact absurd (heq.trans hopen.2.1) (Option.some_ne_none _)
    · exact congrArg (·.2.1) hended
  show (column loaded.status .completed stored.status,
    column loaded.result (some result) stored.result,
    column loaded.completedAt (some completedAt) stored.completedAt) = _
  rw [commit_status h (.inl rfl), hresult, commit_completedAt h]

theorem commit_cancel (h : Current loaded stored) (completedAt : Instant) :
    (commitSession loaded ((SessionWrite.cancel completedAt).assign loaded) stored).ending =
      (.cancelled, stored.result, some completedAt) := by
  show (column loaded.status .cancelled stored.status,
    column loaded.result loaded.result stored.result,
    column loaded.completedAt (some completedAt) stored.completedAt) = _
  rw [commit_status h (.inr rfl), column_loaded, commit_completedAt h]

end Commit

/-! ## After the end -/

/-- What a completion or a cancellation leaves in an open row. -/
def SessionWrite.ending : SessionWrite Payload →
    Option (SessionStatus × Option (MergedResult Payload) × Option Instant)
  | .start _ => none
  | .complete completedAt result => some (.completed, some result, some completedAt)
  | .cancel completedAt => some (.cancelled, none, some completedAt)

section Ended

variable {a b loaded stored : MultiAgentSession Payload} {first write : SessionWrite Payload}

theorem terminal_of_ending (h : first.ending = some stored.ending) : stored.status.Terminal := by
  cases first with
  | start startedAt => cases h
  | complete completedAt result => exact .inl (congrArg (·.1) (Option.some.inj h)).symm
  | cancel completedAt => exact .inr (congrArg (·.1) (Option.some.inj h)).symm

theorem follows_iff_of_terminal (h : a.status.Terminal) : Follows a b ↔ b.ending = a.ending := by
  constructor
  · intro hfollows
    exact hfollows.2 h
  · intro heq
    have hstatus : a.status = b.status := congrArg (·.1) heq.symm
    exact ⟨.inl hstatus, fun _ => heq⟩

/-- Only the write that ended a session keeps its end. -/
theorem commit_ending_iff [DecidableEq Payload] (hfirst : first.ending = some stored.ending)
    (h : Current loaded stored)
    (hstart : ∀ startedAt, write = .start startedAt → loaded.status = .pending) :
    (commitSession loaded (write.assign loaded) stored).ending = stored.ending ↔
      write = first := by
  cases write with
  | start startedAt =>
      have hstatus := commit_start_status (hstart startedAt rfl) startedAt stored
      constructor
      · intro heq
        have hterminal := terminal_of_ending (hfirst.trans (congrArg some heq.symm))
        rw [hstatus] at hterminal
        rcases hterminal with hend | hend <;> cases hend
      · intro heq
        rw [← heq] at hfirst
        cases hfirst
  | complete completedAt result =>
      rw [commit_complete h]
      cases first with
      | start startedAt => cases hfirst
      | complete completedAt' result' =>
          rw [← Option.some.inj hfirst]
          simp [and_comm]
      | cancel completedAt' =>
          rw [← Option.some.inj hfirst]
          simp
  | cancel completedAt =>
      rw [commit_cancel h]
      cases first with
      | start startedAt => cases hfirst
      | complete completedAt' result' =>
          rw [← Option.some.inj hfirst]
          simp
      | cancel completedAt' =>
          have hnone : none = stored.result := congrArg (·.2.1) (Option.some.inj hfirst)
          rw [← Option.some.inj hfirst, ← hnone]
          simp

end Ended

theorem follows_refl (session : MultiAgentSession Payload) : Follows session session :=
  ⟨.inl rfl, fun _ => rfl⟩

/-! ## Runs -/

section Runs

variable [DecidableEq Payload] {seen : SessionRows Payload → Prop} {rows : SessionRows Payload}
  {trace : List (Commit Payload × SessionRows Payload)}

/-- After the end, the lifecycle is kept exactly when nothing but the same write comes. -/
theorem lifecycle_iff_of_ended (first : SessionWrite Payload)
    (h : Justified Commit.apply basis seen rows trace)
    (hfirst : first.ending = some rows.session.ending)
    (hseen : ∀ rows', seen rows' → Current rows'.session rows.session) :
    Lifecycle rows trace ↔ ∀ write ∈ sessionWrites trace, write = first := by
  induction h with
  | nil seen rows => exact iff_of_true trivial fun _ hmem => nomatch hmem
  | @cons seen rows commit trace hgood h ih =>
      cases commit with
      | participant index loaded assigned =>
          have hrest := ih hfirst (forall_eq_or_imp.mpr ⟨.inr rfl, hseen⟩)
          exact ⟨fun hlife => hrest.mp hlife.2,
            fun hall => ⟨follows_refl rows.session, hrest.mpr hall⟩⟩
      | session loaded write =>
          obtain ⟨⟨rows₀, hrows₀, rfl⟩, hstart⟩ := hgood
          have hkeep := commit_ending_iff hfirst (hseen rows₀ hrows₀) hstart
          have hfollows := follows_iff_of_terminal
            (b := (Commit.apply (.session rows₀.session write) rows).session)
            (terminal_of_ending hfirst)
          by_cases hwrite : write = first
          · have hsame := hkeep.mpr hwrite
            have hrest := ih (hfirst.trans (congrArg some hsame.symm)) (forall_eq_or_imp.mpr
              ⟨.inr rfl, fun rows' hold =>
                (hseen rows' hold).imp id fun hended => hended.trans hsame.symm⟩)
            constructor
            · intro hlife write' hmem
              rcases List.mem_cons.mp hmem with rfl | htail
              · exact hwrite
              · exact hrest.mp hlife.2 write' htail
            · intro hall
              exact ⟨hfollows.mpr hsame,
                hrest.mpr fun write' hmem => hall write' (List.mem_cons_of_mem _ hmem)⟩
          · constructor
            · intro hlife
              exact absurd (hkeep.mp (hfollows.mp hlife.1)) hwrite
            · intro hall
              exact absurd (hall write List.mem_cons_self) hwrite

section Step

variable {loaded stored : MultiAgentSession Payload}

theorem follows_start (hloaded : loaded.status = .pending) (hstored : Open stored)
    (startedAt : Instant) :
    Follows stored (commitSession loaded ((SessionWrite.start startedAt).assign loaded)
      stored) := by
  have hstatus := commit_start_status hloaded startedAt stored
  refine ⟨?_, fun hterminal => absurd hterminal hstored.not_terminal⟩
  rw [hstatus]
  exact hstored.1.elim (fun hpending => .inr (.inl ⟨hpending, rfl⟩)) .inl

theorem follows_complete_iff (hloaded : Current loaded stored) (hstored : Open stored)
    (completedAt : Instant) (result : MergedResult Payload) :
    Follows stored (commitSession loaded ((SessionWrite.complete completedAt result).assign loaded)
      stored) ↔ stored.status = .running := by
  have hstatus : (commitSession loaded ((SessionWrite.complete completedAt result).assign loaded)
      stored).status = .completed := congrArg (·.1) (commit_complete hloaded completedAt result)
  constructor
  · intro hfollows
    have hmove := hfollows.1
    rw [hstatus] at hmove
    rcases hmove with hsame | hstart | hcomplete | hcancel
    · exact absurd (.inl hsame) hstored.not_terminal
    · exact nomatch hstart.2
    · exact hcomplete.1
    · exact nomatch hcancel.2
  · intro hrunning
    exact ⟨.inr (.inr (.inl ⟨hrunning, hstatus⟩)),
      fun hterminal => absurd hterminal hstored.not_terminal⟩

theorem follows_cancel (hloaded : Current loaded stored) (hstored : Open stored)
    (completedAt : Instant) :
    Follows stored (commitSession loaded ((SessionWrite.cancel completedAt).assign loaded)
      stored) := by
  have hstatus : (commitSession loaded ((SessionWrite.cancel completedAt).assign loaded)
      stored).status = .cancelled := congrArg (·.1) (commit_cancel hloaded completedAt)
  exact ⟨.inr (.inr (.inr ⟨hstored.1, hstatus⟩)),
    fun hterminal => absurd hterminal hstored.not_terminal⟩

end Step

/-- Before the end, it is kept exactly when the commits come in order. -/
theorem lifecycle_iff_of_open (started : Bool)
    (h : Justified Commit.apply basis seen rows trace) (hopen : Open rows.session)
    (hstarted : rows.session.status = .running ↔ started = true)
    (hseen : ∀ rows', seen rows' → Open rows'.session) :
    Lifecycle rows trace ↔ Orderly started (sessionWrites trace) := by
  induction h generalizing started with
  | nil seen rows => exact iff_of_true trivial trivial
  | @cons seen rows commit trace hgood h ih =>
      cases commit with
      | participant index loaded assigned =>
          have hrest := ih started hopen hstarted (forall_eq_or_imp.mpr ⟨hopen, hseen⟩)
          exact ⟨fun hlife => hrest.mp hlife.2,
            fun horderly => ⟨follows_refl rows.session, hrest.mpr horderly⟩⟩
      | session loaded write =>
          obtain ⟨⟨rows₀, hrows₀, rfl⟩, hstart⟩ := hgood
          have hloaded : Current rows₀.session rows.session := .inl (hseen rows₀ hrows₀)
          -- After the commit that ends the session, every row that has been there is current.
          have hseen' := fun rows' hold => Or.inl (b := rows'.session.ending =
            (Commit.apply (.session rows₀.session write) rows).session.ending) (hseen rows' hold)
          cases write with
          | start startedAt =>
              have hpending := hstart startedAt rfl
              have hrunning := commit_start_status hpending startedAt rows.session
              have hopen' := commit_start_open hpending hopen startedAt
              have hrest := ih true hopen' (iff_of_true hrunning rfl)
                (forall_eq_or_imp.mpr ⟨hopen', hseen⟩)
              exact ⟨fun hlife => hrest.mp hlife.2,
                fun horderly => ⟨follows_start hpending hopen startedAt, hrest.mpr horderly⟩⟩
          | complete completedAt result =>
              have hend := commit_complete hloaded completedAt result
              have hrest := lifecycle_iff_of_ended (.complete completedAt result) h
                (congrArg some hend.symm) (forall_eq_or_imp.mpr ⟨.inr rfl, hseen'⟩)
              have hfollows := follows_complete_iff hloaded hopen completedAt result
              exact and_congr (hfollows.trans hstarted) hrest
          | cancel completedAt =>
              have hend := commit_cancel hloaded completedAt
              rw [hopen.2.1] at hend
              have hrest := lifecycle_iff_of_ended (.cancel completedAt) h
                (congrArg some hend.symm) (forall_eq_or_imp.mpr ⟨.inr rfl, hseen'⟩)
              exact ⟨fun hlife => hrest.mp hlife.2,
                fun hall => ⟨follows_cancel hloaded hopen completedAt, hrest.mpr hall⟩⟩

/-- **The lifecycle of a session** along every run of calls, interleaved at their queries and
    commits: it is kept exactly when no start and no other completion or cancellation is committed
    after a completion or a cancellation, and no completion before a start. -/
theorem lifecycle_iff_orderly (id organizationId coordinatorAgentId : Int) (name goal : String)
    (participantAgentIds : List Int) (sharedContext : Option (Dict Json)) (createdBy : Int)
    (calls : List (Call Payload)) (trace : List (Commit Payload × SessionRows Payload))
    (h : Runs Commit.apply (createSession id organizationId coordinatorAgentId name goal
      participantAgentIds sharedContext createdBy) (calls.map Call.prog) trace) :
    Lifecycle (createSession id organizationId coordinatorAgentId name goal participantAgentIds
      sharedContext createdBy) trace ↔ Orderly false (sessionWrites trace) := by
  have hcreated : ∀ rows : SessionRows Payload,
      rows = createSession id organizationId coordinatorAgentId name goal participantAgentIds
        sharedContext createdBy → rows.session.status = .pending ∧ Open rows.session := by
    intro rows hrows
    rw [hrows]
    exact ⟨rfl, .inl rfl, rfl, rfl⟩
  obtain ⟨hpending, hopen⟩ := hcreated _ rfl
  generalize createSession id organizationId coordinatorAgentId name goal participantAgentIds
    sharedContext createdBy = rows at h hopen hpending
  have hbased : ∀ prog ∈ calls.map Call.prog,
      Based basis (fun _ _ => True) (fun rows' => rows' = rows) prog := by
    intro prog hprog
    obtain ⟨call, _, rfl⟩ := List.mem_map.mp hprog
    exact based_call call
  have hjustified : Justified Commit.apply basis (fun rows' => rows' = rows) rows trace :=
    justified_of_runs basis_mono h rfl hbased
  refine lifecycle_iff_of_open false hjustified hopen ?_ ?_
  · rw [hpending]
    exact iff_of_false (nomatch ·) Bool.false_ne_true
  · intro rows' hrows'
    rw [hrows']
    exact hopen

/-! A start that an agent of the session outlasts, and a cancellation in the meantime. -/

def soloSession : SessionRows Unit :=
  createSession 1 1 7 "s" "g" [] none 1

def soloEnv : StartEnv Unit where
  payloads := { executed := fun _ _ _ _ => (), error := fun _ => () }
  outcome := fun _ => .executed 1 1 "COMPLETED" ()
  startedAt := ⟨10, ""⟩
  settledAt := fun _ => ⟨20, ""⟩
  completedAt := ⟨40, ""⟩

/-- The start is program 0, a cancellation program 1. -/
def soloTrace (choices : List Nat) : List (Commit Unit × SessionRows Unit) :=
  schedule Commit.apply soloSession ([Call.start soloEnv, Call.cancel ⟨30, ""⟩].map Call.prog)
    choices

theorem lifecycle_iff_orderly_solo : Lifecycle soloSession (soloTrace (List.replicate 10 0)) :=
  (lifecycle_iff_orderly 1 1 7 "s" "g" [] none 1 [.start soloEnv, .cancel ⟨30, ""⟩] _
    (runs_schedule Commit.apply soloSession _ (List.replicate 10 0))).mpr (by decide)

/-- Cancelled while its agent runs, the session ends as COMPLETED. -/
theorem not_lifecycle_cancelled :
    ¬ ∀ (calls : List (Call Unit)) (trace : List (Commit Unit × SessionRows Unit)),
      Runs Commit.apply soloSession (calls.map Call.prog) trace → Lifecycle soloSession trace := by
  intro hall
  have h := hall [.start soloEnv, .cancel ⟨30, ""⟩] _
    (runs_schedule Commit.apply soloSession _ (List.replicate 8 0 ++ [1, 1, 0]))
  revert h
  decide

end Runs

end AgentCorp.MultiAgent
