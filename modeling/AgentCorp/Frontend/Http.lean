/-
  The frontend's HTTP client: requests that share one stored session and one refresh.

  A request whose answer is 401 waits for a refresh, which all such requests share, and is sent
  again with its token. `executeRefresh` waits half a second and then stores again what it read
  before.

  Between two events the client waits, and any event that is due may come next: an answer, the
  end of a refresh, a login or a logout by the user.

  * `wellFormed_run`: at most one refresh is in flight, nobody waits for one that is lost, and
    nothing is sent more than twice.
  * `session_kept_iff`: exactly when the stored session stays that of the last login or logout.
-/
import AgentCorp.Lib.GuardedRun
import AgentCorp.Python.Text
import Mathlib.Data.Option.Basic

namespace AgentCorp.Frontend

open AgentCorp.Python

/-! ## Sessions and answers -/

structure StoredAuth where
  accessToken : String
  refreshToken : Option String := none
  deriving DecidableEq, Repr

/-- The body of an answer: nothing, text, an object with these strings, or another value. -/
inductive Body where
  | null
  | text (s : String)
  | record (detail message : Option String)
  | other
  deriving DecidableEq, Repr

structure Response where
  status : Nat
  statusText : String
  body : Body
  deriving DecidableEq, Repr

def extractMessage (body : Body) (fallback : String) : String :=
  match body with
  | .text s => s
  | .record (some detail) _ => detail
  | .record none (some message) => message
  | _ => fallback

/-- What a request comes to: a body, an `HttpError`, or the error that `fetch` raised. -/
inductive Outcome where
  | body (body : Body)
  | httpError (status : Nat) (message : String)
  | raised
  deriving DecidableEq, Repr

/-- `response.ok`. -/
def Response.ok (r : Response) : Bool :=
  200 ≤ r.status && r.status ≤ 299

def Response.outcome (r : Response) : Outcome :=
  if r.ok then .body r.body
  else .httpError r.status (extractMessage r.body r.statusText)

/-- The token of the `Authorization` header. -/
def bearer (auth : Option StoredAuth) : Option String :=
  (auth.map StoredAuth.accessToken).filter (· ≠ "")

/-- Paths that are not refreshed. -/
def isAuthPath (path : String) : Bool :=
  contains path "/auth/login" || contains path "/auth/register"

/-! ## The client -/

/-- Where a request stands. -/
inductive Phase where
  | sent
  | waiting (refresh : Nat)
  | resent
  | settled (outcome : Outcome)
  deriving DecidableEq, Repr

/-- A call of `request`, with the tokens that it has been sent with. -/
structure Call where
  path : String
  phase : Phase
  fetches : List (Option String)
  deriving DecidableEq, Repr

/-- A call of `executeRefresh`, with the session that it has read. -/
structure Refresh where
  auth : Option StoredAuth
  settled : Bool := false
  deriving DecidableEq, Repr

/-- The session that the refresh stores again, if there is a refresh token. -/
def Refresh.restored (refresh : Refresh) : Option StoredAuth :=
  refresh.auth.filter fun auth => auth.refreshToken.getD "" ≠ ""

structure HttpState where
  stored : Option StoredAuth
  refreshPromise : Option Nat := none
  refreshes : List Refresh := []
  calls : List Call := []
  deriving DecidableEq, Repr

inductive Event where
  | request (path : String)
  | response (call : Nat) (r : Response)
  | refreshed (refresh : Nat)
  | resend (call : Nat)
  | expire (call : Nat)
  | lastResponse (call : Nat) (r : Response)
  | abort (call : Nat)
  | fetchError (call : Nat)
  | writeAuth (auth : Option StoredAuth)
  deriving DecidableEq, Repr

namespace HttpState

def setCall (s : HttpState) (i : Nat) (call : Call) : HttpState :=
  { s with calls := s.calls.set i call }

/-- The answer to the first `fetch`. -/
def respond (s : HttpState) (i : Nat) (call : Call) (r : Response) : HttpState :=
  if r.status = 401 then
    if isAuthPath call.path then
      s.setCall i { call with
        phase := .settled (.httpError r.status (extractMessage r.body r.statusText)) }
    else
      match s.refreshPromise with
      | some k => s.setCall i { call with phase := .waiting k }
      | none =>
          { s.setCall i { call with phase := .waiting s.refreshes.length } with
            refreshes := s.refreshes ++ [{ auth := s.stored }]
            refreshPromise := some s.refreshes.length }
  else s.setCall i { call with phase := .settled r.outcome }

/-- The end of `executeRefresh`, and its `finally`. -/
def finishRefresh (s : HttpState) (k : Nat) (refresh : Refresh) : HttpState :=
  { s with
    stored := (refresh.restored <|> s.stored)
    refreshes := s.refreshes.set k { refresh with settled := true }
    refreshPromise := none }

/-- One event, if it can come. -/
def step (s : HttpState) : Event → Option HttpState
  | .request path =>
      some { s with
        calls := s.calls ++ [{ path, phase := .sent, fetches := [bearer s.stored] }] }
  | .response i r => do
      let call ← s.calls[i]?
      guard (call.phase = .sent)
      return s.respond i call r
  | .refreshed k => do
      let refresh ← s.refreshes[k]?
      guard (refresh.settled = false)
      return s.finishRefresh k refresh
  | .resend i => do
      let call ← s.calls[i]?
      let .waiting k := call.phase | failure
      let refresh ← s.refreshes[k]?
      guard (refresh.settled = true)
      let token ← bearer refresh.restored
      return s.setCall i { call with phase := .resent, fetches := call.fetches ++ [some token] }
  | .expire i => do
      let call ← s.calls[i]?
      let .waiting k := call.phase | failure
      let refresh ← s.refreshes[k]?
      guard (refresh.settled = true)
      guard (bearer refresh.restored = none)
      return { s.setCall i { call with
          phase := .settled (.httpError 401 "Session expired. Please log in again.") } with
        stored := none }
  | .lastResponse i r => do
      let call ← s.calls[i]?
      guard (call.phase = .resent)
      return s.setCall i { call with phase := .settled r.outcome }
  | .abort i => do
      let call ← s.calls[i]?
      guard (call.phase = .sent ∨ call.phase = .resent)
      return s.setCall i { call with phase := .settled (.httpError 408 "Request timed out") }
  | .fetchError i => do
      let call ← s.calls[i]?
      guard (call.phase = .sent ∨ call.phase = .resent)
      return s.setCall i { call with phase := .settled .raised }
  | .writeAuth auth => some { s with stored := auth }

/-- The page as it is loaded. -/
def start (auth : Option StoredAuth) : HttpState where
  stored := auth

/-- An event that cannot come changes nothing. -/
def next (s : HttpState) (e : Event) : HttpState :=
  (s.step e).getD s

end HttpState

/-! ## What an event does -/

/-- The steps, with what each of them needs. -/
inductive Step (s : HttpState) : Event → HttpState → Prop
  | request (path : String) :
      Step s (.request path) { s with
        calls := s.calls ++ [{ path, phase := .sent, fetches := [bearer s.stored] }] }
  | response {i : Nat} {call : Call} (r : Response) (hcall : s.calls[i]? = some call)
      (hphase : call.phase = .sent) : Step s (.response i r) (s.respond i call r)
  | refreshed {k : Nat} {refresh : Refresh} (hrefresh : s.refreshes[k]? = some refresh)
      (hopen : refresh.settled = false) : Step s (.refreshed k) (s.finishRefresh k refresh)
  | resend {i k : Nat} {call : Call} {refresh : Refresh} {token : String}
      (hcall : s.calls[i]? = some call) (hphase : call.phase = .waiting k)
      (hrefresh : s.refreshes[k]? = some refresh) (hsettled : refresh.settled = true)
      (htoken : bearer refresh.restored = some token) :
      Step s (.resend i) (s.setCall i { call with
        phase := .resent, fetches := call.fetches ++ [some token] })
  | expire {i k : Nat} {call : Call} {refresh : Refresh} (hcall : s.calls[i]? = some call)
      (hphase : call.phase = .waiting k) (hrefresh : s.refreshes[k]? = some refresh)
      (hsettled : refresh.settled = true) (htoken : bearer refresh.restored = none) :
      Step s (.expire i) { s.setCall i { call with
          phase := .settled (.httpError 401 "Session expired. Please log in again.") } with
        stored := none }
  | settle {e : Event} {i : Nat} {call : Call} (outcome : Outcome)
      (he : (∃ r, e = .lastResponse i r) ∨ e = .abort i ∨ e = .fetchError i)
      (hcall : s.calls[i]? = some call) (hphase : call.phase = .sent ∨ call.phase = .resent) :
      Step s e (s.setCall i { call with phase := .settled outcome })
  | writeAuth (auth : Option StoredAuth) : Step s (.writeAuth auth) { s with stored := auth }

theorem step_of_some {s t : HttpState} {e : Event} (h : s.step e = some t) : Step s e t := by
  cases e with
  | request path =>
      obtain rfl := Option.some.inj h
      exact .request path
  | response i r =>
      obtain ⟨call, hcall, h⟩ := Option.bind_eq_some_iff.mp h
      obtain ⟨_, hphase, h⟩ := Option.bind_eq_some_iff.mp h
      obtain rfl := Option.some.inj h
      exact .response r hcall ((Option.guard_eq_some' _).mp hphase)
  | refreshed k =>
      obtain ⟨refresh, hrefresh, h⟩ := Option.bind_eq_some_iff.mp h
      obtain ⟨_, hopen, h⟩ := Option.bind_eq_some_iff.mp h
      obtain rfl := Option.some.inj h
      exact .refreshed hrefresh ((Option.guard_eq_some' _).mp hopen)
  | resend i =>
      obtain ⟨call, hcall, h⟩ := Option.bind_eq_some_iff.mp h
      cases hphase : call.phase with
      | waiting k =>
          simp only [hphase] at h
          obtain ⟨refresh, hrefresh, h⟩ := Option.bind_eq_some_iff.mp h
          obtain ⟨_, hsettled, h⟩ := Option.bind_eq_some_iff.mp h
          obtain ⟨token, htoken, h⟩ := Option.bind_eq_some_iff.mp h
          obtain rfl := Option.some.inj h
          exact .resend hcall hphase hrefresh ((Option.guard_eq_some' _).mp hsettled) htoken
      | _ => simp [hphase] at h
  | expire i =>
      obtain ⟨call, hcall, h⟩ := Option.bind_eq_some_iff.mp h
      cases hphase : call.phase with
      | waiting k =>
          simp only [hphase] at h
          obtain ⟨refresh, hrefresh, h⟩ := Option.bind_eq_some_iff.mp h
          obtain ⟨_, hsettled, h⟩ := Option.bind_eq_some_iff.mp h
          obtain ⟨_, htoken, h⟩ := Option.bind_eq_some_iff.mp h
          obtain rfl := Option.some.inj h
          exact .expire hcall hphase hrefresh ((Option.guard_eq_some' _).mp hsettled)
            ((Option.guard_eq_some' _).mp htoken)
      | _ => simp [hphase] at h
  | lastResponse i r =>
      obtain ⟨call, hcall, h⟩ := Option.bind_eq_some_iff.mp h
      obtain ⟨_, hphase, h⟩ := Option.bind_eq_some_iff.mp h
      obtain rfl := Option.some.inj h
      exact .settle _ (.inl ⟨r, rfl⟩) hcall (.inr ((Option.guard_eq_some' _).mp hphase))
  | abort i =>
      obtain ⟨call, hcall, h⟩ := Option.bind_eq_some_iff.mp h
      obtain ⟨_, hphase, h⟩ := Option.bind_eq_some_iff.mp h
      obtain rfl := Option.some.inj h
      exact .settle _ (.inr (.inl rfl)) hcall ((Option.guard_eq_some' _).mp hphase)
  | fetchError i =>
      obtain ⟨call, hcall, h⟩ := Option.bind_eq_some_iff.mp h
      obtain ⟨_, hphase, h⟩ := Option.bind_eq_some_iff.mp h
      obtain rfl := Option.some.inj h
      exact .settle _ (.inr (.inr rfl)) hcall ((Option.guard_eq_some' _).mp hphase)
  | writeAuth auth =>
      obtain rfl := Option.some.inj h
      exact .writeAuth auth

/-! ## Single flight -/

/-- Sent once. -/
def Call.Once (call : Call) : Prop :=
  ∃ token, call.fetches = [token]

/-- Sent again with the token of a refresh that has ended. -/
def Call.Twice (refreshes : List Refresh) (call : Call) : Prop :=
  isAuthPath call.path = false ∧ ∃ first token, call.fetches = [first, some token] ∧
    ∃ refresh ∈ refreshes, refresh.settled = true ∧ bearer refresh.restored = some token

def Call.WellFormed (refreshes : List Refresh) (call : Call) : Prop :=
  match call.phase with
  | .sent => call.Once
  | .waiting k => call.Once ∧ isAuthPath call.path = false ∧ k < refreshes.length
  | .resent => call.Twice refreshes
  | .settled _ => call.Once ∨ call.Twice refreshes

structure HttpState.WellFormed (s : HttpState) : Prop where
  current : ∀ k, s.refreshPromise = some k ↔
    ∃ refresh, s.refreshes[k]? = some refresh ∧ refresh.settled = false
  calls : ∀ call ∈ s.calls, call.WellFormed s.refreshes

/-- More refreshes, and more of them that have ended. -/
def Later (refreshes refreshes' : List Refresh) : Prop :=
  refreshes.length ≤ refreshes'.length ∧
    ∀ refresh ∈ refreshes, refresh.settled = true → refresh ∈ refreshes'

section WellFormed

variable {refreshes refreshes' : List Refresh} {s : HttpState} {call : Call} {i : Nat}

theorem Call.Twice.later (h : call.Twice refreshes) (hlater : Later refreshes refreshes') :
    call.Twice refreshes' := by
  obtain ⟨hpath, first, token, hfetches, refresh, hmem, hsettled, htoken⟩ := h
  exact ⟨hpath, first, token, hfetches, refresh, hlater.2 refresh hmem hsettled, hsettled, htoken⟩

theorem Call.WellFormed.later (h : call.WellFormed refreshes)
    (hlater : Later refreshes refreshes') : call.WellFormed refreshes' := by
  unfold Call.WellFormed at h ⊢
  split at h <;> rename_i hphase
  · exact h
  · exact ⟨h.1, h.2.1, Nat.lt_of_lt_of_le h.2.2 hlater.1⟩
  · exact h.later hlater
  · exact h.imp_right fun h => h.later hlater

theorem later_append (refresh : Refresh) : Later refreshes (refreshes ++ [refresh]) :=
  ⟨by simp, fun _ hmem _ => List.mem_append_left _ hmem⟩

/-- Another call is put in place of one. -/
theorem wellFormed_setCall (h : s.WellFormed) (hcall : call.WellFormed s.refreshes) :
    (s.setCall i call).WellFormed where
  current := h.current
  calls := by
    intro call' hmem
    rcases List.mem_or_eq_of_mem_set hmem with hold | rfl
    · exact h.calls call' hold
    · exact hcall

theorem wellFormed_respond (h : s.WellFormed) (hcall : s.calls[i]? = some call)
    (hphase : call.phase = .sent) (r : Response) : (s.respond i call r).WellFormed := by
  have hold := h.calls call (List.mem_of_getElem? hcall)
  have honce : call.Once := by
    unfold Call.WellFormed at hold
    rwa [hphase] at hold
  unfold HttpState.respond
  split
  · split
    · exact wellFormed_setCall h (.inl honce)
    · next hpath =>
        rw [Bool.not_eq_true] at hpath
        split
        · next k hk =>
            obtain ⟨refresh, hrefresh, -⟩ := (h.current k).mp hk
            obtain ⟨hlt, -⟩ := List.getElem?_eq_some_iff.mp hrefresh
            exact wellFormed_setCall h ⟨honce, hpath, hlt⟩
        · next hnone =>
            refine ⟨fun k => ?_, fun call' hmem => ?_⟩
            · -- No refresh is open but the new one.
              show some s.refreshes.length = some k ↔ ∃ refresh,
                (s.refreshes ++ [{ auth := s.stored }])[k]? = some refresh ∧ _
              rw [Option.some_inj, List.getElem?_append]
              split
              · next hlt =>
                  refine iff_of_false (Nat.ne_of_gt hlt) fun hopen => ?_
                  rw [(h.current k).mpr hopen] at hnone
                  cases hnone
              · next hge =>
                  rcases Nat.eq_or_lt_of_not_lt hge with rfl | hgt
                  · simp
                  · refine iff_of_false (Nat.ne_of_lt hgt) ?_
                    rintro ⟨refresh, hrefresh, -⟩
                    rw [List.getElem?_eq_none (by simp; omega)] at hrefresh
                    cases hrefresh
            · rcases List.mem_or_eq_of_mem_set hmem with hold | rfl
              · exact (h.calls call' hold).later (later_append _)
              · exact ⟨honce, hpath, by simp⟩
  · exact wellFormed_setCall h (.inl honce)

theorem wellFormed_step {e : Event} {t : HttpState} (h : s.WellFormed) (hstep : Step s e t) :
    t.WellFormed := by
  cases hstep with
  | request path =>
      refine ⟨h.current, fun call hmem => ?_⟩
      rcases List.mem_append.mp hmem with hold | hnew
      · exact h.calls call hold
      · obtain rfl := List.mem_singleton.mp hnew
        exact ⟨_, rfl⟩
  | response r hcall hphase => exact wellFormed_respond h hcall hphase r
  | @refreshed k refresh hrefresh hopen =>
      have hk : s.refreshPromise = some k := (h.current k).mpr ⟨refresh, hrefresh, hopen⟩
      have hlater : Later s.refreshes (s.refreshes.set k { refresh with settled := true }) := by
        refine ⟨by simp, fun refresh' hmem hsettled => ?_⟩
        obtain ⟨j, hj⟩ := List.mem_iff_getElem?.mp hmem
        have hne : k ≠ j := by
          rintro rfl
          rw [hrefresh] at hj
          rw [Option.some.inj hj, hsettled] at hopen
          cases hopen
        exact List.mem_iff_getElem?.mpr ⟨j, by rw [List.getElem?_set_ne hne, hj]⟩
      refine ⟨fun j => iff_of_false nofun ?_, fun call hmem => (h.calls call hmem).later hlater⟩
      rintro ⟨refresh', hrefresh', hopen'⟩
      change (s.refreshes.set k _)[j]? = _ at hrefresh'
      by_cases hkj : k = j
      · subst hkj
        rw [List.getElem?_set_self (List.getElem?_eq_some_iff.mp hrefresh).1] at hrefresh'
        obtain rfl := Option.some.inj hrefresh'
        cases hopen'
      · rw [List.getElem?_set_ne hkj] at hrefresh'
        have hj := (h.current j).mpr ⟨refresh', hrefresh', hopen'⟩
        exact hkj (Option.some.inj (hk.symm.trans hj))
  | @resend i k call refresh token hcall hphase hrefresh hsettled htoken =>
      have hold := h.calls call (List.mem_of_getElem? hcall)
      unfold Call.WellFormed at hold
      rw [hphase] at hold
      obtain ⟨⟨first, hfetches⟩, hpath, -⟩ := hold
      refine wellFormed_setCall h ⟨hpath, first, token, ?_, refresh,
        List.mem_of_getElem? hrefresh, hsettled, htoken⟩
      show call.fetches ++ [some token] = _
      rw [hfetches]
      rfl
  | @expire i k call refresh hcall hphase hrefresh hsettled htoken =>
      have hold := h.calls call (List.mem_of_getElem? hcall)
      unfold Call.WellFormed at hold
      rw [hphase] at hold
      have hcall' : ({ call with
          phase := .settled (.httpError 401 "Session expired. Please log in again.") } :
          Call).WellFormed s.refreshes := .inl hold.1
      have hnext := wellFormed_setCall (i := i) h hcall'
      exact ⟨hnext.current, hnext.calls⟩
  | @settle _ i call outcome _ hcall hphase =>
      have hold := h.calls call (List.mem_of_getElem? hcall)
      unfold Call.WellFormed at hold
      refine wellFormed_setCall h ?_
      rcases hphase with hphase | hphase <;> rw [hphase] at hold
      · exact .inl hold
      · exact .inr hold
  | writeAuth auth => exact ⟨h.current, h.calls⟩

/-- A waiting request can go on, or else the refresh it waits for can end. -/
theorem waiting_goes_on (h : s.WellFormed) {k : Nat} (hcall : s.calls[i]? = some call)
    (hphase : call.phase = .waiting k) :
    (s.step (.refreshed k)).isSome ∨ (s.step (.resend i)).isSome ∨
      (s.step (.expire i)).isSome := by
  have hold := h.calls call (List.mem_of_getElem? hcall)
  unfold Call.WellFormed at hold
  rw [hphase] at hold
  obtain ⟨refresh, hrefresh⟩ : ∃ refresh, s.refreshes[k]? = some refresh :=
    ⟨_, List.getElem?_eq_getElem hold.2.2⟩
  cases hsettled : refresh.settled with
  | false =>
      refine .inl ?_
      simp [HttpState.step, hrefresh, hsettled, guard]
  | true =>
      cases htoken : bearer refresh.restored with
      | some token =>
          refine .inr (.inl ?_)
          simp [HttpState.step, hcall, hphase, hrefresh, hsettled, htoken, guard]
      | none =>
          refine .inr (.inr ?_)
          simp [HttpState.step, hcall, hphase, hrefresh, hsettled, htoken, guard]

theorem wellFormed_next (h : s.WellFormed) (e : Event) : (s.next e).WellFormed := by
  unfold HttpState.next
  cases hstep : s.step e with
  | none => exact h
  | some t => exact wellFormed_step h (step_of_some hstep)

end WellFormed

theorem wellFormed_start (auth : Option StoredAuth) : (HttpState.start auth).WellFormed where
  current := fun _ => iff_of_false nofun fun ⟨_, hrefresh, _⟩ => nomatch hrefresh
  calls := fun _ hmem => absurd hmem List.not_mem_nil

theorem wellFormed_run (auth : Option StoredAuth) (events : List Event) :
    (events.foldl HttpState.next (HttpState.start auth)).WellFormed := by
  induction events using List.reverseRecOn with
  | nil => exact wellFormed_start auth
  | append_singleton events e ih =>
      rw [List.foldl_append]
      exact wellFormed_next ih e

/-- **Single flight.** After any events: at most one refresh is open, and it is the one that
    `refreshPromise` stands for; a request is sent at most twice, and again only outside login and
    registration, with the token of a refresh that has ended; and a waiting request can go on, or
    else the refresh it waits for can end. -/
theorem single_flight (auth : Option StoredAuth) (events : List Event) :
    let s := events.foldl HttpState.next (HttpState.start auth)
    (∀ k, (∃ refresh, s.refreshes[k]? = some refresh ∧ refresh.settled = false) ↔
      s.refreshPromise = some k) ∧
    (∀ call ∈ s.calls, call.Once ∨ call.Twice s.refreshes) ∧
    ∀ i call k, s.calls[i]? = some call → call.phase = .waiting k →
      (s.step (.refreshed k)).isSome ∨ (s.step (.resend i)).isSome ∨
        (s.step (.expire i)).isSome := by
  intro s
  have h : s.WellFormed := wellFormed_run auth events
  refine ⟨fun k => (h.current k).symm, fun call hmem => ?_,
    fun i call k => waiting_goes_on h⟩
  have hcall := h.calls call hmem
  unfold Call.WellFormed at hcall
  split at hcall
  · exact .inl hcall
  · exact .inl hcall.1
  · exact .inr hcall
  · exact hcall

/-! ## The session -/

/-- What an event writes as the session on behalf of the user, or at the end of the session. -/
def Event.writes : Event → Option (Option StoredAuth)
  | .writeAuth auth => some auth
  | .expire _ => some none
  | _ => none

/-- The client, with the session that was written last other than by a refresh, and what that was
    when each of the refreshes began. -/
structure Watched where
  http : HttpState
  session : Option StoredAuth
  since : List (Option StoredAuth)

namespace Watched

def start (auth : Option StoredAuth) : Watched where
  http := .start auth
  session := auth
  since := []

def next (w : Watched) (e : Event) : Watched :=
  match w.http.step e with
  | none => w
  | some t =>
      { http := t
        session := e.writes.getD w.session
        since :=
          if w.http.refreshes.length < t.refreshes.length then w.since ++ [w.session]
          else w.since }

/-- The stored session is the one that was written last. -/
def Kept (w : Watched) : Prop :=
  w.http.stored = w.session

/-- A refresh that stores a session ends in the one in which it began. -/
def EndsInSession (w : Watched) (e : Event) : Prop :=
  ∀ k refresh, e = .refreshed k → w.http.refreshes[k]? = some refresh →
    refresh.settled = false → refresh.restored ≠ none → w.since[k]? = some w.session

/-- What is open has read the session in which it began. -/
structure Open (w : Watched) : Prop where
  length : w.since.length = w.http.refreshes.length
  read : ∀ (k : Nat) (refresh : Refresh), w.http.refreshes[k]? = some refresh →
    refresh.settled = false → w.since[k]? = some refresh.auth

end Watched

section Session

variable {s t : HttpState} {w : Watched} {e : Event}

/-- An answer starts a refresh or none, and leaves the session. -/
theorem respond_eq (s : HttpState) (i : Nat) (call : Call) (r : Response) :
    (s.respond i call r).stored = s.stored ∧
      ((s.respond i call r).refreshes = s.refreshes ∨
        (s.respond i call r).refreshes = s.refreshes ++ [{ auth := s.stored }]) := by
  unfold HttpState.respond
  split
  · split
    · exact ⟨rfl, .inl rfl⟩
    · split
      · exact ⟨rfl, .inl rfl⟩
      · exact ⟨rfl, .inr rfl⟩
  · exact ⟨rfl, .inl rfl⟩

/-- How the refreshes change: one begins, one ends, or none does. -/
theorem refreshes_step (h : Step s e t) : t.refreshes = s.refreshes ∨
    t.refreshes = s.refreshes ++ [{ auth := s.stored }] ∨
      ∃ (k : Nat) (refresh : Refresh),
        t.refreshes = s.refreshes.set k { refresh with settled := true } := by
  cases h with
  | response r hcall hphase => exact (respond_eq ..).2.imp_right .inl
  | @refreshed k refresh hrefresh hopen => exact .inr (.inr ⟨k, refresh, rfl⟩)
  | _ => exact .inl rfl

theorem open_next (hopen : w.Open) (hkept : w.Kept) : (w.next e).Open := by
  unfold Watched.next
  cases hstep : w.http.step e with
  | none => exact hopen
  | some t =>
      rcases refreshes_step (step_of_some hstep) with heq | heq | ⟨k, refresh, heq⟩
      · refine ⟨?_, fun k refresh => ?_⟩
        · simp [heq, hopen.length]
        · simpa [heq] using hopen.read k refresh
      · refine ⟨?_, fun k refresh hrefresh hsettled => ?_⟩
        · simp [heq, hopen.length]
        · simp only [heq, List.length_append, List.length_singleton, Nat.lt_succ_self, if_true]
          simp only [heq] at hrefresh
          rw [List.getElem?_append] at hrefresh ⊢
          rw [hopen.length]
          split at hrefresh
          · next hlt =>
              rw [if_pos hlt]
              exact hopen.read k refresh hrefresh hsettled
          · next hge =>
              -- The new refresh has read the stored session, which is the last one.
              rw [if_neg hge]
              obtain ⟨hk, hget⟩ := List.getElem?_eq_some_iff.mp hrefresh
              have hk0 : k - w.http.refreshes.length = 0 := by simpa using hk
              rw [hk0]
              simp only [hk0, List.getElem_singleton] at hget
              rw [← hget, ← hkept]
              rfl
      · refine ⟨?_, fun j refresh' hrefresh' hsettled' => ?_⟩
        · simp [heq, hopen.length]
        · simp only [heq, List.length_set, Nat.lt_irrefl, if_false]
          simp only [heq] at hrefresh'
          by_cases hkj : k = j
          · subst hkj
            obtain ⟨hlt, hget⟩ := List.getElem?_eq_some_iff.mp hrefresh'
            rw [List.getElem_set_self] at hget
            rw [← hget] at hsettled'
            cases hsettled'
          · rw [List.getElem?_set_ne hkj] at hrefresh'
            exact hopen.read j refresh' hrefresh' hsettled'

theorem kept_next_iff (hopen : w.Open) (hkept : w.Kept) :
    (w.next e).Kept ↔ w.EndsInSession e := by
  unfold Watched.next
  cases hstep : w.http.step e with
  | none =>
      refine iff_of_true hkept fun k refresh he hrefresh hsettled _ => ?_
      subst he
      simp [HttpState.step, hrefresh, hsettled, guard] at hstep
  | some t =>
      cases step_of_some hstep with
      | @refreshed k refresh hrefresh hsettled =>
          show (refresh.restored <|> w.http.stored) = w.session ↔ _
          have hread := hopen.read k refresh hrefresh hsettled
          cases hrestored : refresh.restored with
          | none =>
              refine iff_of_true hkept fun k' refresh' he hrefresh' _ hsome => ?_
              obtain rfl := Event.refreshed.inj he
              obtain rfl := Option.some.inj (hrefresh.symm.trans hrefresh')
              exact absurd hrestored hsome
          | some auth =>
              have hauth : refresh.auth = some auth :=
                (Option.filter_eq_some_iff.mp hrestored).1
              constructor
              · intro hsession k' refresh' he _ _ _
                obtain rfl := Event.refreshed.inj he
                rw [hread, hauth]
                exact congrArg some hsession
              · intro hends
                have hsince := hends k refresh rfl hrefresh hsettled (by simp [hrestored])
                rw [hread, hauth] at hsince
                exact Option.some.inj hsince
      | response r hcall hphase =>
          exact iff_of_true ((respond_eq ..).1.trans hkept) nofun
      | settle outcome he hcall hphase =>
          refine iff_of_true ?_ ?_
          · rcases he with ⟨r, rfl⟩ | rfl | rfl <;> exact hkept
          · rcases he with ⟨r, rfl⟩ | rfl | rfl <;> exact nofun
      | request path => exact iff_of_true hkept nofun
      | resend hcall hphase hrefresh hsettled htoken => exact iff_of_true hkept nofun
      | expire hcall hphase hrefresh hsettled htoken => exact iff_of_true rfl nofun
      | writeAuth auth => exact iff_of_true rfl nofun

end Session

/-- **The session.** After any events, the stored session is at every moment the one that the last
    login or logout wrote, if and only if no refresh that stores a session ends in another one
    than it began in. -/
theorem session_kept_iff (auth : Option StoredAuth) (events : List Event) :
    GuardedRun.Always Watched.next Watched.Kept (.start auth) events ↔
      GuardedRun.Meets Watched.next Watched.EndsInSession (.start auth) events := by
  have hstart : (Watched.start auth).Open := ⟨rfl, nofun⟩
  have hiff := GuardedRun.always_iff (f := Watched.next) (I := Watched.Open) (P := Watched.Kept)
    (C := Watched.EndsInSession) (D := fun _ => True)
    (fun w e hopen hkept _ => open_next hopen hkept)
    (fun w e hopen hkept _ => kept_next_iff hopen hkept) hstart (l := events) fun _ _ => trivial
  rw [hiff]
  exact and_iff_right rfl

/-- A logout while a refresh is open does not last. -/
example : (([.request "/agents", .response 0 ⟨401, "Unauthorized", .null⟩, .writeAuth none,
      .refreshed 0] : List Event).foldl HttpState.next
        (.start (some ⟨"token", some "refresh"⟩))).stored = some ⟨"token", some "refresh"⟩ := by
  decide

end AgentCorp.Frontend
