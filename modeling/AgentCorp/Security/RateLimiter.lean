/-
  The fixed-window rate limiter.

  `_buckets` is a `defaultdict` of `defaultdict`s: reading a key that is not there adds it, and
  `_get_count` drops the windows before the current one. Every call reads the clock once.

  * `count_afterAll`: under a clock that does not go back, the count of a window that is not over
    is the number of requests recorded in it.
  * `enforceRateLimit_admits`: which calls of `enforce_rate_limit` pass.
-/
import AgentCorp.Lib.Grouping
import AgentCorp.Python.Values

namespace AgentCorp.Security

open AgentCorp.Python
open Grouping (upsert lookup_upsert lookup_filter_keys)

/-- The request counts of one identifier, by window. -/
abbrev Bucket := List (Int × Nat)

abbrev Buckets := List (String × Bucket)

/-- `int(seconds)`: towards zero. -/
def truncate (seconds : Rat) : Int :=
  if 0 ≤ seconds then ⌊seconds⌋ else ⌈seconds⌉

/-- `_current_window`. -/
def currentWindow (time : Rat) : Int :=
  truncate time / 60

/-- A change of `_buckets[identifier]` in place. The read adds an empty bucket first. -/
def mutate (buckets : Buckets) (identifier : String) (change : Bucket → Bucket) : Buckets :=
  upsert buckets identifier (change []) change

def Buckets.count (buckets : Buckets) (identifier : String) (window : Int) : Nat :=
  (((buckets.lookup identifier).getD []).lookup window).getD 0

/-- `_get_count`. -/
def getCount (buckets : Buckets) (identifier : String) (time : Rat) : Nat × Buckets :=
  let window := currentWindow time
  let buckets := mutate buckets identifier fun bucket =>
    bucket.filter fun entry => !decide (entry.1 < window)
  let buckets := mutate buckets identifier fun bucket => upsert bucket window 0 id
  (buckets.count identifier window, buckets)

/-- `_increment`. -/
def increment (buckets : Buckets) (identifier : String) (time : Rat) : Nat × Buckets :=
  let window := currentWindow time
  let buckets := mutate buckets identifier fun bucket => upsert bucket window 1 (· + 1)
  (buckets.count identifier window, buckets)

def isRateLimited (buckets : Buckets) (identifier : String) (limit : Int) (time : Rat) :
    Bool × Buckets :=
  let (count, buckets) := getCount buckets identifier time
  (decide ((count : Int) ≥ limit), buckets)

def recordRequest (buckets : Buckets) (identifier : String) (time : Rat) : Nat × Buckets :=
  increment buckets identifier time

def rateLimitExceeded (identifier : String) (limit : Int) : Exn :=
  .other "RateLimitExceededError"
    ("Rate limit of " ++ toString limit ++ " requests/minute exceeded for " ++ identifier ++ ".")

def enforceRateLimit (buckets : Buckets) (identifier : String) (limit : Int) (time : Rat) :
    Except Exn Unit × Buckets :=
  let (count, buckets) := recordRequest buckets identifier time
  (if (count : Int) > limit then .error (rateLimitExceeded identifier limit) else .ok (), buckets)

/-! ## Runs -/

inductive Call where
  | isRateLimited (identifier : String) (limit : Int)
  | recordRequest (identifier : String)
  | enforceRateLimit (identifier : String) (limit : Int)
  deriving DecidableEq, Repr

inductive Answer where
  | limited (answer : Bool)
  | recorded (count : Nat)
  | passed
  | raised (e : Exn)
  deriving DecidableEq, Repr

/-- One call, at a reading of the clock. -/
def answer (buckets : Buckets) (time : Rat) : Call → Answer × Buckets
  | .isRateLimited identifier limit =>
      let (answer, buckets) := isRateLimited buckets identifier limit time
      (.limited answer, buckets)
  | .recordRequest identifier =>
      let (count, buckets) := recordRequest buckets identifier time
      (.recorded count, buckets)
  | .enforceRateLimit identifier limit =>
      match enforceRateLimit buckets identifier limit time with
      | (.ok (), buckets) => (.passed, buckets)
      | (.error e, buckets) => (.raised e, buckets)

def afterAll (buckets : Buckets) (calls : List (Rat × Call)) : Buckets :=
  calls.foldl (fun buckets call => (answer buckets call.1 call.2).2) buckets

/-- The calls of a run with their answers. -/
def log (buckets : Buckets) : List (Rat × Call) → List ((Rat × Call) × Answer)
  | [] => []
  | call :: calls =>
      let (given, buckets) := answer buckets call.1 call.2
      (call, given) :: log buckets calls

/-- A call that counts as a request of the identifier: every call but a check. -/
def Call.requests (identifier : String) : Call → Bool
  | .isRateLimited _ _ => false
  | .recordRequest own => own == identifier
  | .enforceRateLimit own _ => own == identifier

/-- The number of requests of the identifier in a window. -/
def requestsIn (identifier : String) (window : Int) (calls : List (Rat × Call)) : Nat :=
  calls.countP fun call => call.2.requests identifier && currentWindow call.1 == window

/-- The answers to the requests of one identifier. -/
def answersTo (identifier : String) (entries : List ((Rat × Call) × Answer)) : List Answer :=
  (entries.filter fun entry => entry.1.2.requests identifier).map Prod.snd

/-- The clock does not go back during the run. -/
def NonDecreasing (calls : List (Rat × Call)) : Prop :=
  calls.Pairwise fun a b => a.1 ≤ b.1

theorem truncate_mono {a b : Rat} (h : a ≤ b) : truncate a ≤ truncate b := by
  unfold truncate
  by_cases ha : 0 ≤ a
  · have hb : 0 ≤ b := le_trans ha h
    rw [if_pos ha, if_pos hb]
    exact Int.floor_le_floor h
  · have hneg : ⌈a⌉ ≤ 0 := Int.ceil_le.mpr (by simpa using (not_le.mp ha).le)
    rw [if_neg ha]
    by_cases hb : 0 ≤ b
    · have hpos : 0 ≤ ⌊b⌋ := Int.floor_nonneg.mpr hb
      rw [if_pos hb]
      omega
    · rw [if_neg hb]
      exact Int.ceil_le_ceil h

theorem currentWindow_mono {a b : Rat} (h : a ≤ b) : currentWindow a ≤ currentWindow b := by
  have htruncate := truncate_mono h
  unfold currentWindow
  omega

/-! ## What a call does to the counts -/

theorem count_mutate (buckets : Buckets) (identifier : String) (change : Bucket → Bucket)
    (own : String) (window : Int) :
    (mutate buckets identifier change).count own window =
      if own = identifier
      then ((change ((buckets.lookup identifier).getD [])).lookup window).getD 0
      else buckets.count own window := by
  unfold mutate Buckets.count
  rw [lookup_upsert]
  by_cases hown : own = identifier
  · rw [if_pos hown, if_pos hown]
    cases buckets.lookup identifier <;> rfl
  · rw [if_neg hown, if_neg hown]

/-- A read adds no count. -/
theorem count_touch (buckets : Buckets) (identifier : String) (window : Int) (own : String)
    (other : Int) :
    (mutate buckets identifier fun bucket => upsert bucket window 0 id).count own other =
      buckets.count own other := by
  rw [count_mutate]
  by_cases hown : own = identifier
  · subst hown
    rw [if_pos rfl, lookup_upsert]
    by_cases hwindow : other = window
    · subst hwindow
      rw [if_pos rfl]
      show ((((buckets.lookup own).getD []).lookup other).elim 0 id) = buckets.count own other
      unfold Buckets.count
      cases ((buckets.lookup own).getD []).lookup other <;> rfl
    · rw [if_neg hwindow]
      rfl
  · rw [if_neg hown]

theorem count_evict (buckets : Buckets) (identifier : String) (window : Int) (own : String)
    {other : Int} (h : window ≤ other) :
    (mutate buckets identifier fun bucket =>
      bucket.filter fun entry => !decide (entry.1 < window)).count own other =
      buckets.count own other := by
  have hlive : (!decide (other < window)) = true := by simpa using h
  rw [count_mutate]
  by_cases hown : own = identifier
  · subst hown
    rw [if_pos rfl, lookup_filter_keys (fun key => !decide (key < window)), if_pos hlive]
    rfl
  · rw [if_neg hown]

theorem count_getCount (buckets : Buckets) (identifier : String) (time : Rat) (own : String)
    {window : Int} (h : currentWindow time ≤ window) :
    (getCount buckets identifier time).2.count own window = buckets.count own window := by
  unfold getCount
  rw [count_touch, count_evict buckets identifier _ own h]

theorem count_increment (buckets : Buckets) (identifier : String) (time : Rat) (own : String)
    (window : Int) :
    (increment buckets identifier time).2.count own window =
      buckets.count own window +
        if identifier = own ∧ currentWindow time = window then 1 else 0 := by
  unfold increment
  rw [count_mutate]
  by_cases hown : own = identifier
  · subst hown
    rw [if_pos rfl, lookup_upsert]
    by_cases hwindow : window = currentWindow time
    · rw [if_pos hwindow, if_pos ⟨rfl, hwindow.symm⟩, ← hwindow]
      unfold Buckets.count
      cases ((buckets.lookup own).getD []).lookup window <;> rfl
    · rw [if_neg hwindow, if_neg fun h => hwindow h.2.symm]
      rfl
  · rw [if_neg hown, if_neg fun h => hown h.1.symm]
    rfl

/-- The request is recorded whether or not it is let through. -/
theorem answer_enforceRateLimit_snd (buckets : Buckets) (time : Rat) (identifier : String)
    (limit : Int) :
    (answer buckets time (.enforceRateLimit identifier limit)).2 =
      (increment buckets identifier time).2 := by
  unfold answer enforceRateLimit recordRequest
  by_cases hlimit : ((increment buckets identifier time).1 : Int) > limit
  · simp [hlimit]
  · simp [hlimit]

/-- **One call.** A count of a window that is not over changes exactly by the request of the
    call. -/
theorem count_answer (buckets : Buckets) (time : Rat) (call : Call) (identifier : String)
    {window : Int} (h : currentWindow time ≤ window) :
    (answer buckets time call).2.count identifier window =
      buckets.count identifier window +
        if call.requests identifier ∧ currentWindow time = window then 1 else 0 := by
  cases call with
  | isRateLimited own limit =>
      have hcount := count_getCount buckets own time identifier h
      simpa [answer, isRateLimited, Call.requests] using hcount
  | recordRequest own =>
      have hcount := count_increment buckets own time identifier window
      simpa [answer, recordRequest, Call.requests] using hcount
  | enforceRateLimit own limit =>
      have hcount := count_increment buckets own time identifier window
      rw [answer_enforceRateLimit_snd, hcount]
      simp [Call.requests]

theorem increment_fst (buckets : Buckets) (identifier : String) (time : Rat) :
    (increment buckets identifier time).1 =
      buckets.count identifier (currentWindow time) + 1 := by
  have hcount := count_increment buckets identifier time identifier (currentWindow time)
  rw [if_pos ⟨rfl, rfl⟩] at hcount
  exact hcount

theorem answer_enforceRateLimit (buckets : Buckets) (time : Rat) (identifier : String)
    (limit : Int) :
    (answer buckets time (.enforceRateLimit identifier limit)).1 =
      if (buckets.count identifier (currentWindow time) : Int) < limit then .passed
      else .raised (rateLimitExceeded identifier limit) := by
  have hfst := increment_fst buckets identifier time
  unfold answer enforceRateLimit recordRequest
  by_cases hlimit : (buckets.count identifier (currentWindow time) : Int) < limit
  · have hpass : ¬ ((increment buckets identifier time).1 : Int) > limit := by
      rw [hfst]
      omega
    simp [hlimit, hpass]
  · have hraise : ((increment buckets identifier time).1 : Int) > limit := by
      rw [hfst]
      omega
    simp [hlimit, hraise]

/-- The answer to a request depends on the count of its own window only. -/
theorem answer_congr {buckets buckets' : Buckets} {identifier : String} (time : Rat) {call : Call}
    (hcall : call.requests identifier = true)
    (h : buckets.count identifier (currentWindow time) =
      buckets'.count identifier (currentWindow time)) :
    (answer buckets time call).1 = (answer buckets' time call).1 := by
  cases call with
  | isRateLimited own limit => exact absurd hcall (by simp [Call.requests])
  | recordRequest own =>
      have hown : own = identifier := by simpa [Call.requests] using hcall
      subst hown
      show Answer.recorded (increment buckets own time).1 =
        Answer.recorded (increment buckets' own time).1
      rw [increment_fst, increment_fst, h]
  | enforceRateLimit own limit =>
      have hown : own = identifier := by simpa [Call.requests] using hcall
      subst hown
      rw [answer_enforceRateLimit, answer_enforceRateLimit, h]

/-! ## Whole runs -/

theorem requestsIn_cons (identifier : String) (window : Int) (call : Rat × Call)
    (calls : List (Rat × Call)) :
    requestsIn identifier window (call :: calls) =
      requestsIn identifier window calls +
        if call.2.requests identifier ∧ currentWindow call.1 = window then 1 else 0 := by
  unfold requestsIn
  rw [List.countP_cons]
  simp

/-- **The invariant.** Eviction takes no request of a window that is not over. -/
theorem count_afterAll (buckets : Buckets) (calls : List (Rat × Call)) (identifier : String)
    {window : Int} (h : ∀ call ∈ calls, currentWindow call.1 ≤ window) :
    (afterAll buckets calls).count identifier window =
      buckets.count identifier window + requestsIn identifier window calls := by
  induction calls generalizing buckets with
  | nil => rfl
  | cons call calls ih =>
      have hcall : currentWindow call.1 ≤ window := h call (List.mem_cons_self ..)
      have hrest := ih (answer buckets call.1 call.2).2
        fun other hother => h other (List.mem_cons_of_mem _ hother)
      show (afterAll (answer buckets call.1 call.2).2 calls).count identifier window = _
      rw [hrest, count_answer buckets call.1 call.2 identifier hcall, requestsIn_cons]
      omega

theorem log_append (buckets : Buckets) (before rest : List (Rat × Call)) :
    log buckets (before ++ rest) = log buckets before ++ log (afterAll buckets before) rest := by
  induction before generalizing buckets with
  | nil => rfl
  | cons call before ih =>
      show (call, (answer buckets call.1 call.2).1) ::
        log (answer buckets call.1 call.2).2 (before ++ rest) = _
      rw [ih]
      rfl

theorem length_log (buckets : Buckets) (calls : List (Rat × Call)) :
    (log buckets calls).length = calls.length := by
  induction calls generalizing buckets with
  | nil => rfl
  | cons call calls ih => simp [log, ih]

theorem answersTo_log_cons (buckets : Buckets) (identifier : String) (call : Rat × Call)
    (calls : List (Rat × Call)) :
    answersTo identifier (log buckets (call :: calls)) =
      if call.2.requests identifier
      then (answer buckets call.1 call.2).1 ::
        answersTo identifier (log (answer buckets call.1 call.2).2 calls)
      else answersTo identifier (log (answer buckets call.1 call.2).2 calls) := by
  unfold answersTo
  rw [log, List.filter_cons]
  split <;> rfl

/-- Two stores that agree on the windows of one identifier that are not over answer its requests
    alike, whatever else is asked of the one and not of the other. -/
theorem answersTo_log_filter {buckets buckets' : Buckets} {identifier : String} {start : Int}
    {calls : List (Rat × Call)}
    (hagree : ∀ window, start ≤ window →
      buckets.count identifier window = buckets'.count identifier window)
    (hstart : ∀ call ∈ calls, start ≤ currentWindow call.1) (hclock : NonDecreasing calls) :
    answersTo identifier (log buckets calls) =
      answersTo identifier
        (log buckets' (calls.filter fun call => call.2.requests identifier)) := by
  induction calls generalizing buckets buckets' start with
  | nil => rfl
  | cons call calls ih =>
      obtain ⟨hfirst, hrest⟩ := List.pairwise_cons.mp hclock
      have hcall : start ≤ currentWindow call.1 := hstart call (List.mem_cons_self ..)
      have hlater : ∀ other ∈ calls, currentWindow call.1 ≤ currentWindow other.1 :=
        fun other hother => currentWindow_mono (hfirst other hother)
      by_cases hown : call.2.requests identifier = true
      · have hstep : ∀ window, currentWindow call.1 ≤ window →
            (answer buckets call.1 call.2).2.count identifier window =
              (answer buckets' call.1 call.2).2.count identifier window := by
          intro window hwindow
          rw [count_answer _ _ _ _ hwindow, count_answer _ _ _ _ hwindow,
            hagree window (by omega)]
        have hanswer := answer_congr call.1 hown (hagree _ hcall)
        have htail := ih hstep hlater hrest
        rw [List.filter_cons, if_pos hown, answersTo_log_cons, answersTo_log_cons, if_pos hown,
          if_pos hown, hanswer, htail]
      · have hstep : ∀ window, currentWindow call.1 ≤ window →
            (answer buckets call.1 call.2).2.count identifier window =
              buckets'.count identifier window := by
          intro window hwindow
          rw [count_answer _ _ _ _ hwindow, if_neg fun h => hown h.1, hagree window (by omega)]
          rfl
        have htail := ih hstep hlater hrest
        rw [List.filter_cons, if_neg hown, answersTo_log_cons, if_neg hown, htail]

/-- **Admission.** A call of `enforce_rate_limit` passes exactly when fewer than `limit` requests
    of its identifier came before it in its window, so the first `limit` of a window pass and the
    later ones raise; checks and the calls of other identifiers change no answer. -/
theorem enforceRateLimit_admits {calls : List (Rat × Call)} (hclock : NonDecreasing calls)
    (identifier : String) :
    (∀ before time limit after,
      calls = before ++ (time, .enforceRateLimit identifier limit) :: after →
      (log [] calls)[before.length]? =
        some ((time, .enforceRateLimit identifier limit),
          if (requestsIn identifier (currentWindow time) before : Int) < limit then .passed
          else .raised (rateLimitExceeded identifier limit))) ∧
    answersTo identifier (log [] calls) =
      answersTo identifier
        (log [] (calls.filter fun call => call.2.requests identifier)) := by
  constructor
  · intro before time limit after hcalls
    subst hcalls
    have hpast : ∀ call ∈ before, currentWindow call.1 ≤ currentWindow time := by
      intro call hcall
      have hle := (List.pairwise_append.mp hclock).2.2 call hcall
        (time, .enforceRateLimit identifier limit) (List.mem_cons_self ..)
      exact currentWindow_mono hle
    have hcount : (afterAll [] before).count identifier (currentWindow time) =
        requestsIn identifier (currentWindow time) before := by
      rw [count_afterAll [] before identifier hpast]
      exact Nat.zero_add _
    have hlength : before.length = (log [] before).length := (length_log [] before).symm
    rw [log_append, hlength, List.getElem?_append_right (le_refl _), Nat.sub_self]
    show some ((time, Call.enforceRateLimit identifier limit),
      (answer (afterAll [] before) time (.enforceRateLimit identifier limit)).1) = _
    rw [answer_enforceRateLimit, hcount]
  · cases calls with
    | nil => rfl
    | cons first calls =>
        have hstart : ∀ call ∈ first :: calls, currentWindow first.1 ≤ currentWindow call.1 := by
          intro call hcall
          rcases List.mem_cons.mp hcall with hsame | hlater
          · rw [hsame]
          · exact currentWindow_mono ((List.pairwise_cons.mp hclock).1 call hlater)
        exact answersTo_log_filter (fun _ _ => rfl) hstart hclock

def twoWindows : List (Rat × Call) :=
  [(58, .enforceRateLimit "user:1" 1), (59, .isRateLimited "user:1" 1),
    (59, .enforceRateLimit "user:1" 1), (61, .enforceRateLimit "user:1" 1)]

theorem enforceRateLimit_admits_twoWindows :
    NonDecreasing twoWindows ∧
      (log [] twoWindows)[2]? =
        some ((59, .enforceRateLimit "user:1" 1), .raised (rateLimitExceeded "user:1" 1)) ∧
      (log [] twoWindows)[3]? = some ((61, .enforceRateLimit "user:1" 1), .passed) := by
  have hclock : NonDecreasing twoWindows := by
    unfold NonDecreasing twoWindows
    decide
  have hadmits := (enforceRateLimit_admits hclock "user:1").1
  refine ⟨hclock, ?_, ?_⟩
  · have hsecond := hadmits (twoWindows.take 2) 59 1 (twoWindows.drop 3) rfl
    rwa [if_neg (by decide)] at hsecond
  · have hthird := hadmits (twoWindows.take 3) 61 1 [] rfl
    rwa [if_pos (by decide)] at hthird

end AgentCorp.Security
