/-
  How many windows the rate limiter keeps.

  `_get_count` drops the windows that are over, `_increment` does not. A run that only records
  requests, as those of the middleware do, keeps every window that it has seen.

  * `windowsHeld_answer`: what one call does to the windows held for an identifier.
  * `holdsWindows_afterAll`: the windows held are those of the calls since the last check.
  * `onlyLastWindow_iff`: when that is the last window alone.
-/
import AgentCorp.Security.RateLimiter

namespace AgentCorp.Security

open Grouping (upsert keys keys_upsert)

namespace Call

def identifier : Call → String
  | .isRateLimited identifier _ => identifier
  | .recordRequest identifier => identifier
  | .enforceRateLimit identifier _ => identifier

/-- The call reads the count, and so evicts. -/
def checks : Call → Bool
  | .isRateLimited _ _ => true
  | _ => false

end Call

/-- The windows that are held for an identifier. -/
def windowsHeld (buckets : Buckets) (identifier : String) : List Int :=
  keys ((buckets.lookup identifier).getD [])

/-- The window of the last call for the identifier. -/
def lastWindow (identifier : String) (calls : List (Rat × Call)) : Option Int :=
  (calls.filter fun call => call.2.identifier = identifier).getLast?.map
    fun call => currentWindow call.1

/-- After the run, the window of its last call is all that is held for an identifier. -/
def OnlyLastWindow (calls : List (Rat × Call)) : Prop :=
  ∀ identifier, windowsHeld (afterAll [] calls) identifier =
    (lastWindow identifier calls).toList

/-! ## One call -/

/-- A read or a write of a window adds it. -/
def touch (held : List Int) (window : Int) : List Int :=
  if window ∈ held then held else held ++ [window]

def evict (held : List Int) (window : Int) : List Int :=
  held.filter fun old => !decide (old < window)

theorem mem_touch {held : List Int} {window other : Int} :
    other ∈ touch held window ↔ other ∈ held ∨ other = window := by
  unfold touch
  split
  · next hmem =>
      constructor
      · exact Or.inl
      · rintro (hother | hother)
        · exact hother
        · rwa [hother]
  · rw [List.mem_append, List.mem_singleton]

theorem nodup_touch {held : List Int} (h : held.Nodup) (window : Int) :
    (touch held window).Nodup := by
  unfold touch
  split
  · exact h
  · next hfresh => exact h.append (List.nodup_singleton window) (by simpa using hfresh)

theorem windowsHeld_mutate (buckets : Buckets) (identifier : String) (change : Bucket → Bucket)
    (own : String) :
    windowsHeld (mutate buckets identifier change) own =
      if own = identifier then keys (change ((buckets.lookup identifier).getD []))
      else windowsHeld buckets own := by
  unfold windowsHeld mutate
  rw [Grouping.lookup_upsert]
  by_cases hown : own = identifier
  · rw [if_pos hown, if_pos hown]
    cases buckets.lookup identifier <;> rfl
  · rw [if_neg hown, if_neg hown]

theorem windowsHeld_touch (buckets : Buckets) (identifier : String) (window : Int) (first : Nat)
    (step : Nat → Nat) (own : String) :
    windowsHeld (mutate buckets identifier fun bucket => upsert bucket window first step) own =
      if own = identifier then touch (windowsHeld buckets identifier) window
      else windowsHeld buckets own := by
  rw [windowsHeld_mutate, keys_upsert]
  rfl

theorem windowsHeld_evict (buckets : Buckets) (identifier : String) (window : Int)
    (own : String) :
    windowsHeld (mutate buckets identifier fun bucket =>
      bucket.filter fun entry => !decide (entry.1 < window)) own =
      if own = identifier then evict (windowsHeld buckets identifier) window
      else windowsHeld buckets own := by
  rw [windowsHeld_mutate]
  unfold windowsHeld evict keys
  rw [List.filter_map]
  rfl

/-- What a call leaves of the windows of its identifier. -/
def heldAfter (held : List Int) (time : Rat) (call : Call) : List Int :=
  touch (if call.checks then evict held (currentWindow time) else held) (currentWindow time)

/-- **One call.** -/
theorem windowsHeld_answer (buckets : Buckets) (time : Rat) (call : Call) (own : String) :
    windowsHeld (answer buckets time call).2 own =
      if own = call.identifier then heldAfter (windowsHeld buckets call.identifier) time call
      else windowsHeld buckets own := by
  have hincrement : ∀ identifier, windowsHeld (increment buckets identifier time).2 own =
      if own = identifier then touch (windowsHeld buckets identifier) (currentWindow time)
      else windowsHeld buckets own :=
    fun identifier => windowsHeld_touch buckets identifier (currentWindow time) 1 (· + 1) own
  cases call with
  | isRateLimited identifier limit =>
      show windowsHeld (getCount buckets identifier time).2 own = _
      unfold getCount
      rw [windowsHeld_touch, windowsHeld_evict, windowsHeld_evict, if_pos rfl]
      by_cases hown : own = identifier
      · rw [if_pos hown]
        exact (if_pos hown).symm
      · rw [if_neg hown, if_neg hown]
        exact (if_neg hown).symm
  | recordRequest identifier => exact hincrement identifier
  | enforceRateLimit identifier limit =>
      rw [answer_enforceRateLimit_snd]
      exact hincrement identifier

/-! ## Runs -/

/-- The times of the calls for an identifier since its last check, that one included. -/
def sinceCheck (identifier : String) (calls : List (Rat × Call)) : List Rat :=
  calls.foldl (fun times call =>
    if call.2.identifier = identifier then
      if call.2.checks then [call.1] else times ++ [call.1]
    else times) []

/-- The times lie in one window. -/
def OneWindow (times : List Rat) : Prop :=
  ∀ a ∈ times, ∀ b ∈ times, currentWindow a = currentWindow b

/-- The windows held are those of the times, each held once. -/
structure HoldsWindows (held : List Int) (times : List Rat) : Prop where
  nodup : held.Nodup
  mem : ∀ window, window ∈ held ↔ window ∈ times.map currentWindow

theorem sinceCheck_concat (identifier : String) (calls : List (Rat × Call)) (call : Rat × Call) :
    sinceCheck identifier (calls ++ [call]) =
      if call.2.identifier = identifier then
        if call.2.checks then [call.1] else sinceCheck identifier calls ++ [call.1]
      else sinceCheck identifier calls := by
  unfold sinceCheck
  rw [List.foldl_concat]

theorem afterAll_concat (buckets : Buckets) (calls : List (Rat × Call)) (call : Rat × Call) :
    afterAll buckets (calls ++ [call]) =
      (answer (afterAll buckets calls) call.1 call.2).2 := by
  unfold afterAll
  rw [List.foldl_concat]

/-- No time since the last check is not the time of a call. -/
theorem mem_sinceCheck {identifier : String} {calls : List (Rat × Call)} {time : Rat}
    (h : time ∈ sinceCheck identifier calls) : ∃ call ∈ calls, call.1 = time := by
  induction calls using List.reverseRecOn with
  | nil => simp [sinceCheck] at h
  | append_singleton calls call ih =>
      have hold : time ∈ sinceCheck identifier calls →
          ∃ other ∈ calls ++ [call], other.1 = time := by
        intro hmem
        obtain ⟨other, hother, htime⟩ := ih hmem
        exact ⟨other, List.mem_append_left _ hother, htime⟩
      rw [sinceCheck_concat] at h
      split_ifs at h
      · exact ⟨call, by simp, (List.mem_singleton.mp h).symm⟩
      · rcases List.mem_append.mp h with h | h
        · exact hold h
        · exact ⟨call, by simp, (List.mem_singleton.mp h).symm⟩
      · exact hold h

/-- A check evicts all windows but its own, if none of them is to come. -/
theorem HoldsWindows.check {held : List Int} {times : List Rat} (h : HoldsWindows held times)
    {time : Rat} (hpast : ∀ old ∈ times, currentWindow old ≤ currentWindow time) :
    HoldsWindows (touch (evict held (currentWindow time)) (currentWindow time)) [time] where
  nodup := nodup_touch (h.nodup.filter _) _
  mem window := by
    have hkept : window ∈ evict held (currentWindow time) → window = currentWindow time := by
      intro hmem
      obtain ⟨hheld, hlive⟩ := List.mem_filter.mp hmem
      obtain ⟨old, hold, hwindow⟩ := List.mem_map.mp ((h.mem window).mp hheld)
      have hle : window ≤ currentWindow time := hwindow ▸ hpast old hold
      have hge : ¬ window < currentWindow time := by simpa using hlive
      omega
    rw [mem_touch, List.map_singleton, List.mem_singleton]
    exact ⟨fun hor => hor.elim hkept id, Or.inr⟩

theorem HoldsWindows.request {held : List Int} {times : List Rat} (h : HoldsWindows held times)
    (time : Rat) : HoldsWindows (touch held (currentWindow time)) (times ++ [time]) where
  nodup := nodup_touch h.nodup _
  mem window := by
    rw [mem_touch, h.mem, List.map_append, List.mem_append, List.map_singleton,
      List.mem_singleton]

/-- **The invariant.** What is held for an identifier are the windows of its calls since the last
    check. -/
theorem holdsWindows_afterAll {calls : List (Rat × Call)} (hclock : NonDecreasing calls)
    (identifier : String) :
    HoldsWindows (windowsHeld (afterAll [] calls) identifier) (sinceCheck identifier calls) := by
  induction calls using List.reverseRecOn with
  | nil => exact ⟨List.nodup_nil, fun window => Iff.rfl⟩
  | append_singleton calls call ih =>
      obtain ⟨hbefore, -, hlast⟩ := List.pairwise_append.mp hclock
      have hheld := ih hbefore
      rw [afterAll_concat, windowsHeld_answer, sinceCheck_concat]
      by_cases hown : call.2.identifier = identifier
      · rw [if_pos hown, if_pos hown.symm, hown]
        unfold heldAfter
        split_ifs
        · refine hheld.check fun old hold => ?_
          obtain ⟨other, hother, htime⟩ := mem_sinceCheck hold
          exact currentWindow_mono (htime ▸ hlast other hother call (List.mem_singleton_self _))
        · exact hheld.request call.1
      · rw [if_neg hown, if_neg (Ne.symm hown)]
        exact hheld

theorem lastWindow_eq (identifier : String) (calls : List (Rat × Call)) :
    lastWindow identifier calls = (sinceCheck identifier calls).getLast?.map currentWindow := by
  induction calls using List.reverseRecOn with
  | nil => rfl
  | append_singleton calls call ih =>
      rw [sinceCheck_concat]
      unfold lastWindow at ih ⊢
      rw [List.filter_append]
      by_cases hown : call.2.identifier = identifier
      · have hlast : [call].filter (fun call => call.2.identifier = identifier) = [call] :=
          List.filter_cons_of_pos (decide_eq_true hown)
        rw [hlast, List.getLast?_append, if_pos hown]
        split_ifs <;> simp
      · have hnone : [call].filter (fun call => call.2.identifier = identifier) = [] :=
          List.filter_cons_of_neg (by simpa using hown)
        rw [hnone, List.append_nil, ih, if_neg hown]

theorem HoldsWindows.eq_last_iff {held : List Int} {times : List Rat}
    (h : HoldsWindows held times) :
    held = (times.getLast?.map currentWindow).toList ↔ OneWindow times := by
  match hlast : times.getLast? with
  | none =>
      have hnil : times = [] := List.getLast?_eq_none_iff.mp hlast
      subst hnil
      have hempty : held = [] := List.eq_nil_iff_forall_not_mem.mpr fun window hmem => by
        simpa using (h.mem window).mp hmem
      simp [hempty, OneWindow]
  | some last =>
      have hmem : last ∈ times := List.mem_of_getLast? hlast
      rw [Option.map_some, Option.toList_some]
      constructor
      · intro hheld
        have hsame : ∀ time ∈ times, currentWindow time = currentWindow last := by
          intro time htime
          have hwindow := (h.mem _).mpr (List.mem_map_of_mem htime)
          rwa [hheld, List.mem_singleton] at hwindow
        intro a ha b hb
        rw [hsame a ha, hsame b hb]
      · intro hone
        refine List.perm_singleton.mp ?_
        rw [List.perm_ext_iff_of_nodup h.nodup (List.nodup_singleton _)]
        intro window
        rw [h.mem, List.mem_singleton, List.mem_map]
        constructor
        · rintro ⟨time, htime, hwindow⟩
          rw [← hwindow, hone time htime last hmem]
        · intro hwindow
          exact ⟨last, hmem, hwindow.symm⟩

/-- **Bounded memory.** Only the last window is kept for every identifier, exactly if no
    identifier was called in two windows since its last check. -/
theorem onlyLastWindow_iff {calls : List (Rat × Call)} (hclock : NonDecreasing calls) :
    OnlyLastWindow calls ↔ ∀ identifier, OneWindow (sinceCheck identifier calls) := by
  unfold OnlyLastWindow
  apply forall_congr'
  intro identifier
  rw [lastWindow_eq]
  exact (holdsWindows_afterAll hclock identifier).eq_last_iff

/-- Two requests of one client, in two minutes, as the middleware records them. -/
def twoRequests : List (Rat × Call) :=
  [(58, .enforceRateLimit "ip:1.2.3.4" 60), (61, .enforceRateLimit "ip:1.2.3.4" 60)]

/-- The window of the first request is kept. -/
theorem not_onlyLastWindow_twoRequests :
    NonDecreasing twoRequests ∧
      windowsHeld (afterAll [] twoRequests) "ip:1.2.3.4" = [0, 1] ∧
      lastWindow "ip:1.2.3.4" twoRequests = some 1 ∧ ¬ OnlyLastWindow twoRequests := by
  have hheld : windowsHeld (afterAll [] twoRequests) "ip:1.2.3.4" = [0, 1] := by decide
  have hlast : lastWindow "ip:1.2.3.4" twoRequests = some 1 := by decide
  refine ⟨?_, hheld, hlast, fun h => ?_⟩
  · unfold NonDecreasing twoRequests
    decide
  · have hone := h "ip:1.2.3.4"
    rw [hheld, hlast] at hone
    simp at hone

/-- A check between the two requests evicts the window of the first. -/
def checkedRequests : List (Rat × Call) :=
  [(58, .enforceRateLimit "ip:1.2.3.4" 60), (61, .isRateLimited "ip:1.2.3.4" 60),
    (62, .enforceRateLimit "ip:1.2.3.4" 60)]

theorem onlyLastWindow_checkedRequests :
    NonDecreasing checkedRequests ∧ OnlyLastWindow checkedRequests := by
  have hclock : NonDecreasing checkedRequests := by
    unfold NonDecreasing checkedRequests
    decide
  refine ⟨hclock, (onlyLastWindow_iff hclock).mpr fun identifier => ?_⟩
  by_cases hown : "ip:1.2.3.4" = identifier
  · subst hown
    have htimes : sinceCheck "ip:1.2.3.4" checkedRequests = [61, 62] := by decide
    unfold OneWindow
    rw [htimes]
    decide
  · have htimes : sinceCheck identifier checkedRequests = [] := by
      simp [sinceCheck, checkedRequests, Call.identifier, hown]
    unfold OneWindow
    simp [htimes]

end AgentCorp.Security
