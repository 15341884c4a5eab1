/-
  Loops that run until their body says stop.

  `body s` is one pass of a `while True` loop at the state `s`: it stops, goes on at a new
  state, or throws. `run` executes the loop with fuel and `Reaches` relates a state to every
  state at which a later pass starts.

  * `Invariant.of_reaches`: what every pass keeps holds at every state the loop reaches.
  * `run_mono`: more fuel does not change a finished run.
  * `run_ok`, `run_error`: a finished run ended at a reachable state whose pass stopped, or threw.
  * `exists_run`: a measure that every pass decreases (under an invariant) bounds the fuel,
    so the loop terminates, and its end satisfies the invariant.
  * `run_eq_none`: where every pass goes on, no fuel is enough.
  * `run_of_fresh`: a loop that visits one element of a finite list in each pass ends, if from
    some pass on it only visits new ones.
  * `run_congr`: bodies that agree on what is reached run alike.
  * `run_map`: loops whose bodies agree along a projection end alike.
-/
import Mathlib.Data.List.Nodup
import Mathlib.Logic.Relation
import Mathlib.Order.Basic

namespace WhileLoop

/-- The outcome of one pass of the loop. -/
inductive Iter (σ ε : Type) where
  | stop
  | next (s : σ)
  | throw (e : ε)

variable {σ ε : Type} {body : σ → Iter σ ε}

/-- Run the loop from `s` for at most `fuel` passes. `none` is out of fuel. -/
def run (body : σ → Iter σ ε) : ℕ → σ → Option (Except ε σ)
  | 0, _ => none
  | fuel + 1, s =>
      match body s with
      | .stop => some (.ok s)
      | .next t => run body fuel t
      | .throw e => some (.error e)

/-- The pass at `s` continues at `t`. -/
def Steps (body : σ → Iter σ ε) (s t : σ) : Prop :=
  body s = .next t

/-- A pass starts at `t` in the run that starts at `s`. -/
def Reaches (body : σ → Iter σ ε) : σ → σ → Prop :=
  Relation.ReflTransGen (Steps body)

/-- `I` is kept by every pass. -/
def Invariant (body : σ → Iter σ ε) (I : σ → Prop) : Prop :=
  ∀ s t, I s → Steps body s t → I t

theorem Invariant.of_reaches {I : σ → Prop} (hI : Invariant body I) {s t : σ} (hs : I s)
    (h : Reaches body s t) : I t := by
  induction h with
  | refl => exact hs
  | tail _ hstep ih => exact hI _ _ ih hstep

/-- The passes of a run are in order. -/
theorem Reaches.total {s t u : σ} (ht : Reaches body s t) (hu : Reaches body s u) :
    Reaches body t u ∨ Reaches body u t := by
  apply Relation.ReflTransGen.total_of_right_unique _ ht hu
  intro a b c hb hc
  exact Iter.next.inj (hb.symm.trans hc)

/-- Nothing comes after a pass that does not go on. -/
theorem Reaches.eq_of_end {s t : σ} (hend : ∀ u, ¬ Steps body s u) (h : Reaches body s t) :
    t = s := by
  rcases h.cases_head with rfl | ⟨u, hstep, -⟩
  · rfl
  · exact absurd hstep (hend u)

theorem Invariant.and {I J : σ → Prop} (hI : Invariant body I)
    (hJ : ∀ s t, I s → J s → Steps body s t → J t) : Invariant body (fun s => I s ∧ J s) :=
  fun s t h hstep => ⟨hI s t h.1 hstep, hJ s t h.1 h.2 hstep⟩

/-- Project the states and what is thrown. -/
def Iter.map {σ' ε' : Type} (f : σ → σ') (g : ε → ε') : Iter σ ε → Iter σ' ε'
  | .stop => .stop
  | .next s => .next (f s)
  | .throw e => .throw (g e)

/-! ## One unfolding -/

theorem run_stop {s : σ} (h : body s = .stop) (fuel : ℕ) :
    run body (fuel + 1) s = some (.ok s) := by
  simp only [run, h]

theorem run_next {s t : σ} (h : body s = .next t) (fuel : ℕ) :
    run body (fuel + 1) s = run body fuel t := by
  simp only [run, h]

theorem run_throw {s : σ} {e : ε} (h : body s = .throw e) (fuel : ℕ) :
    run body (fuel + 1) s = some (.error e) := by
  simp only [run, h]

/-! ## Finished runs -/

theorem run_succ_mono {r : Except ε σ} {n : ℕ} {s : σ} (h : run body n s = some r) :
    run body (n + 1) s = some r := by
  induction n generalizing s with
  | zero => simp [run] at h
  | succ n ih =>
      cases hb : body s with
      | stop =>
          rw [run_stop hb] at h ⊢
          exact h
      | next t =>
          rw [run_next hb] at h ⊢
          exact ih h
      | throw e =>
          rw [run_throw hb] at h ⊢
          exact h

theorem run_mono {r : Except ε σ} {n m : ℕ} {s : σ} (h : run body n s = some r)
    (hnm : n ≤ m) : run body m s = some r := by
  induction hnm with
  | refl => exact h
  | step _ ih => exact run_succ_mono ih

/-- A run that stops did so at a state it reached and whose pass stops. -/
theorem run_ok {n : ℕ} {s t : σ} (h : run body n s = some (.ok t)) :
    Reaches body s t ∧ body t = .stop := by
  induction n generalizing s with
  | zero => simp [run] at h
  | succ n ih =>
      cases hb : body s with
      | stop =>
          rw [run_stop hb] at h
          obtain rfl : s = t := by simpa using h
          exact ⟨.refl, hb⟩
      | next u =>
          rw [run_next hb] at h
          obtain ⟨hreach, hstop⟩ := ih h
          exact ⟨.head hb hreach, hstop⟩
      | throw e =>
          rw [run_throw hb] at h
          simp at h

/-- A run that throws did so in the pass at a state it reached. -/
theorem run_error {n : ℕ} {s : σ} {e : ε} (h : run body n s = some (.error e)) :
    ∃ t, Reaches body s t ∧ body t = .throw e := by
  induction n generalizing s with
  | zero => simp [run] at h
  | succ n ih =>
      cases hb : body s with
      | stop =>
          rw [run_stop hb] at h
          simp at h
      | next u =>
          rw [run_next hb] at h
          obtain ⟨t, hreach, hthrow⟩ := ih h
          exact ⟨t, .head hb hreach, hthrow⟩
      | throw e' =>
          rw [run_throw hb] at h
          obtain rfl : e' = e := by simpa using h
          exact ⟨s, .refl, hb⟩

/-! ## Termination -/

/-- A measure `μ` that every pass decreases under the invariant `I` bounds the passes. -/
theorem run_of_measure {I : σ → Prop} (hI : Invariant body I) (μ : σ → ℕ)
    (hμ : ∀ s t, I s → Steps body s t → μ t < μ s) {n : ℕ} {s : σ} (hs : I s) (hn : μ s < n) :
    ∃ r, run body n s = some r := by
  induction n generalizing s with
  | zero => exact absurd hn (Nat.not_lt_zero _)
  | succ n ih =>
      cases hb : body s with
      | stop => exact ⟨_, run_stop hb n⟩
      | next t =>
          have hlt : μ t < μ s := hμ s t hs hb
          obtain ⟨r, hr⟩ := ih (hI s t hs hb) (by omega)
          exact ⟨r, by rw [run_next hb, hr]⟩
      | throw e => exact ⟨_, run_throw hb n⟩

/-- **Total correctness.** With an invariant and a measure that every pass decreases, the
    loop ends, always in the same way once the fuel exceeds the measure, at a state that
    satisfies the invariant and whose pass stopped or threw. -/
theorem exists_run {I : σ → Prop} (hI : Invariant body I) (μ : σ → ℕ)
    (hμ : ∀ s t, I s → Steps body s t → μ t < μ s) {s : σ} (hs : I s) :
    ∃ r, (∀ n, μ s < n → run body n s = some r) ∧
      match r with
      | .ok t => Reaches body s t ∧ I t ∧ body t = .stop
      | .error e => ∃ t, Reaches body s t ∧ I t ∧ body t = .throw e := by
  obtain ⟨r, hr⟩ := run_of_measure hI μ hμ hs (Nat.lt_succ_self (μ s))
  refine ⟨r, fun n hn => run_mono hr hn, ?_⟩
  cases r with
  | ok t =>
      obtain ⟨hreach, hstop⟩ := run_ok hr
      exact ⟨hreach, hI.of_reaches hs hreach, hstop⟩
  | error e =>
      obtain ⟨t, hreach, hthrow⟩ := run_error hr
      exact ⟨t, hreach, hI.of_reaches hs hreach, hthrow⟩

/-- Where every pass goes on, no fuel is enough. -/
theorem run_eq_none {I : σ → Prop} (hI : ∀ s, I s → ∃ t, body s = .next t ∧ I t) (n : ℕ) {s : σ}
    (hs : I s) : run body n s = none := by
  induction n generalizing s with
  | zero => rfl
  | succ n ih =>
      obtain ⟨t, hnext, ht⟩ := hI s hs
      rw [run_next hnext]
      exact ih ht

/-! ## Loops that log what they visit -/

section Log

variable {α : Type} {log : σ → List α}

/-- A finished run has logged less than its fuel. -/
theorem length_log_lt (hlog : ∀ s t, Steps body s t → ∃ a, log t = log s ++ [a])
    {r : Except ε σ} {n : ℕ} {s t : σ} (hrun : run body n s = some r)
    (hreach : Reaches body s t) : (log t).length < (log s).length + n := by
  induction n generalizing s with
  | zero => simp [run] at hrun
  | succ n ih =>
      rcases hreach.cases_head with rfl | ⟨u, hstep, hreach⟩
      · omega
      · obtain ⟨a, ha⟩ := hlog s u hstep
        have hlength : (log u).length = (log s).length + 1 := by
          rw [ha, List.length_append, List.length_singleton]
        have hlt : (log t).length < (log u).length + n := by
          apply ih _ hreach
          rw [← hrun, run_next hstep]
        omega

/-- **Fresh visits.** A loop that logs one element of a list in each pass ends, if all that it
    logs after `n` passes is new. -/
theorem run_of_fresh (hlog : ∀ s t, Steps body s t → ∃ a, log t = log s ++ [a]) {s : σ}
    (hs : log s = []) {l : List α} (hl : ∀ t, Reaches body s t → log t ⊆ l) {n : ℕ}
    (hfresh : ∀ u t a, Reaches body s u → Steps body u t → n ≤ (log u).length →
      log t = log u ++ [a] → a ∉ log u) :
    ∃ r, run body (n + l.length + 1) s = some r := by
  -- What is logged after `n` passes has no duplicates, so there is no more of it than of `l`.
  have hinvariant : Invariant body fun t => Reaches body s t ∧ ((log t).drop n).Nodup := by
    rintro u t ⟨hreach, hnodup⟩ hstep
    refine ⟨hreach.tail hstep, ?_⟩
    obtain ⟨a, ha⟩ := hlog u t hstep
    rw [ha]
    by_cases hn : n ≤ (log u).length
    · have hnew : a ∉ log u := hfresh u t a hreach hstep hn ha
      rw [List.drop_append_of_le_length hn]
      exact hnodup.append (List.nodup_singleton a)
        (List.disjoint_singleton.mpr fun hmem => hnew (List.mem_of_mem_drop hmem))
    · have hshort : (log u ++ [a]).length ≤ n := by
        rw [List.length_append, List.length_singleton]
        omega
      rw [List.drop_eq_nil_of_le hshort]
      exact List.nodup_nil
  have hbound : ∀ t, Reaches body s t ∧ ((log t).drop n).Nodup →
      (log t).length ≤ n + l.length := by
    intro t ht
    have hsubset : (log t).drop n ⊆ l := fun a ha => hl t ht.1 (List.mem_of_mem_drop ha)
    have hle : ((log t).drop n).length ≤ l.length := ht.2.length_le_of_subset hsubset
    rw [List.length_drop] at hle
    omega
  refine run_of_measure hinvariant (fun t => n + l.length - (log t).length) ?_
    ⟨.refl, by rw [hs, List.drop_nil]; exact List.nodup_nil⟩ (by omega)
  intro u t hu hstep
  obtain ⟨a, ha⟩ := hlog u t hstep
  have hlength : (log t).length = (log u).length + 1 := by
    rw [ha, List.length_append, List.length_singleton]
  have hle := hbound t (hinvariant u t hu hstep)
  omega

end Log

/-! ## Two bodies -/

/-- Bodies that agree wherever the first one gets to reach the same states. -/
theorem reaches_congr {body' : σ → Iter σ ε} {s : σ}
    (h : ∀ t, Reaches body s t → body' t = body t) {t : σ} :
    Reaches body' s t ↔ Reaches body s t := by
  constructor
  · intro hreach
    induction hreach with
    | refl => exact .refl
    | tail _ hstep ih => exact ih.tail ((h _ ih).symm.trans hstep)
  · intro hreach
    induction hreach with
    | refl => exact .refl
    | tail hprev hstep ih => exact ih.tail ((h _ hprev).trans hstep)

/-- And they end alike. -/
theorem run_congr {body' : σ → Iter σ ε} {s : σ}
    (h : ∀ t, Reaches body s t → body' t = body t) (n : ℕ) :
    run body' n s = run body n s := by
  induction n generalizing s with
  | zero => rfl
  | succ n ih =>
      unfold run
      rw [h s .refl]
      cases hb : body s with
      | stop => rfl
      | next t => exact ih fun u hreach => h u (.head hb hreach)
      | throw e => rfl

/-! ## Projection -/

/-- Where a loop is followed by another one along a projection of its states, under an
    invariant of the first, the second ends as the first does. -/
theorem run_map {σ' ε' : Type} {body' : σ' → Iter σ' ε'} {f : σ → σ'} {g : ε → ε'}
    {I : σ → Prop} (hI : Invariant body I)
    (h : ∀ s, I s → body' (f s) = (body s).map f g) (n : ℕ) {s : σ} (hs : I s) :
    run body' n (f s) = (run body n s).map fun r => (r.map f).mapError g := by
  induction n generalizing s with
  | zero => rfl
  | succ n ih =>
      have hbody := h s hs
      cases hb : body s with
      | stop =>
          rw [hb] at hbody
          rw [run_stop hbody, run_stop hb]
          rfl
      | next t =>
          rw [hb] at hbody
          rw [run_next hbody, run_next hb]
          exact ih (hI s t hs hb)
      | throw e =>
          rw [hb] at hbody
          rw [run_throw hbody, run_throw hb]
          rfl

end WhileLoop
