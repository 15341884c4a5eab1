/-
  Groups of tasks that take turns, as structured concurrency has them.

  A task suspends a number of times, and then it returns or raises. Once a task of the group has
  raised, the others may be cancelled where they are suspended; whether a task can also be
  cancelled before its first step is a parameter. A suspended task that is ready again may still
  be resumed before its cancellation comes to it.

  * `Runs.invariant`: what the status of a task says of it, in every run.
  * `exists_completes`: every run can be brought to its end.
  * `all_return_iff`: the groups whose tasks all come to the end that is theirs.
-/
import Mathlib.Data.Fintype.Defs
import Mathlib.Data.Finset.Dedup
import Mathlib.Logic.Function.Basic
import Mathlib.Logic.Relation

namespace TaskGroup

variable {ε ι : Type}

/-- How often a task suspends, and what it raises after that. -/
structure Task (ε : Type) where
  suspensions : Nat
  failure : Option ε

inductive Status (ε : Type) where
  | waiting
  | suspended (left : Nat)
  | returned
  | raised (e : ε)
  | cancelled

def Status.Ended : Status ε → Prop
  | .waiting => False
  | .suspended _ => False
  | .returned => True
  | .raised _ => True
  | .cancelled => True

def Status.failure : Status ε → Option ε
  | .raised e => some e
  | _ => none

/-- Where a task comes to that runs, with so many suspension points before it. -/
def Task.advance (task : Task ε) : Nat → Status ε
  | 0 =>
      match task.failure with
      | none => .returned
      | some e => .raised e
  | left + 1 => .suspended left

variable [DecidableEq ι]

/-- One task takes a step. -/
inductive Step (tasks : ι → Task ε) (interruptsStart : Bool) :
    (ι → Status ε) → (ι → Status ε) → Prop
  | start {s : ι → Status ε} {i : ι} (hi : s i = .waiting) :
      Step tasks interruptsStart s
        (Function.update s i ((tasks i).advance (tasks i).suspensions))
  | resume {s : ι → Status ε} {i : ι} {left : Nat} (hi : s i = .suspended left) :
      Step tasks interruptsStart s (Function.update s i ((tasks i).advance left))
  | cancel {s : ι → Status ε} {i : ι} {left : Nat} (hi : s i = .suspended left)
      (hraised : ∃ j e, s j = .raised e) :
      Step tasks interruptsStart s (Function.update s i .cancelled)
  | interrupt {s : ι → Status ε} {i : ι} (hstart : interruptsStart = true)
      (hi : s i = .waiting) (hraised : ∃ j e, s j = .raised e) :
      Step tasks interruptsStart s (Function.update s i .cancelled)

/-- A run of the group, from the start of its first task on. -/
def Runs (tasks : ι → Task ε) (interruptsStart : Bool) (s : ι → Status ε) : Prop :=
  Relation.ReflTransGen (Step tasks interruptsStart) (fun _ => .waiting) s

/-- A run in which every task has ended. -/
def Completes (tasks : ι → Task ε) (interruptsStart : Bool) (s : ι → Status ε) : Prop :=
  Runs tasks interruptsStart s ∧ ∀ i, (s i).Ended

variable {tasks : ι → Task ε} {interruptsStart : Bool} {s t : ι → Status ε}

/-! ## The invariant -/

/-- What a status says of the task. -/
def Status.Fits (task : Task ε) (interruptsStart : Bool) : Status ε → Prop
  | .waiting => True
  | .suspended left => left < task.suspensions
  | .returned => task.failure = none
  | .raised e => task.failure = some e
  | .cancelled => 0 < task.suspensions ∨ interruptsStart = true

/-- Every status fits, and a task is cancelled only if another one has raised. -/
structure Invariant (tasks : ι → Task ε) (interruptsStart : Bool) (s : ι → Status ε) :
    Prop where
  fits : ∀ i, (s i).Fits (tasks i) interruptsStart
  cause : (∃ i, s i = .cancelled) → ∃ j e, s j = .raised e

omit [DecidableEq ι] in
theorem fits_advance (task : Task ε) {left : Nat} (h : left ≤ task.suspensions) :
    (task.advance left).Fits task interruptsStart := by
  cases left with
  | zero =>
      unfold Task.advance
      cases hfailure : task.failure with
      | none => exact hfailure
      | some e => exact hfailure
  | succ left => exact h

omit [DecidableEq ι] in
theorem advance_ne_cancelled (task : Task ε) (left : Nat) : task.advance left ≠ .cancelled := by
  cases left with
  | zero =>
      unfold Task.advance
      cases task.failure <;> nofun
  | succ left => nofun

/-- A task that has not ended goes on to a status that fits. -/
theorem Invariant.update (h : Invariant tasks interruptsStart s) {i : ι} {status : Status ε}
    (hi : ∀ e, s i ≠ .raised e) (hfits : status.Fits (tasks i) interruptsStart)
    (hcause : status = .cancelled → ∃ j e, s j = .raised e) :
    Invariant tasks interruptsStart (Function.update s i status) := by
  constructor
  · intro j
    by_cases hj : j = i
    · rw [hj, Function.update_self]
      exact hfits
    · rw [Function.update_of_ne hj]
      exact h.fits j
  · intro ⟨j, hcancelled⟩
    obtain ⟨k, e, hk⟩ : ∃ k e, s k = .raised e := by
      by_cases hj : j = i
      · rw [hj, Function.update_self] at hcancelled
        exact hcause hcancelled
      · rw [Function.update_of_ne hj] at hcancelled
        exact h.cause ⟨j, hcancelled⟩
    have hne : k ≠ i := fun heq => hi e (heq ▸ hk)
    exact ⟨k, e, by rw [Function.update_of_ne hne, hk]⟩

theorem Invariant.step (h : Invariant tasks interruptsStart s)
    (hstep : Step tasks interruptsStart s t) : Invariant tasks interruptsStart t := by
  cases hstep with
  | @start i hi =>
      refine h.update (by rw [hi]; nofun) (fits_advance _ (Nat.le_refl _)) ?_
      exact fun heq => absurd heq (advance_ne_cancelled _ _)
  | @resume i left hi =>
      have hleft := h.fits i
      rw [hi] at hleft
      refine h.update (by rw [hi]; nofun) (fits_advance _ (Nat.le_of_lt hleft)) ?_
      exact fun heq => absurd heq (advance_ne_cancelled _ _)
  | @cancel i left hi hraised =>
      have hleft := h.fits i
      rw [hi] at hleft
      refine h.update (by rw [hi]; nofun) (.inl ?_) fun _ => hraised
      exact Nat.lt_of_le_of_lt (Nat.zero_le left) hleft
  | @interrupt i hstart hi hraised =>
      exact h.update (by rw [hi]; nofun) (.inr hstart) fun _ => hraised

theorem Runs.invariant (h : Runs tasks interruptsStart s) :
    Invariant tasks interruptsStart s := by
  induction h with
  | refl => exact ⟨fun _ => trivial, fun ⟨_, hcancelled⟩ => nomatch hcancelled⟩
  | tail _ hstep ih => exact ih.step hstep

/-! ## Runs to the end -/

abbrev Steps (tasks : ι → Task ε) (interruptsStart : Bool) :=
  Relation.ReflTransGen (Step tasks interruptsStart)

/-- A task that runs, run to its end. -/
theorem steps_advance (s : ι → Status ε) (i : ι) (left : Nat) :
    Steps tasks interruptsStart (Function.update s i ((tasks i).advance left))
      (Function.update s i ((tasks i).advance 0)) := by
  induction left with
  | zero => exact .refl
  | succ left ih =>
      have hstep : Step tasks interruptsStart
          (Function.update s i ((tasks i).advance (left + 1)))
          (Function.update (Function.update s i ((tasks i).advance (left + 1))) i
            ((tasks i).advance left)) := .resume (Function.update_self i _ s)
      rw [Function.update_idem] at hstep
      exact .head hstep ih

omit [DecidableEq ι] in
theorem ended_advance (task : Task ε) : (task.advance 0).Ended := by
  unfold Task.advance
  cases task.failure <;> trivial

variable (tasks interruptsStart)

/-- Any task can be brought to its end. -/
theorem exists_ended (s : ι → Status ε) (i : ι) :
    ∃ status, status.Ended ∧ Steps tasks interruptsStart s (Function.update s i status) ∧
      ((s i).Ended → status = s i) := by
  cases hi : s i with
  | waiting =>
      exact ⟨_, ended_advance (tasks i), .head (.start hi) (steps_advance s i _), False.elim⟩
  | suspended left =>
      exact ⟨_, ended_advance (tasks i), .head (.resume hi) (steps_advance s i _), False.elim⟩
  | returned => exact ⟨.returned, trivial, by rw [← hi, Function.update_eq_self], fun _ => rfl⟩
  | raised e => exact ⟨.raised e, trivial, by rw [← hi, Function.update_eq_self], fun _ => rfl⟩
  | cancelled => exact ⟨.cancelled, trivial, by rw [← hi, Function.update_eq_self], fun _ => rfl⟩

theorem exists_ended_list (l : List ι) (s : ι → Status ε) :
    ∃ t, Steps tasks interruptsStart s t ∧ (∀ i ∈ l, (t i).Ended) ∧
      ∀ i, (s i).Ended → t i = s i := by
  induction l generalizing s with
  | nil => exact ⟨s, .refl, fun _ hi => absurd hi List.not_mem_nil, fun _ _ => rfl⟩
  | cons i l ih =>
      obtain ⟨status, hended, hsteps, hsame⟩ := exists_ended tasks interruptsStart s i
      obtain ⟨t, hrest, hall, hkept⟩ := ih (Function.update s i status)
      have hti : t i = status := by
        rw [hkept i (by rw [Function.update_self]; exact hended), Function.update_self]
      refine ⟨t, hsteps.trans hrest, List.forall_mem_cons.mpr ⟨hti ▸ hended, hall⟩, ?_⟩
      intro j hj
      by_cases heq : j = i
      · rw [heq] at hj ⊢
        rw [hti, hsame hj]
      · have hother : Function.update s i status j = s j := Function.update_of_ne heq _ _
        rw [hkept j (by rw [hother]; exact hj), hother]

variable {tasks interruptsStart}

/-- Every run can be brought to its end, and keeps the tasks that have ended. -/
theorem exists_completes [Fintype ι] (hs : Runs tasks interruptsStart s) :
    ∃ t, Completes tasks interruptsStart t ∧ ∀ i, (s i).Ended → t i = s i := by
  obtain ⟨t, hsteps, hall, hkept⟩ :=
    exists_ended_list tasks interruptsStart Finset.univ.toList s
  exact ⟨t, ⟨hs.trans hsteps, fun i => hall i (Finset.mem_toList.mpr (Finset.mem_univ i))⟩, hkept⟩

/-! ## Isolation -/

/-- The tasks that do not fail suspend nowhere and are not cancelled before they start. -/
def Brief (tasks : ι → Task ε) (interruptsStart : Bool) : Prop :=
  ∀ i, (tasks i).failure = none → (tasks i).suspensions = 0 ∧ interruptsStart = false

/-- A task that does not fail may be cancelled once another one has raised. -/
theorem exists_cancelled [Fintype ι] {i j : ι} {e : ε} (hi : (tasks i).failure = none)
    (hj : (tasks j).failure = some e)
    (hexposed : 0 < (tasks i).suspensions ∨ interruptsStart = true) :
    ∃ t, Completes tasks interruptsStart t ∧ t i = .cancelled := by
  have hne : i ≠ j := fun heq => nomatch (heq ▸ hi).symm.trans hj
  have hend : (tasks j).advance 0 = .raised e := by
    unfold Task.advance
    rw [hj]
  -- the other task starts and runs to its end, wherever this one is
  have hraise : ∀ u : ι → Status ε, u j = .waiting →
      Steps tasks interruptsStart u (Function.update u j (.raised e)) := by
    intro u hu
    rw [← hend]
    exact .head (.start hu) (steps_advance u j _)
  have hother : ∀ u : ι → Status ε, Function.update u j (.raised e) i = u i := fun u =>
    Function.update_of_ne hne _ _
  have hcause : ∀ u : ι → Status ε, ∃ k e', Function.update u j (.raised e) k = .raised e' :=
    fun u => ⟨j, e, Function.update_self j _ u⟩
  obtain ⟨u, hu, hcancelled⟩ : ∃ u, Runs tasks interruptsStart u ∧ u i = .cancelled := by
    rcases hexposed with hsuspends | hstart
    · -- it is suspended for the first time when the other one raises
      let first : ι → Status ε := Function.update (fun _ => .waiting) i
        ((tasks i).advance (tasks i).suspensions)
      obtain ⟨left, hleft⟩ := Nat.exists_eq_add_one_of_ne_zero (Nat.ne_of_gt hsuspends)
      have hfirst : first i = .suspended left := by
        have hself : first i = (tasks i).advance (tasks i).suspensions :=
          Function.update_self i _ _
        rw [hself, hleft]
        rfl
      have hwaiting : first j = .waiting := Function.update_of_ne (Ne.symm hne) _ _
      refine ⟨_, ((Relation.ReflTransGen.single (.start rfl)).trans (hraise first hwaiting)).tail
        (.cancel ((hother first).trans hfirst) (hcause first)), Function.update_self _ _ _⟩
    · -- it has not started when the other one raises
      exact ⟨_, (hraise (fun _ => .waiting) rfl).tail (.interrupt hstart (hother _) (hcause _)),
        Function.update_self _ _ _⟩
  obtain ⟨t, ht, hkept⟩ := exists_completes hu
  refine ⟨t, ht, ?_⟩
  rw [hkept i (by rw [hcancelled]; trivial), hcancelled]

/-- Every task that does not fail returns, in every run to the end, if none fails or if those that
    do not fail are brief. -/
theorem all_return_iff [Fintype ι] :
    (∀ t, Completes tasks interruptsStart t → ∀ i, (tasks i).failure = none → t i = .returned) ↔
      (∀ i, (tasks i).failure = none) ∨ Brief tasks interruptsStart := by
  constructor
  · intro hall
    by_contra hnot
    rw [not_or] at hnot
    obtain ⟨j, hj⟩ := not_forall.mp hnot.1
    obtain ⟨e, hj⟩ := Option.ne_none_iff_exists'.mp hj
    obtain ⟨i, hi⟩ := not_forall.mp hnot.2
    obtain ⟨hi, hlong⟩ := Classical.not_imp.mp hi
    have hexposed : 0 < (tasks i).suspensions ∨ interruptsStart = true := by
      by_contra hsafe
      rw [not_or, Bool.not_eq_true] at hsafe
      exact hlong ⟨Nat.eq_zero_of_not_pos hsafe.1, hsafe.2⟩
    obtain ⟨t, ht, hcancelled⟩ := exists_cancelled hi hj hexposed
    exact nomatch hcancelled.symm.trans (hall t ht i hi)
  · intro hcond t ht i hi
    have hinv := ht.1.invariant
    have hfits := hinv.fits i
    cases hti : t i with
    | waiting =>
        have hended := ht.2 i
        rw [hti] at hended
        exact hended.elim
    | suspended left =>
        have hended := ht.2 i
        rw [hti] at hended
        exact hended.elim
    | returned => rfl
    | raised e =>
        rw [hti] at hfits
        exact nomatch hi.symm.trans hfits
    | cancelled =>
        rw [hti] at hfits
        exfalso
        rcases hcond with hnone | hbrief
        · obtain ⟨j, e, hj⟩ := hinv.cause ⟨i, hti⟩
          have hfailure := hinv.fits j
          rw [hj] at hfailure
          exact nomatch (hnone j).symm.trans hfailure
        · obtain ⟨hzero, hstart⟩ := hbrief i hi
          rcases hfits with hpos | htrue
          · omega
          · exact nomatch hstart.symm.trans htrue

end TaskGroup
