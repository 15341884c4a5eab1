/-
  Attempts that are repeated after some failures, up to a bound.

  `outcomes i` is how attempt `i` ends, if it is made, and `retried` says after which failures
  another one is made. `Last` is the attempt at which the loop ends.

  * `Last.unique`: there is at most one last attempt.
  * `Last.succ`: the last attempt after a first one that is retried.
  * `Reached.restrict`: a stricter rule that repeats the same attempts.
  * `Last.succeeds_iff`: it succeeds exactly if some attempt that can be reached does.
-/
import Mathlib.Order.Basic

namespace Retry

variable {ε α : Type} (retried : ε → Prop) (outcomes : Nat → Except ε α)

/-- After attempt `i` another one is made, if the bound allows. -/
def Again (i : Nat) : Prop :=
  ∃ e, outcomes i = .error e ∧ retried e

/-- All attempts before this one are followed by another. -/
def Reached (i : Nat) : Prop :=
  ∀ j < i, Again retried outcomes j

/-- The attempt at which a loop with at most `bound` repetitions ends. -/
structure Last (bound last : Nat) : Prop where
  le : last ≤ bound
  reached : Reached retried outcomes last
  ends : last = bound ∨ ¬ Again retried outcomes last

variable {retried outcomes}

theorem reached_zero : Reached retried outcomes 0 :=
  fun _ hj => absurd hj (Nat.not_lt_zero _)

theorem Reached.of_le {i j : Nat} (h : Reached retried outcomes j) (hij : i ≤ j) :
    Reached retried outcomes i :=
  fun k hk => h k (by omega)

theorem reached_succ {i : Nat} :
    Reached retried outcomes (i + 1) ↔
      Again retried outcomes 0 ∧ Reached retried (fun j => outcomes (j + 1)) i := by
  constructor
  · intro h
    exact ⟨h 0 (by omega), fun j hj => h (j + 1) (by omega)⟩
  · intro ⟨hfirst, hrest⟩ j hj
    cases j with
    | zero => exact hfirst
    | succ j => exact hrest j (by omega)

theorem Reached.step {i : Nat} (h : Reached retried outcomes i)
    (hagain : Again retried outcomes i) :
    Reached retried outcomes (i + 1) := by
  intro j hj
  rcases Nat.lt_succ_iff_lt_or_eq.mp hj with hlt | rfl
  · exact h j hlt
  · exact hagain

/-- A stricter rule reaches an attempt if it repeats those before it. -/
theorem Reached.restrict {stricter : ε → Prop} {i : Nat} (h : Reached retried outcomes i)
    (hstep : ∀ j < i, Reached stricter outcomes j → Again retried outcomes j →
      Again stricter outcomes j) : Reached stricter outcomes i := by
  induction i with
  | zero => exact reached_zero
  | succ i ih =>
      have hbefore : Reached stricter outcomes i :=
        ih (h.of_le (Nat.le_succ i)) fun j hj => hstep j (by omega)
      exact hbefore.step (hstep i (by omega) hbefore (h i (by omega)))

theorem Reached.mono {weaker : ε → Prop} {i : Nat} (h : Reached retried outcomes i)
    (hweaker : ∀ e, retried e → weaker e) : Reached weaker outcomes i := by
  intro j hj
  obtain ⟨e, he, hretried⟩ := h j hj
  exact ⟨e, he, hweaker e hretried⟩

theorem last_zero {bound : Nat} (h : bound = 0 ∨ ¬ Again retried outcomes 0) :
    Last retried outcomes bound 0 :=
  ⟨Nat.zero_le _, reached_zero, h.imp_left Eq.symm⟩

theorem Last.succ {bound last : Nat} (hfirst : Again retried outcomes 0)
    (h : Last retried (fun j => outcomes (j + 1)) bound last) :
    Last retried outcomes (bound + 1) (last + 1) where
  le := Nat.succ_le_succ h.le
  reached := reached_succ.mpr ⟨hfirst, h.reached⟩
  ends := h.ends.imp_left (congrArg (· + 1))

/-- An attempt that can be reached is not after the last one. -/
theorem Last.reached_le {bound last i : Nat} (h : Last retried outcomes bound last)
    (hi : i ≤ bound) (hreached : Reached retried outcomes i) : i ≤ last := by
  by_contra hlt
  rcases h.ends with hbound | hends
  · omega
  · exact hends (hreached last (by omega))

theorem Last.unique {bound last last' : Nat} (h : Last retried outcomes bound last)
    (h' : Last retried outcomes bound last') : last = last' :=
  Nat.le_antisymm (h'.reached_le h.le h.reached) (h.reached_le h'.le h'.reached)

/-- The loop succeeds exactly if an attempt succeeds that it can reach. -/
theorem Last.succeeds_iff {bound last : Nat} (h : Last retried outcomes bound last) :
    (∃ a, outcomes last = .ok a) ↔
      ∃ i ≤ bound, (∃ a, outcomes i = .ok a) ∧ Reached retried outcomes i := by
  constructor
  · intro hok
    exact ⟨last, h.le, hok, h.reached⟩
  · intro ⟨i, hi, ⟨a, ha⟩, hreached⟩
    have hle := h.reached_le hi hreached
    by_cases hlast : i = last
    · exact ⟨a, hlast ▸ ha⟩
    · obtain ⟨e, he, -⟩ := h.reached i (by omega)
      rw [ha] at he
      cases he

end Retry
