/-
  Runs that keep a property exactly as long as their steps keep a condition.

  `f s i` is the state after the step `i` in the state `s`.

  * `always_iff`: if a step keeps the property exactly where it meets the condition, then a run has
    the property in all states exactly if every step of it meets the condition.
  * `stamped_iff`: a stamp that is put on at some statuses and never taken off is there exactly in
    those statuses, exactly if no step leaves them.
-/
import Mathlib.Data.List.Basic

namespace GuardedRun

variable {σ ι : Type} (f : σ → ι → σ)

/-- Every state of the run has the property, the first one included. -/
def Always (P : σ → Prop) : σ → List ι → Prop
  | s, [] => P s
  | s, i :: l => P s ∧ Always P (f s i) l

/-- Every step of the run meets the condition in the state in which it is taken. -/
def Meets (C : σ → ι → Prop) : σ → List ι → Prop
  | _, [] => True
  | s, i :: l => C s i ∧ Meets C (f s i) l

variable {f}

/-- **Guarded runs.** `I` is what the steps keep in any case, `D` what is known of them. -/
theorem always_iff {I P : σ → Prop} {C : σ → ι → Prop} {D : ι → Prop}
    (hkeep : ∀ s i, I s → P s → D i → I (f s i))
    (hstep : ∀ s i, I s → P s → D i → (P (f s i) ↔ C s i))
    {s : σ} (hI : I s) {l : List ι} (hD : ∀ i ∈ l, D i) :
    Always f P s l ↔ P s ∧ Meets f C s l := by
  induction l generalizing s with
  | nil => simp [Always, Meets]
  | cons i l ih =>
      obtain ⟨hi, hl⟩ := List.forall_mem_cons.mp hD
      rw [Always, Meets]
      constructor
      · rintro ⟨hs, hrest⟩
        have hnext := (ih (hkeep s i hI hs hi) hl).mp hrest
        exact ⟨hs, (hstep s i hI hs hi).mp hnext.1, hnext.2⟩
      · rintro ⟨hs, hi', hrest⟩
        have hnext := (hstep s i hI hs hi).mpr hi'
        exact ⟨hs, (ih (hkeep s i hI hs hi) hl).mpr ⟨hnext, hrest⟩⟩

/-! ## Stamps -/

section Stamps

variable {α β : Type} (status : σ → α) (stamp : σ → Option β) (given : ι → Option α)
  (closed : α → Prop)

/-- The stamp is there exactly in the closed statuses. -/
def Stamped (s : σ) : Prop :=
  (stamp s).isSome ↔ closed (status s)

/-- The step takes a closed status back to one that is not. -/
def Reopens (s : σ) (i : ι) : Prop :=
  closed (status s) ∧ ∃ a ∈ given i, ¬ closed a

variable {status stamp given closed}

theorem stamped_step_iff (hstatus : ∀ s i, status (f s i) = (given i).getD (status s))
    (hstamp : ∀ s i, (stamp (f s i)).isSome ↔ (∃ a ∈ given i, closed a) ∨ (stamp s).isSome)
    {s : σ} (h : Stamped status stamp closed s) (i : ι) :
    Stamped status stamp closed (f s i) ↔ ¬ Reopens status given closed s i := by
  unfold Stamped Reopens at *
  rw [hstamp, hstatus, h]
  cases given i with
  | none => simp
  | some a => simp

/-- **Stamps.** A step may give a new status, and puts the stamp on where that one is closed. -/
theorem stamped_iff (hstatus : ∀ s i, status (f s i) = (given i).getD (status s))
    (hstamp : ∀ s i, (stamp (f s i)).isSome ↔ (∃ a ∈ given i, closed a) ∨ (stamp s).isSome)
    (s : σ) (l : List ι) :
    Always f (Stamped status stamp closed) s l ↔
      Stamped status stamp closed s ∧
        Meets f (fun s i => ¬ Reopens status given closed s i) s l :=
  always_iff (I := fun _ => True) (D := fun _ => True) (fun _ _ _ _ _ => trivial)
    (fun _ i _ h _ => stamped_step_iff hstatus hstamp h i) trivial fun _ _ => trivial

end Stamps

end GuardedRun
