/-
  Steps taken in turn, one for each element of a list.

  `InTurn R l s t` says that the steps of the elements of `l`, in their order, lead from `s` to
  `t`.

  * `InTurn.append`: the steps of two lists.
  * `InTurn.collect`: what each step adds to a log, all of them add in turn.
-/
import Mathlib.Data.List.Basic

variable {ι σ β : Type}

inductive InTurn (R : ι → σ → σ → Prop) : List ι → σ → σ → Prop where
  | nil (s : σ) : InTurn R [] s s
  | cons {i : ι} {l : List ι} {s t u : σ} (head : R i s t) (tail : InTurn R l t u) :
      InTurn R (i :: l) s u

namespace InTurn

variable {R : ι → σ → σ → Prop}

theorem cons_iff {i : ι} {l : List ι} {s u : σ} :
    InTurn R (i :: l) s u ↔ ∃ t, R i s t ∧ InTurn R l t u := by
  constructor
  · intro h
    cases h with
    | cons head tail => exact ⟨_, head, tail⟩
  · intro ⟨t, head, tail⟩
    exact .cons head tail

theorem append {l₁ l₂ : List ι} {s t u : σ} (h₁ : InTurn R l₁ s t) (h₂ : InTurn R l₂ t u) :
    InTurn R (l₁ ++ l₂) s u := by
  induction h₁ with
  | nil s => exact h₂
  | cons head tail ih => exact .cons head (ih h₂)

/-- Where each step logs its element or nothing, all log some of them, in their order. -/
theorem collect (log : σ → List β) (entry : ι → β)
    (hstep : ∀ i s t, R i s t → log t = log s ∨ log t = log s ++ [entry i])
    {l : List ι} {s t : σ} (h : InTurn R l s t) :
    ∃ called : List ι, called.Sublist l ∧ log t = log s ++ called.map entry := by
  induction h with
  | nil s => exact ⟨[], List.Sublist.refl [], by simp⟩
  | @cons i l s t u head tail ih =>
      obtain ⟨called, hsub, hlog⟩ := ih
      rcases hstep i s t head with hsame | hentry
      · exact ⟨called, hsub.cons i, by rw [hlog, hsame]⟩
      · refine ⟨i :: called, hsub.cons_cons i, ?_⟩
        rw [hlog, hentry, List.append_assoc]
        rfl

end InTurn
