/-
  Noninterference: what the others do makes no difference to what some see.

  The actions of a history are taken one after the other, and each has an output. Some of them are
  taken out. If one step keeps a relation between the two runs, then the outputs of the actions
  that remain are the same, up to `same`.

  * `Unwinding.run`: from one step to every history.
-/
import Mathlib.Data.List.Basic

namespace Noninterference

variable {S A O : Type}

/-- The actions of a history with their outputs, and the state after them. -/
def run (step : A → S → O × S) : List A → S → List (A × O) × S
  | [], s => ([], s)
  | a :: rest, s =>
      let after := run step rest (step a s).2
      ((a, (step a s).1) :: after.1, after.2)

theorem outputs_cons (step : A → S → O × S) (a : A) (rest : List A) (s : S) :
    (run step (a :: rest) s).1 = (a, (step a s).1) :: (run step rest (step a s).2).1 := rfl

/-- What one step keeps. `good` is what holds of the states of the whole history, with the actions
    that are still to come. -/
structure Unwinding (step : A → S → O × S) (mine : A → Bool) (good : List A → S → Prop)
    (related : S → S → Prop) (same : A → O → O → Prop) : Prop where
  keeps : ∀ a rest s, good (a :: rest) s → good rest (step a s).2
  own : ∀ a rest s t, good (a :: rest) s → mine a = true → related s t →
    same a (step a s).1 (step a t).1 ∧ related (step a s).2 (step a t).2
  other : ∀ a rest s t, good (a :: rest) s → mine a = false → related s t →
    related (step a s).2 t

/-- **Unwinding**. -/
theorem Unwinding.run {step : A → S → O × S} {mine : A → Bool} {good : List A → S → Prop}
    {related : S → S → Prop} {same : A → O → O → Prop}
    (h : Unwinding step mine good related same) {actions : List A} {s t : S}
    (hgood : good actions s) (hrelated : related s t) :
    List.Forall₂ (fun x y => x.1 = y.1 ∧ same x.1 x.2 y.2)
        ((Noninterference.run step actions s).1.filter fun x => mine x.1)
        (Noninterference.run step (actions.filter mine) t).1 ∧
      related (Noninterference.run step actions s).2
        (Noninterference.run step (actions.filter mine) t).2 := by
  induction actions generalizing s t with
  | nil => exact ⟨.nil, hrelated⟩
  | cons a rest ih =>
      have hnext := h.keeps a rest s hgood
      cases hmine : mine a with
      | true =>
          obtain ⟨hsame, hkept⟩ := h.own a rest s t hgood hmine hrelated
          obtain ⟨houtputs, hend⟩ := ih hnext hkept
          rw [List.filter_cons_of_pos hmine]
          refine ⟨?_, hend⟩
          have hfilter : ∀ (o : O) (l : List (A × O)), ((a, o) :: l).filter (fun x => mine x.1) =
              (a, o) :: l.filter fun x => mine x.1 :=
            fun o l => List.filter_cons_of_pos (p := fun x : A × O => mine x.1) hmine
          rw [outputs_cons, outputs_cons, hfilter]
          exact .cons ⟨rfl, hsame⟩ houtputs
      | false =>
          obtain ⟨houtputs, hend⟩ := ih hnext (h.other a rest s t hgood hmine hrelated)
          have hout : ¬ mine a = true := by simp [hmine]
          rw [List.filter_cons_of_neg hout]
          refine ⟨?_, hend⟩
          rw [outputs_cons]
          have hfilter : ∀ (o : O) (l : List (A × O)), ((a, o) :: l).filter (fun x => mine x.1) =
              l.filter fun x => mine x.1 :=
            fun o l => List.filter_cons_of_neg (p := fun x : A × O => mine x.1) hout
          rw [hfilter]
          exact houtputs

end Noninterference
