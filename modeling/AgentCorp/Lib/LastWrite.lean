/-
  A cell that several writers write without looking at it.

  A trace lists events with the value of the cell after each. `w e` is what the event `e` writes,
  if it writes.

  * `absorbing_iff`: values are never left exactly if no event writes another value after one that
    wrote such a value.
  * `after_iff`: what holds of the events after a value, by the events that wrote it.
-/
import Mathlib.Data.List.Basic
import Mathlib.Data.List.Pairwise

namespace LastWrite

variable {E α : Type}

/-- The cell holds `a` before the trace, and after each event what that event wrote, or else what
    it held. -/
inductive Writes (w : E → Option α) : α → List (E × α) → Prop
  | nil (a : α) : Writes w a []
  | cons {a : α} {e : E} {trace : List (E × α)} (h : Writes w ((w e).getD a) trace) :
      Writes w a ((e, (w e).getD a) :: trace)

variable {w : E → Option α} {a : α} {trace : List (E × α)}

/-- An event that writes leaves what it wrote. -/
theorem value_of_write (h : Writes w a trace) :
    ∀ x ∈ trace, ∀ v, w x.1 = some v → x.2 = v := by
  induction h with
  | nil a => exact fun x hx => absurd hx List.not_mem_nil
  | @cons a e trace h ih =>
      rw [List.forall_mem_cons]
      refine ⟨?_, ih⟩
      intro v hv
      rw [hv]
      rfl

/-- If no event writes another value, the cell keeps its value. -/
theorem value_of_unwritten (h : Writes w a trace)
    (hw : ∀ x ∈ trace, ∀ v, w x.1 = some v → v = a) : ∀ x ∈ trace, x.2 = a := by
  induction h with
  | nil a => exact fun x hx => absurd hx List.not_mem_nil
  | @cons a e trace h ih =>
      rw [List.forall_mem_cons] at hw
      have hkept : (w e).getD a = a := by
        cases hwrite : w e with
        | none => rfl
        | some v => exact hw.1 v hwrite
      rw [List.forall_mem_cons]
      refine ⟨hkept, ?_⟩
      rw [hkept] at ih
      exact ih hw.2

/-- **Absorbing values.** Where the cell starts outside `T`, it never leaves a value in `T`
    exactly if, after an event that wrote a value in `T`, no event writes another one. -/
theorem absorbing_iff {T : α → Prop} (h : Writes w a trace) (ha : ¬ T a) :
    (trace.Pairwise fun x y => T x.2 → y.2 = x.2) ↔
      (trace.map Prod.fst).Pairwise fun e e' =>
        ∀ v, w e = some v → T v → ∀ v', w e' = some v' → v' = v := by
  rw [List.pairwise_map]
  induction h with
  | nil a => exact iff_of_true List.Pairwise.nil List.Pairwise.nil
  | @cons a e trace h ih =>
      rw [List.pairwise_cons, List.pairwise_cons]
      by_cases hT : T ((w e).getD a)
      · -- The head writes a value in `T`: after it, nothing may be written but that value.
        obtain ⟨v, hv⟩ : ∃ v, w e = some v := by
          cases hwrite : w e with
          | none => rw [hwrite] at hT; exact absurd hT ha
          | some v => exact ⟨v, rfl⟩
        have hget : (w e).getD a = v := by rw [hv]; rfl
        rw [hget] at h hT ⊢
        constructor
        · rintro ⟨hhead, -⟩
          have hsame : ∀ y ∈ trace, ∀ v', w y.1 = some v' → v' = v := by
            intro y hy v' hv'
            rw [← value_of_write h y hy v' hv', hhead y hy hT]
          refine ⟨fun y hy u hu _ v' hv' => ?_, ?_⟩
          · rw [hsame y hy v' hv']
            exact Option.some.inj (hv.symm.trans hu)
          · apply List.pairwise_of_forall_mem_list
            intro x hx y hy u hu _ v' hv'
            rw [hsame y hy v' hv', hsame x hx u hu]
        · rintro ⟨hhead, -⟩
          have hkept := value_of_unwritten h fun y hy v' hv' => hhead y hy v hv hT v' hv'
          refine ⟨fun y hy _ => hkept y hy, ?_⟩
          apply List.pairwise_of_forall_mem_list
          intro x hx y hy _
          rw [hkept x hx, hkept y hy]
      · -- The head leaves a value outside `T`, so only the rest matters.
        refine and_congr (iff_of_true (fun y _ hin => absurd hin hT) ?_) (ih hT)
        intro y _ v hv hin
        rw [hv] at hT
        exact absurd hin hT

/-- Where the cell does not start with `v`, what holds of every event after the cell held `v`
    holds of every event after one that wrote it. -/
theorem after_iff {v : α} {P : E → Prop} (h : Writes w a trace) (ha : a ≠ v) :
    (trace.Pairwise fun x y => x.2 = v → P y.1) ↔
      (trace.map Prod.fst).Pairwise fun e e' => w e = some v → P e' := by
  rw [List.pairwise_map]
  induction h with
  | nil a => exact iff_of_true List.Pairwise.nil List.Pairwise.nil
  | @cons a e trace h ih =>
      rw [List.pairwise_cons, List.pairwise_cons]
      by_cases hv : (w e).getD a = v
      · have hwrite : w e = some v := by
          cases hwrite : w e with
          | none => rw [hwrite] at hv; exact absurd hv ha
          | some u => rw [hwrite] at hv; exact congrArg some hv
        constructor
        · rintro ⟨hhead, -⟩
          exact ⟨fun y hy _ => hhead y hy hv,
            List.pairwise_of_forall_mem_list fun x _ y hy _ => hhead y hy hv⟩
        · rintro ⟨hhead, -⟩
          exact ⟨fun y hy _ => hhead y hy hwrite,
            List.pairwise_of_forall_mem_list fun x _ y hy _ => hhead y hy hwrite⟩
      · refine and_congr (iff_of_true (fun y _ hin => absurd hin hv) ?_) (ih hv)
        intro y _ hwrite
        rw [hwrite] at hv
        exact absurd rfl hv

end LastWrite
