/-
  Shuffles: the steps of several lists in one order, each list's own steps in theirs.

  * `mem_iff`: a shuffle has the steps of the lists and no others.
  * `exists_getLast?`: the last of its marked steps is the last one of some list.
  * `shuffle_flatten`: one list after the other is a shuffle.
-/
import Mathlib.Data.List.Basic

inductive Shuffle {α : Type} : List (List α) → List α → Prop
  | done {ls : List (List α)} (h : ∀ l ∈ ls, l = []) : Shuffle ls []
  | step {ls : List (List α)} {i : Nat} {a : α} {rest l : List α} (hi : ls[i]? = some (a :: rest))
      (h : Shuffle (ls.set i rest) l) : Shuffle ls (a :: l)

namespace Shuffle

variable {α : Type} {ls : List (List α)} {l : List α}

theorem mem_iff (h : Shuffle ls l) {a : α} : a ∈ l ↔ ∃ own ∈ ls, a ∈ own := by
  induction h with
  | done h =>
      constructor
      · intro ha
        cases ha
      · intro ⟨own, hown, ha⟩
        rw [h own hown] at ha
        cases ha
  | @step ls i b rest l hi h ih =>
      have hlt := (List.getElem?_eq_some_iff.mp hi).1
      rw [List.mem_cons, ih]
      constructor
      · intro ha
        rcases ha with rfl | ⟨own, hown, ha⟩
        · exact ⟨_, List.mem_of_getElem? hi, List.mem_cons_self⟩
        · rcases List.mem_or_eq_of_mem_set hown with hold | rfl
          · exact ⟨own, hold, ha⟩
          · exact ⟨_, List.mem_of_getElem? hi, List.mem_cons_of_mem _ ha⟩
      · intro ⟨own, hown, ha⟩
        obtain ⟨j, hj⟩ := List.mem_iff_getElem?.mp hown
        by_cases hji : j = i
        · subst hji
          obtain rfl := Option.some.inj (hj.symm.trans hi)
          rcases List.mem_cons.mp ha with rfl | hrest
          · exact .inl rfl
          · exact .inr ⟨rest, List.mem_set hlt rest, hrest⟩
        · refine .inr ⟨own, List.mem_of_getElem? (i := j) ?_, ha⟩
          rw [List.getElem?_set_ne (Ne.symm hji)]
          exact hj

/-- A first step does not matter if a later one has a mark. -/
theorem getLast?_filterMap_cons {β : Type} (mark : α → Option β) (a : α) {l : List α} {b : β}
    (h : (l.filterMap mark).getLast? = some b) :
    ((a :: l).filterMap mark).getLast? = some b := by
  cases ha : mark a with
  | none =>
      rw [List.filterMap_cons_none ha]
      exact h
  | some c =>
      rw [List.filterMap_cons_some ha, List.getLast?_cons, h]
      rfl

/-- What the last step with a mark marks, in a shuffle, it marks in one of the lists. -/
theorem exists_getLast? {β : Type} (h : Shuffle ls l) (mark : α → Option β) {b : β}
    (hlast : (l.filterMap mark).getLast? = some b) :
    ∃ own ∈ ls, (own.filterMap mark).getLast? = some b := by
  induction h with
  | done h => cases hlast
  | @step ls i a rest l hi h ih =>
      have hlt := (List.getElem?_eq_some_iff.mp hi).1
      cases htail : (l.filterMap mark).getLast? with
      | none =>
          -- No later step has a mark, in this list or another.
          have hnone : ∀ c ∈ l, mark c = none :=
            List.filterMap_eq_nil_iff.mp (List.getLast?_eq_none_iff.mp htail)
          have hrest : ∀ c ∈ rest, mark c = none := by
            intro c hc
            exact hnone c (h.mem_iff.mpr ⟨rest, List.mem_set hlt rest, hc⟩)
          refine ⟨a :: rest, List.mem_of_getElem? hi, ?_⟩
          rw [List.filterMap_cons, List.filterMap_eq_nil_iff.mpr hnone] at hlast
          rw [List.filterMap_cons, List.filterMap_eq_nil_iff.mpr hrest]
          exact hlast
      | some c =>
          have hc := getLast?_filterMap_cons mark a htail
          obtain rfl := Option.some.inj (hlast.symm.trans hc)
          obtain ⟨own, hown, hlast'⟩ := ih htail
          rcases List.mem_or_eq_of_mem_set hown with hold | rfl
          · exact ⟨own, hold, hlast'⟩
          · exact ⟨a :: own, List.mem_of_getElem? hi, getLast?_filterMap_cons mark a hlast'⟩

theorem cons_nil (h : Shuffle ls l) : Shuffle ([] :: ls) l := by
  induction h with
  | done h => exact .done (List.forall_mem_cons.mpr ⟨rfl, h⟩)
  | @step ls i a rest l hi h ih => exact .step (i := i + 1) hi ih

theorem cons_append (h : Shuffle ls l) (first : List α) : Shuffle (first :: ls) (first ++ l) := by
  induction first with
  | nil => exact h.cons_nil
  | cons a first ih => exact .step (i := 0) rfl ih

end Shuffle

theorem shuffle_flatten {α : Type} (ls : List (List α)) : Shuffle ls ls.flatten := by
  induction ls with
  | nil => exact .done fun l hl => absurd hl List.not_mem_nil
  | cons l ls ih => exact ih.cons_append l
