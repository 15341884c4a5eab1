/-
  Lists that are walked until an element decides.

  * `findSome?_mem`: a decision is the decision of an element.
  * `perm_iff`: the walk ends alike in every order exactly when all that decide agree.
-/
import Mathlib.Data.List.Basic
import Mathlib.Data.List.Perm.Basic

namespace FirstDecision

variable {α β : Type} {decision : α → Option β}

theorem findSome?_mem {l : List α} {b : β} (h : l.findSome? decision = some b) :
    ∃ a ∈ l, decision a = some b :=
  List.exists_of_findSome?_eq_some h

/-- Whoever decides can be asked first. -/
theorem exists_perm_head {l : List α} {a : α} {b : β} (ha : a ∈ l) (hb : decision a = some b) :
    ∃ l' : List α, l'.Perm l ∧ l'.findSome? decision = some b := by
  obtain ⟨before, after, rfl⟩ := List.append_of_mem ha
  refine ⟨a :: (before ++ after), List.perm_middle.symm, ?_⟩
  rw [List.findSome?_cons, hb]

/-- Where nobody decides otherwise, the walk ends with a decision that someone makes. -/
theorem findSome?_of_agree {l : List α} {a : α} {b : β} (ha : a ∈ l) (hb : decision a = some b)
    (h : ∀ a' ∈ l, ∀ b', decision a' = some b' → b' = b) : l.findSome? decision = some b := by
  cases hfound : l.findSome? decision with
  | none =>
      rw [List.findSome?_eq_none_iff] at hfound
      rw [hfound a ha] at hb
      cases hb
  | some b' =>
      obtain ⟨a', ha', hb'⟩ := findSome?_mem hfound
      rw [h a' ha' b' hb']

/-- **Every order** ends alike exactly when all that decide agree. -/
theorem perm_iff {l : List α} :
    (∀ l' : List α, l'.Perm l → l'.findSome? decision = l.findSome? decision) ↔
      ∀ a ∈ l, ∀ a' ∈ l, ∀ b b', decision a = some b → decision a' = some b' → b = b' := by
  constructor
  · intro h a ha a' ha' b b' hb hb'
    obtain ⟨l₁, hperm₁, hfound₁⟩ := exists_perm_head ha hb
    obtain ⟨l₂, hperm₂, hfound₂⟩ := exists_perm_head ha' hb'
    have hfirst := hfound₁.symm.trans (h l₁ hperm₁)
    have hsecond := hfound₂.symm.trans (h l₂ hperm₂)
    exact Option.some.inj (hfirst.trans hsecond.symm)
  · intro h l' hperm
    cases hfound : l.findSome? decision with
    | none =>
        rw [List.findSome?_eq_none_iff] at hfound ⊢
        exact fun a ha => hfound a (hperm.mem_iff.mp ha)
    | some b =>
        obtain ⟨a, ha, hb⟩ := findSome?_mem hfound
        refine findSome?_of_agree (hperm.mem_iff.mpr ha) hb fun a' ha' b' hb' => ?_
        exact h a' (hperm.mem_iff.mp ha') a ha b' b hb' hb

end FirstDecision
