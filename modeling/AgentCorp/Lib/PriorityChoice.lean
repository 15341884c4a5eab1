/-
  The first element of a list that satisfies a predicate, in descending order of a key.

  Sorting is stable: of two elements with equal keys, the earlier one comes first. A search in
  the sorted list therefore finds the last element in the order of keys, and of several such
  elements the first one.

  * `find?_sorted_eq_some_iff`: what the search finds.
  * `sorted_eq_of_perm`: the order of the list does not matter where keys are distinct.
-/
import Mathlib.Data.List.Sort
import Mathlib.Data.List.Nodup
import Mathlib.Order.Defs.LinearOrder

namespace PriorityChoice

variable {α β : Type} [LinearOrder β] (key : α → β)

/-- `a` has the largest key of the elements that satisfy `P`, and is the first one with it. -/
def Chosen (P : α → Prop) (l : List α) (a : α) : Prop :=
  P a ∧ ∃ before after, l = before ++ a :: after ∧
    (∀ b ∈ before, P b → key b < key a) ∧ ∀ b ∈ after, P b → key b ≤ key a

/-- In descending order of the key. -/
def sorted (l : List α) : List α :=
  l.insertionSort fun a b => key b ≤ key a

theorem pairwise_sorted (l : List α) : (sorted key l).Pairwise fun a b => key b ≤ key a :=
  have : Std.Total fun a b : α => key b ≤ key a := ⟨fun a b => le_total (key b) (key a)⟩
  have : IsTrans α fun a b => key b ≤ key a := ⟨fun _ _ _ hab hbc => le_trans hbc hab⟩
  List.pairwise_insertionSort _ l

theorem mem_sorted {l : List α} {a : α} : a ∈ sorted key l ↔ a ∈ l :=
  List.mem_insertionSort _

theorem chosen_cons {P : α → Prop} {l : List α} {a c : α} :
    Chosen key P (c :: l) a ↔
      (a = c ∧ P c ∧ ∀ b ∈ l, P b → key b ≤ key c) ∨
        (Chosen key P l a ∧ (P c → key c < key a)) := by
  constructor
  · rintro ⟨ha, before, after, hl, hbefore, hafter⟩
    cases before with
    | nil =>
        obtain ⟨rfl, rfl⟩ := List.cons.inj hl
        exact .inl ⟨rfl, ha, hafter⟩
    | cons d before =>
        obtain ⟨rfl, rfl⟩ := List.cons.inj hl
        have hbefore' := List.forall_mem_cons.mp hbefore
        exact .inr ⟨⟨ha, before, after, rfl, hbefore'.2, hafter⟩, hbefore'.1⟩
  · rintro (⟨rfl, ha, hle⟩ | ⟨⟨ha, before, after, rfl, hbefore, hafter⟩, hlt⟩)
    · exact ⟨ha, [], l, rfl, by simp, hle⟩
    · exact ⟨ha, c :: before, after, rfl, List.forall_mem_cons.mpr ⟨hlt, hbefore⟩, hafter⟩

theorem Chosen.mem {P : α → Prop} {l : List α} {a : α} (h : Chosen key P l a) : a ∈ l := by
  obtain ⟨-, before, after, rfl, -, -⟩ := h
  exact List.mem_append_right _ List.mem_cons_self

theorem Chosen.le {P : α → Prop} {l : List α} {a : α} (h : Chosen key P l a) :
    ∀ b ∈ l, P b → key b ≤ key a := by
  obtain ⟨-, before, after, rfl, hbefore, hafter⟩ := h
  intro b hb hPb
  rcases List.mem_append.mp hb with hb | hb
  · exact le_of_lt (hbefore b hb hPb)
  · rcases List.mem_cons.mp hb with rfl | hb
    · exact le_refl _
    · exact hafter b hb hPb

section

variable {p : α → Bool}

/-- Where an inserted element stands in a search. -/
theorem find?_orderedInsert {l : List α} (hl : l.Pairwise fun a b => key b ≤ key a) (c : α) :
    (l.orderedInsert (fun a b => key b ≤ key a) c).find? p =
      if p c then
        match l.find? p with
        | none => some c
        | some b => if key b ≤ key c then some c else some b
      else l.find? p := by
  induction l with
  | nil => cases hc : p c <;> simp [hc]
  | cons b l ih =>
      obtain ⟨hb, hl⟩ := List.pairwise_cons.mp hl
      rw [List.orderedInsert_cons]
      split
      · next hle =>
          -- `c` comes before everything that could be found.
          cases hc : p c with
          | false => simp [hc]
          | true =>
              rw [List.find?_cons_of_pos hc, if_pos rfl]
              cases hfind : (b :: l).find? p with
              | none => rfl
              | some d =>
                  have hd : key d ≤ key c := by
                    rcases List.mem_cons.mp (List.mem_of_find?_eq_some hfind) with rfl | hmem
                    · exact hle
                    · exact le_trans (hb d hmem) hle
                  exact (if_pos hd).symm
      · next hlt =>
          cases hpb : p b with
          | true =>
              rw [List.find?_cons_of_pos hpb, List.find?_cons_of_pos hpb]
              simp [hlt]
          | false =>
              rw [List.find?_cons_of_neg (by simp [hpb]), List.find?_cons_of_neg (by simp [hpb])]
              exact ih hl

theorem find?_sorted_eq_none_iff {l : List α} :
    (sorted key l).find? p = none ↔ ∀ a ∈ l, p a = false := by
  simp [List.find?_eq_none, mem_sorted]

theorem find?_sorted_eq_some_iff {l : List α} {a : α} :
    (sorted key l).find? p = some a ↔ Chosen key (p · = true) l a := by
  induction l generalizing a with
  | nil => simp [sorted, Chosen]
  | cons c l ih =>
      rw [chosen_cons]
      show (List.orderedInsert _ c (sorted key l)).find? p = some a ↔ _
      rw [find?_orderedInsert key (pairwise_sorted key l)]
      cases hc : p c with
      | false => simp [ih]
      | true =>
          rw [if_pos rfl, ← ih]
          cases hfind : (sorted key l).find? p with
          | none =>
              have hnone := (find?_sorted_eq_none_iff key).mp hfind
              have hle : ∀ b ∈ l, p b = true → key b ≤ key c := by
                intro b hb hpb
                rw [hnone b hb] at hpb
                cases hpb
              simp only [Option.some.injEq, reduceCtorEq, false_and, or_false, true_and]
              exact ⟨fun heq => ⟨heq.symm, hle⟩, fun h => h.1.symm⟩
          | some b =>
              have hb := ih.mp hfind
              dsimp only
              split
              · next hle =>
                  have hle' : ∀ d ∈ l, p d = true → key d ≤ key c :=
                    fun d hd hpd => le_trans (hb.le key d hd hpd) hle
                  constructor
                  · intro heq
                    exact .inl ⟨(Option.some.inj heq).symm, rfl, hle'⟩
                  · rintro (⟨rfl, -, -⟩ | ⟨heq, hlt⟩)
                    · rfl
                    · obtain rfl := Option.some.inj heq
                      exact absurd (hlt rfl) (not_lt_of_ge hle)
              · next hlt =>
                  constructor
                  · intro heq
                    obtain rfl := Option.some.inj heq
                    exact .inr ⟨rfl, fun _ => lt_of_not_ge hlt⟩
                  · rintro (⟨rfl, -, hle⟩ | ⟨heq, -⟩)
                    · exact absurd (hle b (hb.mem key) hb.1) hlt
                    · exact heq

end

/-- Where the keys are distinct, the order of the list does not matter. -/
theorem sorted_eq_of_perm {l l' : List α} (hperm : l.Perm l') (hkeys : (l.map key).Nodup) :
    sorted key l = sorted key l' := by
  have hsorted : (sorted key l).Perm (sorted key l') :=
    (List.perm_insertionSort _ l).trans (hperm.trans (List.perm_insertionSort _ l').symm)
  refine hsorted.eq_of_pairwise (fun a b ha hb hab hba => ?_) (pairwise_sorted key l)
    (pairwise_sorted key l')
  have ha' := (mem_sorted key).mp ha
  have hb' := hperm.mem_iff.mpr ((mem_sorted key).mp hb)
  exact List.inj_on_of_nodup_map hkeys ha' hb' (le_antisymm hba hab)

end PriorityChoice
