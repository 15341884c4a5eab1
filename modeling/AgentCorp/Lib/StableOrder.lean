/-
  Which of two elements of a list comes first, and what a stable sort does to that.

  * `before_or`, `not_before_of_before`: in a list that repeats nothing, exactly one of them.
  * `before_insertionSort_iff`: a sort puts the smaller one first, and keeps ties as they were.
  * `before_map_iff`, `before_append_left_iff`, `before_append_right_iff`: in the image of a list,
    and in a part of it.
-/
import Mathlib.Data.List.Nodup
import Mathlib.Data.List.Sort

namespace StableOrder

variable {α β : Type}

/-- `a` comes before `b` in the list. -/
def Before (l : List α) (a b : α) : Prop :=
  [a, b].Sublist l

instance [DecidableEq α] (l : List α) (a b : α) : Decidable (Before l a b) :=
  inferInstanceAs (Decidable ([a, b].Sublist l))

theorem Before.mem_left {l : List α} {a b : α} (h : Before l a b) : a ∈ l :=
  h.subset (by simp)

theorem Before.mem_right {l : List α} {a b : α} (h : Before l a b) : b ∈ l :=
  h.subset (by simp)

theorem before_cons_iff {l : List α} {a b c : α} :
    Before (c :: l) a b ↔ Before l a b ∨ (a = c ∧ b ∈ l) := by
  unfold Before
  rw [List.sublist_cons_iff]
  constructor
  · rintro (h | ⟨rest, hrest, hsub⟩)
    · exact Or.inl h
    · obtain ⟨hhead, rfl⟩ := List.cons.inj hrest
      exact Or.inr ⟨hhead, List.singleton_sublist.mp hsub⟩
  · rintro (h | ⟨rfl, hmem⟩)
    · exact Or.inl h
    · exact Or.inr ⟨[b], rfl, List.singleton_sublist.mpr hmem⟩

theorem before_or {l : List α} {a b : α} (ha : a ∈ l) (hb : b ∈ l) (hne : a ≠ b) :
    Before l a b ∨ Before l b a := by
  induction l with
  | nil => cases ha
  | cons c l ih =>
      rw [before_cons_iff, before_cons_iff]
      rcases List.mem_cons.mp ha with hac | ha
      · rcases List.mem_cons.mp hb with hbc | hb
        · exact absurd (hac.trans hbc.symm) hne
        · exact Or.inl (Or.inr ⟨hac, hb⟩)
      · rcases List.mem_cons.mp hb with hbc | hb
        · exact Or.inr (Or.inr ⟨hbc, ha⟩)
        · exact (ih ha hb).imp Or.inl Or.inl

theorem not_before_of_before {l : List α} (hl : l.Nodup) {a b : α} (h : Before l a b) :
    ¬ Before l b a := by
  induction l with
  | nil => exact absurd h.mem_left List.not_mem_nil
  | cons c l ih =>
      obtain ⟨hfresh, hrest⟩ := List.nodup_cons.mp hl
      intro hback
      rcases before_cons_iff.mp h with hab | ⟨hac, hb⟩
      · rcases before_cons_iff.mp hback with hba | ⟨hbc, -⟩
        · exact ih hrest hab hba
        · exact hfresh (hbc ▸ hab.mem_right)
      · rcases before_cons_iff.mp hback with hba | ⟨hbc, -⟩
        · exact hfresh (hac ▸ hba.mem_right)
        · exact hfresh (hbc ▸ hb)

/-! ## Sorted lists -/

section Sorted

variable {r : α → α → Prop} [DecidableRel r] [Std.Total r] [IsTrans α r]

/-- **Stability.** -/
theorem before_insertionSort_iff {l : List α} (hl : l.Nodup) {a b : α} (ha : a ∈ l) (hb : b ∈ l)
    (hne : a ≠ b) : Before (l.insertionSort r) a b ↔ r a b ∧ (r b a → Before l a b) := by
  have hsorted : (l.insertionSort r).Pairwise r := List.pairwise_insertionSort r l
  have hnodup : (l.insertionSort r).Nodup := (List.perm_insertionSort r l).nodup_iff.mpr hl
  have hrel : ∀ {x y}, Before (l.insertionSort r) x y → r x y :=
    fun h => List.pairwise_pair.mp (hsorted.sublist h)
  constructor
  · intro h
    refine ⟨hrel h, fun htie => (before_or ha hb hne).resolve_right fun hback => ?_⟩
    exact not_before_of_before hnodup h (List.pair_sublist_insertionSort htie hback)
  · rintro ⟨hab, htie⟩
    have hmem : ∀ {x}, x ∈ l → x ∈ l.insertionSort r := (List.mem_insertionSort r).mpr
    refine (before_or (hmem ha) (hmem hb) hne).resolve_right fun hback => ?_
    have hkept := List.pair_sublist_insertionSort hab (htie (hrel hback))
    exact not_before_of_before hnodup hkept hback

end Sorted

/-! ## Images and parts -/

theorem before_map_iff {f : α → β} {l : List α} (hf : (l.map f).Nodup) {a b : α} (ha : a ∈ l)
    (hb : b ∈ l) : Before (l.map f) (f a) (f b) ↔ Before l a b := by
  have hinj : ∀ {x y}, x ∈ l → y ∈ l → f x = f y → x = y :=
    fun hx hy h => List.inj_on_of_nodup_map hf hx hy h
  constructor
  · intro h
    obtain ⟨pair, hsub, hpair⟩ := List.sublist_map_iff.mp h
    obtain ⟨x, y, rfl⟩ : ∃ x y, pair = [x, y] :=
      List.length_eq_two.mp (by simpa using (congrArg List.length hpair).symm)
    obtain ⟨hx, hy⟩ : f a = f x ∧ f b = f y := by simpa using hpair
    obtain rfl := hinj ha (hsub.subset (by simp)) hx
    obtain rfl := hinj hb (hsub.subset (by simp)) hy
    exact hsub
  · intro h
    exact h.map f

theorem before_append_left_iff {l rest : List α} {a b : α} (hb : b ∉ rest) :
    Before (l ++ rest) a b ↔ Before l a b := by
  induction l with
  | nil => exact ⟨fun h => absurd h.mem_right hb, fun h => absurd h.mem_right List.not_mem_nil⟩
  | cons c l ih =>
      rw [List.cons_append, before_cons_iff, before_cons_iff, ih]
      simp [hb]

theorem before_append_right_iff {l rest : List α} {a b : α} (ha : a ∉ l) :
    Before (l ++ rest) a b ↔ Before rest a b := by
  induction l with
  | nil => rfl
  | cons c l ih =>
      obtain ⟨hne, hl⟩ := List.ne_and_not_mem_of_not_mem_cons ha
      rw [List.cons_append, before_cons_iff, ih hl]
      simp [hne]

end StableOrder
