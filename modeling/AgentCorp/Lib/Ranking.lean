/-
  Stable rankings: a list in descending order of a key, equal keys in the order they had.

  * `ranked_sorted`, `Ranked.unique`: sorting is the only stable ranking.
  * `sorted_filter`: what is left out changes nothing in the ranking of the others.
  * `pairwise_sorted_iff`: when a ranking is also in the order of another relation.
  * `exists_rank`: an element stands where those ahead of it end.
  * `take_filter_iff`: a first part of the ranking has nothing that is left out.
-/
import AgentCorp.Lib.PriorityChoice

namespace Ranking

open PriorityChoice

variable {α β : Type} [LinearOrder β] (key : α → β)

/-- `s` has the elements of `l` in descending order, and those of one key as `l` has them. -/
structure Ranked (l s : List α) : Prop where
  descending : s.Pairwise fun a b => key b ≤ key a
  stable : ∀ x, s.filter (fun a => key a = x) = l.filter fun a => key a = x

variable {key}

theorem Ranked.mem_iff {l s : List α} (h : Ranked key l s) {a : α} : a ∈ s ↔ a ∈ l := by
  have hkey : ∀ t : List α, a ∈ t.filter (fun b => key b = key a) ↔ a ∈ t := by simp
  rw [← hkey s, h.stable, hkey]

/-- The first of a ranking has the largest key. -/
theorem Ranked.head_le {l s : List α} {a b : α} (h : Ranked key l (a :: s)) (hb : b ∈ l) :
    key b ≤ key a := by
  rcases List.mem_cons.mp (h.mem_iff.mpr hb) with rfl | hmem
  · exact le_refl _
  · exact List.rel_of_pairwise_cons h.descending hmem

/-- **A list has one stable ranking**. -/
theorem Ranked.unique {l s t : List α} (hs : Ranked key l s) (ht : Ranked key l t) : s = t := by
  induction s generalizing l t with
  | nil =>
      match t with
      | [] => rfl
      | b :: t => exact absurd (hs.mem_iff.mpr (ht.mem_iff.mp List.mem_cons_self)) List.not_mem_nil
  | cons a s ih =>
      match t with
      | [] => exact absurd (ht.mem_iff.mpr (hs.mem_iff.mp List.mem_cons_self)) List.not_mem_nil
      | b :: t =>
          have hab : key a = key b := le_antisymm (ht.head_le (hs.mem_iff.mp List.mem_cons_self))
            (hs.head_le (ht.mem_iff.mp List.mem_cons_self))
          have hsame : ∀ x, (a :: s).filter (fun c => key c = x) =
              (b :: t).filter fun c => key c = x := fun x => (hs.stable x).trans (ht.stable x).symm
          have hhead := hsame (key a)
          rw [List.filter_cons_of_pos (by simp), List.filter_cons_of_pos (by simp [hab])] at hhead
          obtain ⟨rfl, -⟩ := List.cons.inj hhead
          have hrest : ∀ x, t.filter (fun c => key c = x) = s.filter fun c => key c = x := by
            intro x
            have hx := hsame x
            by_cases hax : key a = x
            · rw [List.filter_cons_of_pos (by simp [hax]),
                List.filter_cons_of_pos (by simp [hax])] at hx
              exact (List.cons.inj hx).2.symm
            · rw [List.filter_cons_of_neg (by simp [hax]),
                List.filter_cons_of_neg (by simp [hax])] at hx
              exact hx.symm
          have hself : Ranked key s s := ⟨hs.descending.of_cons, fun _ => rfl⟩
          rw [ih hself ⟨ht.descending.of_cons, hrest⟩]

/-- Parts of one list without repetitions are told apart by what is in them. -/
theorem eq_of_sublist {l s t : List α} (hl : l.Nodup) (hs : s.Sublist l) (ht : t.Sublist l)
    (h : ∀ a, a ∈ s ↔ a ∈ t) : s = t := by
  induction hs generalizing t with
  | slnil => exact (List.sublist_nil.mp ht).symm
  | @cons s l a hs ih =>
      obtain ⟨ha, hl⟩ := List.nodup_cons.mp hl
      rcases List.sublist_cons_iff.mp ht with hsub | ⟨t, rfl, -⟩
      · exact ih hl hsub h
      · exact absurd (hs.subset ((h a).mpr List.mem_cons_self)) ha
  | @cons_cons s l a hs ih =>
      obtain ⟨ha, hl⟩ := List.nodup_cons.mp hl
      rcases List.sublist_cons_iff.mp ht with hsub | ⟨t, rfl, hsub⟩
      · exact absurd (hsub.subset ((h a).mp List.mem_cons_self)) ha
      · have hrest : ∀ b, b ∈ s ↔ b ∈ t := by
          intro b
          by_cases hb : b = a
          · have hns : a ∉ s := fun hmem => ha (hs.subset hmem)
            have hnt : a ∉ t := fun hmem => ha (hsub.subset hmem)
            rw [hb]
            exact iff_of_false hns hnt
          · simpa [hb] using h b
        rw [ih hl hsub hrest]

/-! ## Sorting -/

theorem filter_orderedInsert {l : List α} (hl : l.Pairwise fun a b => key b ≤ key a) (c : α)
    (x : β) :
    (l.orderedInsert (fun a b => key b ≤ key a) c).filter (fun a => key a = x) =
      (c :: l).filter fun a => key a = x := by
  induction l with
  | nil => rfl
  | cons b l ih =>
      rw [List.orderedInsert_cons]
      split
      · rfl
      · next hlt =>
          have hrest := ih hl.of_cons
          by_cases hc : key c = x
          · have hb : ¬ key b = x := fun hb => hlt (le_of_eq (hb.trans hc.symm))
            rw [List.filter_cons_of_neg (by simp [hb]), hrest]
            simp [List.filter_cons, hb]
          · simp [List.filter_cons, hc] at hrest ⊢
            rw [hrest]

variable (key)

theorem ranked_sorted (l : List α) : Ranked key l (sorted key l) := by
  refine ⟨pairwise_sorted key l, fun x => ?_⟩
  induction l with
  | nil => rfl
  | cons c l ih =>
      show (List.orderedInsert _ c (sorted key l)).filter _ = _
      rw [filter_orderedInsert (pairwise_sorted key l), List.filter_cons, List.filter_cons, ih]

/-- **What is left out** changes nothing in the ranking of the others. -/
theorem sorted_filter (p : α → Bool) (l : List α) :
    sorted key (l.filter p) = (sorted key l).filter p := by
  refine (ranked_sorted key (l.filter p)).unique ⟨(pairwise_sorted key l).filter p, fun x => ?_⟩
  rw [List.filter_comm, (ranked_sorted key l).stable, List.filter_comm]

/-! ## Two orders -/

variable {key}

theorem pairwise_orderedInsert_iff {R : α → α → Prop} {s : List α} {c : α}
    (hs : s.Pairwise fun a b => key b ≤ key a) :
    (s.orderedInsert (fun a b => key b ≤ key a) c).Pairwise R ↔
      (∀ b ∈ s, if key b ≤ key c then R c b else R b c) ∧ s.Pairwise R := by
  induction s with
  | nil => simp
  | cons b s ih =>
      rw [List.orderedInsert_cons]
      split
      · next hle =>
          -- What follows `b` has no larger key, so all of it follows `c`.
          have hall : ∀ d ∈ b :: s, key d ≤ key c := by
            intro d hd
            rcases List.mem_cons.mp hd with rfl | hd
            · exact hle
            · exact le_trans (List.rel_of_pairwise_cons hs hd) hle
          have hfirst : (∀ d ∈ b :: s, if key d ≤ key c then R c d else R d c) ↔
              ∀ d ∈ b :: s, R c d := by
            refine forall₂_congr fun d hd => ?_
            rw [if_pos (hall d hd)]
          rw [hfirst, List.pairwise_cons]
      · next hlt =>
          rw [List.pairwise_cons, ih hs.of_cons, List.forall_mem_cons, List.pairwise_cons,
            if_neg hlt]
          have hmem : (∀ d ∈ s.orderedInsert (fun a b => key b ≤ key a) c, R b d) ↔
              R b c ∧ ∀ d ∈ s, R b d := by
            simp only [List.mem_orderedInsert, forall_eq_or_imp]
          rw [hmem]
          tauto

variable (key)

/-- **Two orders.** A ranking is in the order of `R` exactly if of any two elements the one that
    it puts first, by the keys or by their places, is related to the other one. -/
theorem pairwise_sorted_iff {R : α → α → Prop} (l : List α) :
    (sorted key l).Pairwise R ↔
      l.Pairwise fun a b => if key b ≤ key a then R a b else R b a := by
  induction l with
  | nil => simp [sorted]
  | cons c l ih =>
      show (List.orderedInsert _ c (sorted key l)).Pairwise R ↔ _
      rw [pairwise_orderedInsert_iff (pairwise_sorted key l), List.pairwise_cons, ih]
      simp only [mem_sorted]

/-! ## Ranks -/

/-- How many elements come before `a` in the ranking of `before ++ a :: after`. -/
def ahead (before : List α) (a : α) (after : List α) : Nat :=
  (before.filter fun b => key a ≤ key b).length + (after.filter fun b => key a < key b).length

theorem ahead_cons_of_le {a c : α} (h : key a ≤ key c) (before after : List α) :
    ahead key (c :: before) a after = ahead key before a after + 1 := by
  unfold ahead
  rw [List.filter_cons_of_pos (by simpa using h), List.length_cons]
  omega

theorem ahead_cons_of_lt {a c : α} (h : key c < key a) (before after : List α) :
    ahead key (c :: before) a after = ahead key before a after := by
  unfold ahead
  rw [List.filter_cons_of_neg (by simpa using h)]

variable {key}

/-- A new first element with a key that is not smaller goes ahead. -/
theorem orderedInsert_ahead {a c : α} (h : key a ≤ key c) (s t : List α) :
    ∃ s', (s ++ a :: t).orderedInsert (fun a b => key b ≤ key a) c = s' ++ a :: t ∧
      s'.length = s.length + 1 := by
  induction s with
  | nil => exact ⟨[c], if_pos h, rfl⟩
  | cons b s ih =>
      rw [List.cons_append, List.orderedInsert_cons]
      split
      · exact ⟨c :: b :: s, rfl, rfl⟩
      · obtain ⟨s', hinsert, hlength⟩ := ih
        exact ⟨b :: s', by rw [hinsert]; rfl, by simp [hlength]⟩

/-- One with a smaller key does not. -/
theorem orderedInsert_behind {a c : α} (h : key c < key a) {s : List α}
    (hs : ∀ b ∈ s, key a ≤ key b) (t : List α) :
    ∃ t', (s ++ a :: t).orderedInsert (fun a b => key b ≤ key a) c = s ++ a :: t' := by
  induction s with
  | nil => exact ⟨_, if_neg (not_le_of_gt h)⟩
  | cons b s ih =>
      obtain ⟨hb, hrest⟩ := List.forall_mem_cons.mp hs
      obtain ⟨t', hinsert⟩ := ih hrest
      have hlt : ¬ key b ≤ key c := not_le_of_gt (lt_of_lt_of_le h hb)
      rw [List.cons_append, List.orderedInsert_cons, if_neg hlt, hinsert]
      exact ⟨t', rfl⟩

/-- In descending order, the larger keys come first. -/
theorem takeWhile_descending {l : List α} (hl : l.Pairwise fun a b => key b ≤ key a) (x : β) :
    (l.takeWhile fun b => ¬ key b ≤ x) = l.filter fun b => x < key b := by
  induction l with
  | nil => rfl
  | cons b l ih =>
      by_cases hle : key b ≤ x
      · have hnone : ∀ c ∈ b :: l, ¬ x < key c := by
          intro c hc
          rcases List.mem_cons.mp hc with rfl | hmem
          · exact not_lt_of_ge hle
          · exact not_lt_of_ge (le_trans (List.rel_of_pairwise_cons hl hmem) hle)
        rw [List.takeWhile_cons_of_neg (by simp [hle]), List.filter_eq_nil_iff.mpr]
        intro c hc
        simpa using hnone c hc
      · rw [List.takeWhile_cons_of_pos (by simpa using hle),
          List.filter_cons_of_pos (by simpa using hle), ih hl.of_cons]

variable (key)

/-- **An element's rank** is the number of those ahead of it. -/
theorem exists_rank (before : List α) (a : α) (after : List α) :
    ∃ s t, sorted key (before ++ a :: after) = s ++ a :: t ∧
      s.length = ahead key before a after := by
  induction before with
  | nil =>
      have hperm : (sorted key after).Perm after := List.perm_insertionSort _ after
      refine ⟨(sorted key after).filter fun b => key a < key b,
        (sorted key after).dropWhile fun b => ¬ key b ≤ key a, ?_, ?_⟩
      · rw [← takeWhile_descending (pairwise_sorted key after)]
        exact List.orderedInsert_eq_take_drop _ a (sorted key after)
      · simpa [ahead] using (hperm.filter fun b => key a < key b).length_eq
  | cons c before ih =>
      obtain ⟨s, t, hsorted, hlength⟩ := ih
      have hall := pairwise_sorted key (before ++ a :: after)
      rw [hsorted] at hall
      show ∃ s t, List.orderedInsert _ c (sorted key (before ++ a :: after)) = _ ∧ _
      rw [hsorted]
      by_cases hle : key a ≤ key c
      · obtain ⟨s', hinsert, hlength'⟩ := orderedInsert_ahead hle s t
        exact ⟨s', t, hinsert, by rw [hlength', hlength, ahead_cons_of_le key hle]⟩
      · have hs : ∀ b ∈ s, key a ≤ key b := fun b hb =>
          (List.pairwise_append.mp hall).2.2 b hb a List.mem_cons_self
        obtain ⟨t', hinsert⟩ := orderedInsert_behind (lt_of_not_ge hle) hs t
        exact ⟨s, t', hinsert, by rw [hlength, ahead_cons_of_lt key (lt_of_not_ge hle)]⟩

theorem take_filter_of_forall {l : List α} {p : α → Bool} {k : Nat}
    (h : ∀ a ∈ l.take k, p a = true) : (l.filter p).take k = l.take k := by
  induction l generalizing k with
  | nil => rfl
  | cons a l ih =>
      match k with
      | 0 => rfl
      | k + 1 =>
          obtain ⟨ha, hrest⟩ := List.forall_mem_cons.mp h
          rw [List.filter_cons_of_pos ha, List.take_succ_cons, List.take_succ_cons, ih hrest]

/-- **The first `k`** are those of a ranking without the elements that fail `p` exactly if each of
    those has `k` others ahead of it. -/
theorem take_filter_iff {l : List α} (hl : l.Nodup) (p : α → Bool) (k : Nat) :
    (sorted key l).take k = (sorted key (l.filter p)).take k ↔
      ∀ before a after, l = before ++ a :: after → p a = false → k ≤ ahead key before a after := by
  have hnodup : (sorted key l).Nodup := (List.perm_insertionSort _ l).nodup_iff.mpr hl
  rw [sorted_filter]
  constructor
  · intro h before a after hsplit hp
    obtain ⟨s, t, hsorted, hlength⟩ := exists_rank key before a after
    rw [← hsplit] at hsorted
    by_contra hlt
    have hmem : a ∈ (sorted key l).take k := by
      rw [hsorted, List.take_append, List.take_cons (by omega)]
      simp
    rw [h] at hmem
    have hpa := (List.mem_filter.mp (List.mem_of_mem_take hmem)).2
    rw [hp] at hpa
    cases hpa
  · intro h
    have hall : ∀ a ∈ (sorted key l).take k, p a = true := by
      intro a ha
      by_contra hp
      obtain ⟨before, after, hsplit⟩ :=
        List.append_of_mem ((mem_sorted key).mp (List.mem_of_mem_take ha))
      obtain ⟨s, t, hsorted, hlength⟩ := exists_rank key before a after
      have hk := h before a after hsplit (by simpa using hp)
      rw [← hsplit] at hsorted
      -- The element stands at its rank only, which is not among the first `k`.
      rw [hsorted] at ha hnodup
      rw [List.take_append_of_le_length (by omega)] at ha
      exact (List.nodup_append.mp hnodup).2.2 a (List.mem_of_mem_take ha) a List.mem_cons_self rfl
    exact (take_filter_of_forall hall).symm

end Ranking
