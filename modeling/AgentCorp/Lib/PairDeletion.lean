/-
  Deleting the adjacent pairs `x, y` of a list, once.

  * `unpair`: the list without them. New pairs may come together when the old ones are gone.
  * `Padded`: a list with any number of pairs between its members.
  * `infix_unpair_iff`: what stands together afterwards stood together before, up to pairs in
    between.
-/
import Mathlib.Data.List.Infix

namespace PairDeletion

variable {β : Type} {x y : β}

/-- The pair `n` times. -/
def pairs (x y : β) (n : Nat) : List β :=
  (List.replicate n [x, y]).flatten

/-- The second list is the first one with pairs between its members, and with at least one where
    two members are themselves a pair. -/
inductive Padded (x y : β) : List β → List β → Prop
  | last (w : β) : Padded x y [w] [w]
  | next {w v : β} {ws l : List β} (n : Nat) (hpair : w = x → v = y → 0 < n)
      (hrest : Padded x y (v :: ws) (v :: l)) :
      Padded x y (w :: v :: ws) (w :: (pairs x y n ++ v :: l))

theorem Padded.head? {ws l : List β} (h : Padded x y ws l) : l.head? = ws.head? := by
  match h with
  | .last w => rfl
  | .next n hpair hrest => rfl

theorem Padded.getLast? {ws l : List β} (h : Padded x y ws l) : l.getLast? = ws.getLast? := by
  induction h with
  | last w => rfl
  | @next w v ws l n hpair hrest ih =>
    have hcons : w :: (pairs x y n ++ v :: l) = (w :: pairs x y n) ++ v :: l := rfl
    rw [hcons, List.getLast?_append, ih, List.getLast?_cons_cons]
    simp [List.getLast?_cons]

theorem Padded.length_le {ws l : List β} (h : Padded x y ws l) : ws.length ≤ l.length := by
  induction h with
  | last w => exact Nat.le_refl _
  | next n hpair hrest ih =>
    simp only [List.length_cons, List.length_append] at ih ⊢
    omega

theorem Padded.forall_mem {P : β → Prop} {ws l : List β} (h : Padded x y ws l) (hx : P x)
    (hy : P y) (hws : ∀ a ∈ ws, P a) : ∀ a ∈ l, P a := by
  induction h with
  | last w => exact hws
  | next n hpair hrest ih =>
    obtain ⟨hw, hws⟩ := List.forall_mem_cons.mp hws
    refine List.forall_mem_cons.mpr ⟨hw, List.forall_mem_append.mpr ⟨fun a ha => ?_, ih hws⟩⟩
    obtain ⟨pair, hmem, ha⟩ := List.mem_flatten.mp ha
    obtain rfl := List.eq_of_mem_replicate hmem
    have hcases : a = x ∨ a = y := by simpa using ha
    rcases hcases with rfl | rfl
    · exact hx
    · exact hy

theorem padded_pair_iff {w v : β} {l : List β} :
    Padded x y [w, v] l ↔ ∃ n, (w = x → v = y → 0 < n) ∧ l = w :: (pairs x y n ++ [v]) := by
  constructor
  · intro h
    match h with
    | .next n hpair (.last _) => exact ⟨n, hpair, rfl⟩
  · intro ⟨n, hpair, hl⟩
    subst hl
    exact .next n hpair (.last v)

variable [DecidableEq β]

/-- The list without its adjacent pairs `x, y`. -/
def unpair (x y : β) : List β → List β
  | a :: b :: l => if a = x ∧ b = y then unpair x y l else a :: unpair x y (b :: l)
  | l => l

theorem unpair_pair (l : List β) : unpair x y (x :: y :: l) = unpair x y l := by
  rw [unpair, if_pos ⟨rfl, rfl⟩]

theorem unpair_cons {a b : β} (l : List β) (h : ¬ (a = x ∧ b = y)) :
    unpair x y (a :: b :: l) = a :: unpair x y (b :: l) := by
  rw [unpair, if_neg h]

theorem unpair_pairs (n : Nat) (l : List β) : unpair x y (pairs x y n ++ l) = unpair x y l := by
  induction n with
  | zero => rfl
  | succ n ih => exact (unpair_pair (pairs x y n ++ l)).trans ih

theorem length_unpair_le (l : List β) : (unpair x y l).length ≤ l.length := by
  match l with
  | [] => exact Nat.le_refl _
  | [a] => exact Nat.le_refl _
  | a :: b :: l =>
    rw [unpair]
    split
    · have hle := length_unpair_le l
      simp only [List.length_cons]
      omega
    · have hle := length_unpair_le (b :: l)
      simp only [List.length_cons] at hle ⊢
      omega

/-- If nothing is deleted, there was no pair. -/
theorem not_infix_of_unpair_eq {l : List β} (h : unpair x y l = l) : ¬ [x, y] <:+: l := by
  match l with
  | [] => exact fun hinfix => absurd hinfix.length_le (by simp)
  | [a] => exact fun hinfix => absurd hinfix.length_le (by simp)
  | a :: b :: l =>
    intro hinfix
    by_cases hpair : a = x ∧ b = y
    · rw [hpair.1, hpair.2, unpair_pair] at h
      have hle := length_unpair_le (x := x) (y := y) l
      rw [h] at hle
      simp only [List.length_cons] at hle
      omega
    · rw [unpair_cons l hpair] at h
      rcases List.infix_cons_iff.mp hinfix with hprefix | hinfix
      · obtain ⟨hx, hprefix⟩ := List.cons_prefix_cons.mp hprefix
        obtain ⟨hy, _⟩ := List.cons_prefix_cons.mp hprefix
        exact hpair ⟨hx.symm, hy.symm⟩
      · exact not_infix_of_unpair_eq (List.cons.inj h).2 hinfix

/-- A pair does not lie across the joint unless it stands there. -/
theorem unpair_append (l l' : List β) (h : l.getLast? = some x → l'.head? ≠ some y) :
    unpair x y (l ++ l') = unpair x y l ++ unpair x y l' := by
  match l with
  | [] => rfl
  | [a] =>
    match l' with
    | [] => rfl
    | b :: l' =>
      refine unpair_cons l' fun hpair => ?_
      obtain ⟨rfl, rfl⟩ := hpair
      exact h rfl rfl
  | a :: b :: l =>
    by_cases hpair : a = x ∧ b = y
    · rw [hpair.1, hpair.2, List.cons_append, List.cons_append, unpair_pair, unpair_pair]
      refine unpair_append l l' fun hlast => h ?_
      rw [List.getLast?_cons, List.getLast?_cons, hlast]
      rfl
    · rw [List.cons_append, List.cons_append, unpair_cons _ hpair, unpair_cons _ hpair,
        List.cons_append]
      refine congrArg (a :: ·) (unpair_append (b :: l) l' fun hlast => h ?_)
      rw [List.getLast?_cons_cons]
      exact hlast

/-- The padding goes away. -/
theorem unpair_padded (hxy : x ≠ y) {ws l : List β} (h : Padded x y ws l) : unpair x y l = ws := by
  induction h with
  | last w => rfl
  | @next w v ws l n hpair hrest ih =>
    match n with
    | 0 =>
      have hno : ¬ (w = x ∧ v = y) := fun hwv => absurd (hpair hwv.1 hwv.2) (Nat.lt_irrefl 0)
      exact (unpair_cons l hno).trans (congrArg (w :: ·) ih)
    | n + 1 =>
      have hno : ¬ (w = x ∧ x = y) := fun hwv => hxy hwv.2
      have hcons := unpair_cons (y :: (pairs x y n ++ v :: l)) hno
      have hpairs := unpair_pairs (x := x) (y := y) (n + 1) (v :: l)
      exact hcons.trans (congrArg (w :: ·) (hpairs.trans ih))

/-- What comes first afterwards came first before, up to pairs in front and in between. -/
theorem exists_padded_prefix {v : β} {ws l : List β} (h : v :: ws <+: unpair x y l) :
    ∃ n l', Padded x y (v :: ws) (v :: l') ∧ pairs x y n ++ v :: l' <+: l := by
  match l with
  | [] => exact absurd h.length_le (by simp [unpair])
  | [a] =>
    obtain ⟨rfl, hws⟩ := List.cons_prefix_cons.mp h
    obtain rfl := List.prefix_nil.mp hws
    exact ⟨0, [], .last v, List.prefix_refl _⟩
  | a :: b :: l =>
    by_cases hpair : a = x ∧ b = y
    · rw [hpair.1, hpair.2] at h ⊢
      rw [unpair_pair] at h
      obtain ⟨n, l', hpadded, hprefix⟩ := exists_padded_prefix h
      refine ⟨n + 1, l', hpadded, ?_⟩
      exact List.cons_prefix_cons.mpr ⟨rfl, List.cons_prefix_cons.mpr ⟨rfl, hprefix⟩⟩
    · rw [unpair_cons l hpair] at h
      obtain ⟨rfl, hws⟩ := List.cons_prefix_cons.mp h
      match ws with
      | [] => exact ⟨0, [], .last v, by simp [pairs]⟩
      | u :: ws =>
        obtain ⟨n, l', hpadded, hprefix⟩ := exists_padded_prefix hws
        refine ⟨0, _, .next n (fun hv hu => ?_) hpadded, List.cons_prefix_cons.mpr ⟨rfl, hprefix⟩⟩
        -- Without a pair in between, the two members were a pair before.
        by_contra hzero
        obtain rfl : n = 0 := by omega
        obtain ⟨rfl, _⟩ := List.cons_prefix_cons.mp hprefix
        exact hpair ⟨hv, hu⟩

theorem exists_padded_infix {ws l : List β} (hne : ws ≠ []) (h : ws <:+: unpair x y l) :
    ∃ l', Padded x y ws l' ∧ l' <:+: l := by
  obtain ⟨v, ws, rfl⟩ := List.exists_cons_of_ne_nil hne
  match l with
  | [] => exact absurd h.length_le (by simp [unpair])
  | [a] =>
    obtain ⟨n, l', hpadded, hprefix⟩ := exists_padded_prefix (l := [a]) (by
      rcases List.infix_cons_iff.mp h with h | h
      · exact h
      · exact absurd h.length_le (by simp))
    exact ⟨_, hpadded, (List.suffix_append _ _).isInfix.trans hprefix.isInfix⟩
  | a :: b :: l =>
    by_cases hpair : a = x ∧ b = y
    · rw [hpair.1, hpair.2] at h ⊢
      rw [unpair_pair] at h
      obtain ⟨l', hpadded, hinfix⟩ := exists_padded_infix hne h
      exact ⟨l', hpadded, hinfix.trans (List.suffix_append [x, y] l).isInfix⟩
    · rw [unpair_cons l hpair] at h
      rcases List.infix_cons_iff.mp h with hprefix | hinfix
      · rw [← unpair_cons l hpair] at hprefix
        obtain ⟨n, l', hpadded, hprefix⟩ := exists_padded_prefix hprefix
        exact ⟨_, hpadded, (List.suffix_append _ _).isInfix.trans hprefix.isInfix⟩
      · obtain ⟨l', hpadded, hinfix⟩ := exists_padded_infix hne hinfix
        exact ⟨l', hpadded, hinfix.trans (List.suffix_cons a (b :: l)).isInfix⟩

/-- **Members stand together after the deletion exactly if they stood together before, up to pairs
    in between.** -/
theorem infix_unpair_iff (hxy : x ≠ y) {ws l : List β} (hne : ws ≠ []) (hhead : ws.head? ≠ some y)
    (hlast : ws.getLast? ≠ some x) :
    ws <:+: unpair x y l ↔ ∃ l', Padded x y ws l' ∧ l' <:+: l := by
  constructor
  · intro h
    exact exists_padded_infix hne h
  · intro ⟨l', hpadded, before, after, hl⟩
    have hunpair := unpair_padded hxy hpadded
    have hright : unpair x y (l' ++ after) = ws ++ unpair x y after := by
      rw [unpair_append, hunpair]
      intro h
      exact absurd (hpadded.getLast? ▸ h) hlast
    have hleft : unpair x y (before ++ (l' ++ after)) =
        unpair x y before ++ (ws ++ unpair x y after) := by
      rw [unpair_append, hright]
      intro _ h
      rw [List.head?_append, hpadded.head?] at h
      obtain ⟨v, ws, rfl⟩ := List.exists_cons_of_ne_nil hne
      exact hhead h
    refine ⟨unpair x y before, unpair x y after, ?_⟩
    rw [← hl, List.append_assoc before, hleft, List.append_assoc]

end PairDeletion
