/-
  Regular expressions as a backtracking matcher reads them.

  A `Place` is a point in a text. `ends r p` has the place where each match of `r` at `p` ends,
  the preferred one first.

  * `takes_of_mem_ends`: a match consumes a piece of the text, and only characters its classes
    have.
  * `mem_ends_rep_unbounded`: the matcher tries every number of repetitions.
  * `carries_ends`: without word boundaries, a match depends only on what it consumes.
-/
import Mathlib.Data.List.Basic

inductive Regex (α : Type) where
  | empty
  | cls (p : α → Bool)
  | boundary (isWord : α → Bool)
  | seq (r s : Regex α)
  | alt (r s : Regex α)
  | rep (r : Regex α) (least : Nat) (most : Option Nat) (greedy : Bool)

namespace Regex

variable {α : Type}

/-- A point in a text: the characters before it, the nearest first, and those behind it. -/
structure Place (α : Type) where
  before : List α
  rest : List α

/-! ## The matcher -/

section Repetition

variable {β : Type} (f : β → List β)

/-- `f`, `n` times. -/
def times : Nat → β → List β
  | 0, p => [p]
  | n + 1, p => (f p).flatMap (times n)

/-- `f`, at most `n` times: as often as possible first if `greedy`, as seldom otherwise. -/
def upTo (greedy : Bool) : Nat → β → List β
  | 0, p => [p]
  | n + 1, p =>
      let more := (f p).flatMap (upTo greedy n)
      if greedy then more ++ [p] else p :: more

end Repetition

/-- Whether exactly one of the two neighbours of the place is a word character. -/
def atBoundary (isWord : α → Bool) (p : Place α) : Bool :=
  p.before.head?.any isWord != p.rest.head?.any isWord

/-- A repetition without an upper bound cannot consume more often than there are characters. -/
def ends : Regex α → Place α → List (Place α)
  | empty, p => [p]
  | cls c, p =>
      match p.rest with
      | a :: rest => if c a then [⟨a :: p.before, rest⟩] else []
      | [] => []
  | boundary isWord, p => if atBoundary isWord p then [p] else []
  | seq r s, p => (ends r p).flatMap (ends s)
  | alt r s, p => ends r p ++ ends s p
  | rep r least most greedy, p =>
      (times (ends r) least p).flatMap fun q =>
        upTo (ends r) greedy (most.elim q.rest.length (· - least)) q

/-- Every match takes at least one character. -/
def consumes : Regex α → Bool
  | empty => false
  | cls _ => true
  | boundary _ => false
  | seq r s => consumes r || consumes s
  | alt r s => consumes r && consumes s
  | rep r least _ _ => consumes r && decide (0 < least)

/-- What is repeated takes at least one character each time. -/
def productive : Regex α → Bool
  | empty => true
  | cls _ => true
  | boundary _ => true
  | seq r s => productive r && productive s
  | alt r s => productive r && productive s
  | rep r _ _ _ => consumes r && productive r

/-- An expression all of whose matches take a character, so that the search moves on. -/
structure Pattern (α : Type) where
  regex : Regex α
  consumes : regex.consumes = true
  productive : regex.productive = true

/-! ## What a match consumes -/

/-- `w` stands between the places `p` and `q`. -/
structure Spans (p : Place α) (w : List α) (q : Place α) : Prop where
  rest : p.rest = w ++ q.rest
  before : q.before = w.reverse ++ p.before

namespace Spans

variable {p q s : Place α} {v w : List α}

theorem refl (p : Place α) : Spans p [] p :=
  ⟨rfl, rfl⟩

theorem trans (hv : Spans p v q) (hw : Spans q w s) : Spans p (v ++ w) s where
  rest := by rw [hv.rest, hw.rest, List.append_assoc]
  before := by rw [hw.before, hv.before, List.reverse_append, List.append_assoc]

theorem split (h : Spans p (v ++ w) q) : ∃ s, Spans p v s ∧ Spans s w q := by
  refine ⟨⟨v.reverse ++ p.before, w ++ q.rest⟩, ⟨?_, rfl⟩, rfl, ?_⟩
  · rw [h.rest, List.append_assoc]
  · rw [h.before, List.reverse_append, List.append_assoc]

theorem before_head?_mem (h : Spans p w q) (hw : w ≠ []) : ∃ a ∈ w, q.before.head? = some a := by
  obtain ⟨a, l, hrev⟩ := List.exists_cons_of_ne_nil (List.reverse_ne_nil_iff.mpr hw)
  refine ⟨a, List.mem_reverse.mp (hrev ▸ List.mem_cons_self), ?_⟩
  rw [h.before, hrev]
  rfl

theorem target (hv : Spans p v q) (hw : Spans p v s) : q = s := by
  have hbefore : q.before = s.before := hv.before.trans hw.before.symm
  have hrest : q.rest = s.rest := List.append_cancel_left (hv.rest.symm.trans hw.rest)
  obtain ⟨_, _⟩ := q
  obtain ⟨_, _⟩ := s
  exact congrArg₂ Place.mk hbefore hrest

theorem length (h : Spans p w q) : p.rest.length = w.length + q.rest.length := by
  rw [h.rest, List.length_append]

end Spans

section Repetition

variable {β : Type} {f : β → List β}

/-- A preorder that `f` respects is respected by repeating `f`. -/
theorem times_rel {T : β → β → Prop} (hrefl : ∀ p, T p p)
    (htrans : ∀ p q s, T p q → T q s → T p s) (hstep : ∀ p, ∀ q ∈ f p, T p q) (n : Nat) :
    ∀ p, ∀ q ∈ times f n p, T p q := by
  induction n with
  | zero =>
    intro p q hq
    obtain rfl := List.mem_singleton.mp hq
    exact hrefl q
  | succ n ih =>
    intro p q hq
    obtain ⟨m, hm, hq⟩ := List.mem_flatMap.mp hq
    exact htrans p m q (hstep p m hm) (ih m q hq)

theorem mem_times_add {m n : Nat} {p q : β} :
    q ∈ times f (m + n) p ↔ ∃ s ∈ times f m p, q ∈ times f n s := by
  induction m generalizing p with
  | zero => simp [times]
  | succ m ih =>
    rw [Nat.succ_add, times, List.mem_flatMap]
    simp only [times, List.mem_flatMap, ih]
    constructor
    · intro ⟨a, ha, s, hs, hq⟩
      exact ⟨s, ⟨a, ha, hs⟩, hq⟩
    · intro ⟨s, ⟨a, ha, hs⟩, hq⟩
      exact ⟨a, ha, s, hs, hq⟩

/-- Which repetition is preferred does not matter for what is possible. -/
theorem mem_upTo {greedy : Bool} {k : Nat} {p q : β} :
    q ∈ upTo f greedy k p ↔ ∃ n ≤ k, q ∈ times f n p := by
  induction k generalizing p with
  | zero => simp [upTo, times]
  | succ k ih =>
    have hmore : q ∈ upTo f greedy (k + 1) p ↔
        q = p ∨ q ∈ (f p).flatMap (upTo f greedy k) := by
      rw [upTo]
      split
      · rw [List.mem_append, List.mem_singleton, or_comm]
      · rw [List.mem_cons]
    rw [hmore, List.mem_flatMap]
    constructor
    · intro h
      match h with
      | .inl h => exact ⟨0, Nat.zero_le _, List.mem_singleton.mpr h⟩
      | .inr ⟨s, hs, hq⟩ =>
        obtain ⟨n, hn, hq⟩ := ih.mp hq
        exact ⟨n + 1, Nat.succ_le_succ hn, List.mem_flatMap.mpr ⟨s, hs, hq⟩⟩
    · intro ⟨n, hn, hq⟩
      match n with
      | 0 => exact .inl (List.mem_singleton.mp hq)
      | n + 1 =>
        obtain ⟨s, hs, hq⟩ := List.mem_flatMap.mp hq
        exact .inr ⟨s, hs, ih.mpr ⟨n, by omega, hq⟩⟩

end Repetition

variable {r s : Regex α} {p q : Place α}

theorem mem_ends_cls {c : α → Bool} : q ∈ ends (cls c) p ↔ ∃ a, c a = true ∧ Spans p [a] q := by
  obtain ⟨before, rest⟩ := p
  rcases rest with _ | ⟨a, rest⟩
  · constructor
    · intro h
      exact absurd h List.not_mem_nil
    · intro ⟨a, _, h⟩
      exact absurd h.rest (by simp)
  · have hmem : q ∈ ends (cls c) ⟨before, a :: rest⟩ ↔ c a = true ∧ q = ⟨a :: before, rest⟩ := by
      by_cases hc : c a <;> simp [ends, hc]
    rw [hmem]
    constructor
    · intro ⟨hc, hq⟩
      subst hq
      exact ⟨a, hc, rfl, rfl⟩
    · intro ⟨b, hc, h⟩
      obtain ⟨rfl, hrest⟩ := List.cons.inj h.rest
      exact ⟨hc, Spans.target h ⟨rfl, rfl⟩⟩

theorem mem_ends_boundary {isWord : α → Bool} :
    q ∈ ends (boundary isWord) p ↔ atBoundary isWord p = true ∧ q = p := by
  by_cases h : atBoundary isWord p <;> simp [ends, h]

theorem mem_ends_empty : q ∈ ends empty p ↔ q = p := by
  simp [ends]

theorem mem_ends_seq : q ∈ ends (seq r s) p ↔ ∃ m ∈ ends r p, q ∈ ends s m := by
  simp [ends]

theorem mem_ends_alt : q ∈ ends (alt r s) p ↔ q ∈ ends r p ∨ q ∈ ends s p := by
  simp [ends]

theorem mem_ends_rep {least : Nat} {most : Option Nat} {greedy : Bool} :
    q ∈ ends (rep r least most greedy) p ↔ ∃ m ∈ times (ends r) least p,
      ∃ n ≤ most.elim m.rest.length (· - least), q ∈ times (ends r) n m := by
  simp [ends, mem_upTo]

/-- No class of the expression has `c`. -/
def avoids (c : α) : Regex α → Bool
  | empty => true
  | cls p => !p c
  | boundary _ => true
  | seq r s => avoids c r && avoids c s
  | alt r s => avoids c r && avoids c s
  | rep r _ _ _ => avoids c r

/-- What `r` can consume. -/
def Takes (r : Regex α) (p q : Place α) : Prop :=
  ∃ w, Spans p w q ∧ ∀ c, avoids c r = true → c ∉ w

theorem Takes.mono {r s : Regex α} (h : ∀ c, avoids c s = true → avoids c r = true)
    (hr : Takes r p q) : Takes s p q := by
  obtain ⟨w, hw, havoid⟩ := hr
  exact ⟨w, hw, fun c hc => havoid c (h c hc)⟩

theorem Takes.refl (r : Regex α) (p : Place α) : Takes r p p :=
  ⟨[], Spans.refl p, fun _ _ => List.not_mem_nil⟩

theorem Takes.trans {m : Place α} (h₁ : Takes r p m) (h₂ : Takes r m q) : Takes r p q := by
  obtain ⟨v, hv, hav⟩ := h₁
  obtain ⟨w, hw, haw⟩ := h₂
  refine ⟨v ++ w, hv.trans hw, fun c hc hmem => ?_⟩
  rcases List.mem_append.mp hmem with hmem | hmem
  · exact hav c hc hmem
  · exact haw c hc hmem

theorem takes_of_mem_ends (r : Regex α) : ∀ p, ∀ q ∈ ends r p, Takes r p q := by
  induction r with
  | empty =>
    intro p q hq
    obtain rfl := mem_ends_empty.mp hq
    exact Takes.refl _ q
  | cls c =>
    intro p q hq
    obtain ⟨a, ha, hspans⟩ := mem_ends_cls.mp hq
    refine ⟨[a], hspans, fun b hb hmem => ?_⟩
    obtain rfl := List.mem_singleton.mp hmem
    simp [avoids, ha] at hb
  | boundary isWord =>
    intro p q hq
    obtain ⟨_, rfl⟩ := mem_ends_boundary.mp hq
    exact Takes.refl _ q
  | seq r s ihr ihs =>
    intro p q hq
    obtain ⟨m, hm, hq⟩ := mem_ends_seq.mp hq
    have hleft := (ihr p m hm).mono (s := seq r s) fun c hc => (Bool.and_eq_true _ _ ▸ hc).1
    have hright := (ihs m q hq).mono (s := seq r s) fun c hc => (Bool.and_eq_true _ _ ▸ hc).2
    exact hleft.trans hright
  | alt r s ihr ihs =>
    intro p q hq
    rcases mem_ends_alt.mp hq with hq | hq
    · exact (ihr p q hq).mono fun c hc => (Bool.and_eq_true _ _ ▸ hc).1
    · exact (ihs p q hq).mono fun c hc => (Bool.and_eq_true _ _ ▸ hc).2
  | rep r least most greedy ih =>
    intro p q hq
    obtain ⟨m, hm, n, _, hq⟩ := mem_ends_rep.mp hq
    have hrefl := Takes.refl r
    have htrans : ∀ a b c : Place α, Takes r a b → Takes r b c → Takes r a c :=
      fun _ _ _ => Takes.trans
    have hleast := times_rel hrefl htrans ih least p m hm
    have hmore := times_rel hrefl htrans ih n m q hq
    exact (hleast.trans hmore).mono fun c hc => hc

theorem exists_spans (h : q ∈ ends r p) : ∃ w, Spans p w q := by
  obtain ⟨w, hw, _⟩ := takes_of_mem_ends r p q h
  exact ⟨w, hw⟩

theorem rest_length_le (h : q ∈ ends r p) : q.rest.length ≤ p.rest.length := by
  obtain ⟨w, hw⟩ := exists_spans h
  have hlength := hw.length
  omega

theorem rest_length_le_of_times {n : Nat} (h : q ∈ times (ends r) n p) :
    q.rest.length ≤ p.rest.length :=
  times_rel (T := fun a b : Place α => b.rest.length ≤ a.rest.length)
    (fun _ => Nat.le_refl _) (fun _ _ _ hab hbc => Nat.le_trans hbc hab)
    (fun _ _ hstep => rest_length_le hstep) n p q h

theorem rest_length_lt (hr : consumes r = true) (h : q ∈ ends r p) :
    q.rest.length < p.rest.length := by
  induction r generalizing p q with
  | empty => simp [consumes] at hr
  | cls c =>
    obtain ⟨a, _, hspans⟩ := mem_ends_cls.mp h
    have hlength := hspans.length
    simp at hlength
    omega
  | boundary isWord => simp [consumes] at hr
  | seq r s ihr ihs =>
    obtain ⟨m, hm, hq⟩ := mem_ends_seq.mp h
    have hleft := rest_length_le hm
    have hright := rest_length_le hq
    rcases Bool.or_eq_true _ _ ▸ hr with hr | hs
    · have hlt := ihr hr hm
      omega
    · have hlt := ihs hs hq
      omega
  | alt r s ihr ihs =>
    obtain ⟨hr, hs⟩ := Bool.and_eq_true _ _ ▸ hr
    rcases mem_ends_alt.mp h with hq | hq
    · exact ihr hr hq
    · exact ihs hs hq
  | rep r least most greedy ih =>
    obtain ⟨hbody, hleast⟩ := Bool.and_eq_true _ _ ▸ hr
    have hpos : 0 < least := of_decide_eq_true hleast
    obtain ⟨m, hm, n, _, hq⟩ := mem_ends_rep.mp h
    obtain ⟨least, rfl⟩ := Nat.exists_eq_add_one_of_ne_zero (Nat.ne_of_gt hpos)
    obtain ⟨first, hfirst, hm⟩ := List.mem_flatMap.mp hm
    have hlt := ih hbody hfirst
    have hleast := rest_length_le_of_times hm
    have hmore := rest_length_le_of_times hq
    omega

/-- Without an upper bound, a body that consumes may be repeated as often as it matches. -/
theorem mem_ends_rep_unbounded {least : Nat} {greedy : Bool} (hr : consumes r = true) :
    q ∈ ends (rep r least none greedy) p ↔ ∃ n, least ≤ n ∧ q ∈ times (ends r) n p := by
  have hbound (n : Nat) (m : Place α) (hq : q ∈ times (ends r) n m) :
      n + q.rest.length ≤ m.rest.length := by
    induction n generalizing m with
    | zero =>
      obtain rfl := List.mem_singleton.mp hq
      omega
    | succ n ih =>
      obtain ⟨s, hs, hq⟩ := List.mem_flatMap.mp hq
      have hlt := rest_length_lt hr hs
      have hle := ih s hq
      omega
  rw [mem_ends_rep]
  constructor
  · intro ⟨m, hm, n, _, hq⟩
    exact ⟨least + n, Nat.le_add_right _ _, mem_times_add.mpr ⟨m, hm, hq⟩⟩
  · intro ⟨n, hn, hq⟩
    obtain ⟨k, rfl⟩ := Nat.exists_eq_add_of_le hn
    obtain ⟨m, hm, hq⟩ := mem_times_add.mp hq
    have hle := hbound k m hq
    exact ⟨m, hm, k, by rw [Option.elim_none]; omega, hq⟩

theorem mem_times_cls {c : α → Bool} {n : Nat} :
    q ∈ times (ends (cls c)) n p ↔ ∃ w, w.length = n ∧ (∀ a ∈ w, c a = true) ∧ Spans p w q := by
  induction n generalizing p with
  | zero =>
    constructor
    · intro hq
      obtain rfl := List.mem_singleton.mp hq
      exact ⟨[], rfl, by simp, Spans.refl q⟩
    · intro ⟨w, hlength, _, hw⟩
      obtain rfl := List.length_eq_zero_iff.mp hlength
      exact List.mem_singleton.mpr ((Spans.refl p).target hw).symm
  | succ n ih =>
    rw [times, List.mem_flatMap]
    constructor
    · intro ⟨m, hm, hq⟩
      obtain ⟨a, ha, hfirst⟩ := mem_ends_cls.mp hm
      obtain ⟨w, hlength, hall, hw⟩ := ih.mp hq
      exact ⟨a :: w, by simp [hlength], by simpa [ha] using hall, hfirst.trans hw⟩
    · intro ⟨w, hlength, hall, hw⟩
      obtain ⟨a, w, rfl⟩ := List.exists_cons_of_length_eq_add_one hlength
      have ha := hall a List.mem_cons_self
      obtain ⟨m, hfirst, hlater⟩ := Spans.split (v := [a]) hw
      refine ⟨m, mem_ends_cls.mpr ⟨a, ha, hfirst⟩, ih.mpr ⟨w, by simpa using hlength, ?_, hlater⟩⟩
      exact fun b hb => hall b (List.mem_cons_of_mem a hb)

/-! ## First and last characters -/

/-- Every match begins with a character of `P`. -/
def StartsIn (P : α → Prop) (r : Regex α) : Prop :=
  ∀ p, ∀ q ∈ ends r p, ∃ a, p.rest.head? = some a ∧ P a

/-- Every match ends with a character of `P`. -/
def EndsIn (P : α → Prop) (r : Regex α) : Prop :=
  ∀ p, ∀ q ∈ ends r p, ∃ a, q.before.head? = some a ∧ P a

section FirstAndLast

variable {P : α → Prop}

theorem startsIn_cls {c : α → Bool} (h : ∀ a, c a = true → P a) : StartsIn P (cls c) := by
  intro p q hq
  obtain ⟨a, ha, hspans⟩ := mem_ends_cls.mp hq
  exact ⟨a, by rw [hspans.rest]; rfl, h a ha⟩

theorem startsIn_seq (h : StartsIn P r) : StartsIn P (seq r s) := by
  intro p q hq
  obtain ⟨m, hm, _⟩ := mem_ends_seq.mp hq
  exact h p m hm

theorem startsIn_alt (hr : StartsIn P r) (hs : StartsIn P s) : StartsIn P (alt r s) := by
  intro p q hq
  rcases mem_ends_alt.mp hq with hq | hq
  · exact hr p q hq
  · exact hs p q hq

theorem startsIn_rep {least : Nat} {most : Option Nat} {greedy : Bool} (hleast : 0 < least)
    (h : StartsIn P r) : StartsIn P (rep r least most greedy) := by
  intro p q hq
  obtain ⟨m, hm, _⟩ := mem_ends_rep.mp hq
  obtain ⟨k, rfl⟩ := Nat.exists_eq_add_one_of_ne_zero (Nat.ne_of_gt hleast)
  obtain ⟨first, hfirst, _⟩ := List.mem_flatMap.mp hm
  exact h p first hfirst

theorem endsIn_cls {c : α → Bool} (h : ∀ a, c a = true → P a) : EndsIn P (cls c) := by
  intro p q hq
  obtain ⟨a, ha, hspans⟩ := mem_ends_cls.mp hq
  exact ⟨a, by rw [hspans.before]; rfl, h a ha⟩

theorem endsIn_seq (h : EndsIn P s) : EndsIn P (seq r s) := by
  intro p q hq
  obtain ⟨m, _, hq⟩ := mem_ends_seq.mp hq
  exact h m q hq

theorem endsIn_alt (hr : EndsIn P r) (hs : EndsIn P s) : EndsIn P (alt r s) := by
  intro p q hq
  rcases mem_ends_alt.mp hq with hq | hq
  · exact hr p q hq
  · exact hs p q hq

theorem endsIn_seq_optional (hr : EndsIn P r) (hs : EndsIn P s) :
    EndsIn P (seq r (alt s empty)) := by
  intro p q hq
  obtain ⟨m, hm, hq⟩ := mem_ends_seq.mp hq
  rcases mem_ends_alt.mp hq with hq | hq
  · exact hs m q hq
  · obtain rfl := mem_ends_empty.mp hq
    exact hr p q hm

theorem endsIn_rep {least : Nat} {most : Option Nat} {greedy : Bool} (hleast : 0 < least)
    (h : EndsIn P r) : EndsIn P (rep r least most greedy) := by
  intro p q hq
  obtain ⟨m, hm, n, _, hq⟩ := mem_ends_rep.mp hq
  have hall : q ∈ times (ends r) (least + n) p := mem_times_add.mpr ⟨m, hm, hq⟩
  -- The last of the repetitions.
  obtain ⟨k, hk⟩ := Nat.exists_eq_add_one_of_ne_zero (Nat.ne_of_gt (Nat.add_pos_left hleast n))
  rw [hk] at hall
  obtain ⟨last, _, hq⟩ := mem_times_add.mp hall
  obtain ⟨q', hq', hlast⟩ := List.mem_flatMap.mp hq
  obtain rfl := List.mem_singleton.mp hlast
  exact h last q hq'

end FirstAndLast

/-! ## Places by their index -/

/-- The place in front of the character `n` of a text. -/
def Place.at (text : List α) (n : Nat) : Place α :=
  ⟨(text.take n).reverse, text.drop n⟩

theorem Place.at_length (before rest : List α) :
    Place.at (before.reverse ++ rest) before.length = ⟨before, rest⟩ := by
  have hlength : before.length = before.reverse.length := List.length_reverse.symm
  rw [Place.at, hlength, List.take_left, List.drop_left, List.reverse_reverse]

theorem Spans.at {text w : List α} {n : Nat} {q : Place α} (hn : n ≤ text.length)
    (h : Spans (Place.at text n) w q) :
    n + w.length ≤ text.length ∧ q = Place.at text (n + w.length) := by
  have hrest : text.drop n = w ++ q.rest := h.rest
  have hlength := congrArg List.length hrest
  rw [List.length_drop, List.length_append] at hlength
  refine ⟨by omega, h.target ⟨?_, ?_⟩⟩
  · show text.drop n = w ++ text.drop (n + w.length)
    rw [← List.drop_drop, hrest, List.drop_left]
  · show (text.take (n + w.length)).reverse = w.reverse ++ (text.take n).reverse
    rw [List.take_add, hrest, List.take_left, List.reverse_append]

theorem Place.at_inj {text : List α} {i j : Nat} (hi : i ≤ text.length) (hj : j ≤ text.length)
    (h : Place.at text i = Place.at text j) : i = j := by
  have hlength := congrArg (fun p : Place α => p.rest.length) h
  simp only [Place.at, List.length_drop] at hlength
  omega

theorem Place.rest_at_length (text : List α) (i : Nat) :
    (Place.at text i).rest.length = text.length - i := by
  simp [Place.at]

theorem Place.rest_at_head? (text : List α) (i : Nat) :
    (Place.at text i).rest.head? = text[i]? := by
  simp [Place.at]

theorem Place.before_at_head? {text : List α} {i : Nat} (hi : i < text.length) :
    (Place.at text (i + 1)).before.head? = text[i]? := by
  simp [Place.at, List.getLast?_take, hi]

theorem Spans.at_singleton {text : List α} {i : Nat} {a : α} (h : text[i]? = some a) :
    Spans (Place.at text i) [a] (Place.at text (i + 1)) := by
  obtain ⟨hi, rfl⟩ := List.getElem?_eq_some_iff.mp h
  constructor
  · exact List.drop_eq_getElem_cons hi
  · show (text.take (i + 1)).reverse = [text[i]].reverse ++ (text.take i).reverse
    rw [List.take_succ_eq_append_getElem hi, List.reverse_append]

/-- A match from place `i` ends at a place behind it. -/
theorem exists_at_of_takes {text : List α} {i : Nat} {r : Regex α} {q : Place α}
    (hi : i ≤ text.length) (h : Takes r (Place.at text i) q) :
    ∃ j, i ≤ j ∧ j ≤ text.length ∧ q = Place.at text j := by
  obtain ⟨w, hw, _⟩ := h
  obtain ⟨hle, hq⟩ := hw.at hi
  exact ⟨i + w.length, Nat.le_add_right _ _, hle, hq⟩

theorem takes_of_mem_times {n : Nat} {r : Regex α} {p q : Place α}
    (h : q ∈ times (ends r) n p) : Takes r p q :=
  times_rel (Takes.refl r) (fun _ _ _ => Takes.trans) (takes_of_mem_ends r) n p q h

/-- The two texts have the same characters from `i` to `j`. -/
def Agree (s t : List α) (i j : Nat) : Prop :=
  ∀ l, i ≤ l → l < j → s[l]? = t[l]?

theorem Agree.mono {s t : List α} {i j i' j' : Nat} (h : Agree s t i j) (hi : i ≤ i')
    (hj : j' ≤ j) : Agree s t i' j' :=
  fun l hl hlt => h l (Nat.le_trans hi hl) (Nat.lt_of_lt_of_le hlt hj)

/-- What `f` reaches in `s`, it also reaches in `t`, if the characters up to there are the
    same. -/
def Carries (s t : List α) (f : Place α → List (Place α)) : Prop :=
  ∀ i j, i ≤ s.length → j ≤ s.length → Place.at s j ∈ f (Place.at s i) → Agree s t i j →
    Place.at t j ∈ f (Place.at t i)

theorem carries_times {s t : List α} {r : Regex α} (hr : Carries s t (ends r)) (n : Nat) :
    Carries s t (times (ends r) n) := by
  induction n with
  | zero =>
    intro i j hi hj h _
    obtain rfl := Place.at_inj hj hi (List.mem_singleton.mp h)
    exact List.mem_singleton.mpr rfl
  | succ n ih =>
    intro i j hi hj h hagree
    obtain ⟨m, hm, hq⟩ := List.mem_flatMap.mp h
    obtain ⟨l, hil, hl, rfl⟩ := exists_at_of_takes hi (takes_of_mem_ends r _ _ hm)
    obtain ⟨k, hlk, hk, hat⟩ := exists_at_of_takes hl (takes_of_mem_times hq)
    obtain rfl := Place.at_inj hj hk hat
    have hfirst := hr i l hi hl hm (hagree.mono (Nat.le_refl i) hlk)
    have hmore := ih l j hl hj hq (hagree.mono hil (Nat.le_refl j))
    exact List.mem_flatMap.mpr ⟨_, hfirst, hmore⟩

/-- No word boundary is asked for. -/
def boundaryFree : Regex α → Bool
  | empty => true
  | cls _ => true
  | boundary _ => false
  | seq r s => boundaryFree r && boundaryFree s
  | alt r s => boundaryFree r && boundaryFree s
  | rep r _ _ _ => boundaryFree r

/-- **Without word boundaries, a match depends on the characters it consumes and on nothing
    else.** -/
theorem carries_ends {s t : List α} (hlength : s.length = t.length) (r : Regex α)
    (hfree : boundaryFree r = true) : Carries s t (ends r) := by
  induction r with
  | empty =>
    intro i j hi hj h _
    obtain rfl := Place.at_inj hj hi (mem_ends_empty.mp h)
    exact mem_ends_empty.mpr rfl
  | cls c =>
    intro i j hi hj h hagree
    obtain ⟨a, ha, hspans⟩ := mem_ends_cls.mp h
    obtain ⟨hle, hat⟩ := hspans.at hi
    obtain rfl := Place.at_inj hj hle hat
    have hget : s[i]? = some a := by
      rw [← Place.rest_at_head?, hspans.rest]
      rfl
    have hget' : t[i]? = some a := hagree i (Nat.le_refl i) (Nat.lt_succ_self i) ▸ hget
    exact mem_ends_cls.mpr ⟨a, ha, Spans.at_singleton hget'⟩
  | boundary isWord => simp [boundaryFree] at hfree
  | seq r₁ r₂ ih₁ ih₂ =>
    obtain ⟨hfree₁, hfree₂⟩ := Bool.and_eq_true _ _ ▸ hfree
    intro i j hi hj h hagree
    obtain ⟨m, hm, hq⟩ := mem_ends_seq.mp h
    obtain ⟨l, hil, hl, rfl⟩ := exists_at_of_takes hi (takes_of_mem_ends r₁ _ _ hm)
    obtain ⟨k, hlk, hk, hat⟩ := exists_at_of_takes hl (takes_of_mem_ends r₂ _ _ hq)
    obtain rfl := Place.at_inj hj hk hat
    have hfirst := ih₁ hfree₁ i l hi hl hm (hagree.mono (Nat.le_refl i) hlk)
    have hsecond := ih₂ hfree₂ l j hl hj hq (hagree.mono hil (Nat.le_refl j))
    exact mem_ends_seq.mpr ⟨_, hfirst, hsecond⟩
  | alt r₁ r₂ ih₁ ih₂ =>
    obtain ⟨hfree₁, hfree₂⟩ := Bool.and_eq_true _ _ ▸ hfree
    intro i j hi hj h hagree
    rcases mem_ends_alt.mp h with h | h
    · exact mem_ends_alt.mpr (.inl (ih₁ hfree₁ i j hi hj h hagree))
    · exact mem_ends_alt.mpr (.inr (ih₂ hfree₂ i j hi hj h hagree))
  | rep r least most greedy ih =>
    have htimes := carries_times (ih hfree)
    intro i j hi hj h hagree
    obtain ⟨m, hm, n, hn, hq⟩ := mem_ends_rep.mp h
    obtain ⟨l, hil, hl, rfl⟩ := exists_at_of_takes hi (takes_of_mem_times hm)
    obtain ⟨k, hlk, hk, hat⟩ := exists_at_of_takes hl (takes_of_mem_times hq)
    obtain rfl := Place.at_inj hj hk hat
    have hleast := htimes least i l hi hl hm (hagree.mono (Nat.le_refl i) hlk)
    have hmore := htimes n l j hl hj hq (hagree.mono hil (Nat.le_refl j))
    rw [Place.rest_at_length, hlength, ← Place.rest_at_length] at hn
    exact mem_ends_rep.mpr ⟨_, hleast, n, hn, hmore⟩

/-! ## Whole words -/

section WholeWords

variable {isWord : α → Bool}

theorem atBoundary_zero (text : List α) :
    atBoundary isWord (Place.at text 0) = (false != text[0]?.any isWord) := by
  rw [atBoundary, Place.rest_at_head?]
  rfl

theorem atBoundary_succ {text : List α} {i : Nat} (hi : i < text.length) :
    atBoundary isWord (Place.at text (i + 1)) =
      (text[i]?.any isWord != text[i + 1]?.any isWord) := by
  rw [atBoundary, Place.rest_at_head?, Place.before_at_head? hi]

/-- `body` between word boundaries. -/
def bounded (isWord : α → Bool) (body : Regex α) : Regex α :=
  .seq (.boundary isWord) (.seq body (.boundary isWord))

theorem mem_ends_bounded {body : Regex α} {p q : Place α} :
    q ∈ ends (bounded isWord body) p ↔
      atBoundary isWord p = true ∧ q ∈ ends body p ∧ atBoundary isWord q = true := by
  simp only [bounded, mem_ends_seq, mem_ends_boundary]
  constructor
  · intro ⟨_, ⟨hp, rfl⟩, m, hm, hq, hqm⟩
    subst hqm
    exact ⟨hp, hm, hq⟩
  · intro ⟨hp, hm, hq⟩
    exact ⟨p, ⟨hp, rfl⟩, q, hm, hq, rfl⟩

end WholeWords

end Regex
