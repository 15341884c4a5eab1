/-
  The search for the matches of a regular expression in a text, from left to right.

  The search takes the preferred match at the first place that has one and goes on behind it.

  * `Scanned`: how it cuts a text into kept characters and found matches.
  * `mem_finditer`: a found match is the preferred one at its start.
  * `ends_eq_nil_of_not_finds`: no match starts where no found one is.
-/
import AgentCorp.Lib.Regex

namespace Regex

variable {α : Type}

/-- A piece of a text the search has gone through. -/
inductive Piece (α : Type) where
  | kept (a : α)
  | found (w : List α)

structure Match (α : Type) where
  start : Nat
  group : List α

namespace Match

def stop (m : Match α) : Nat :=
  m.start + m.group.length

def Covers (m : Match α) (n : Nat) : Prop :=
  m.start ≤ n ∧ n < m.stop

instance (m : Match α) (n : Nat) : Decidable (m.Covers n) :=
  inferInstanceAs (Decidable (_ ∧ _))

end Match

namespace Pattern

variable (r : Pattern α)

/-- The text of the preferred match at a place. -/
def matchAt (p : Place α) : Option (List α) :=
  (ends r.regex p).head?.map fun q => p.rest.take (p.rest.length - q.rest.length)

/-- `skip` characters of `rest` belong to the last match found. -/
def scan : Nat → List α → List α → List (Piece α)
  | _, _, [] => []
  | skip + 1, before, a :: rest => scan skip (a :: before) rest
  | 0, before, a :: rest =>
      match r.matchAt ⟨before, a :: rest⟩ with
      | some w => .found w :: scan (w.length - 1) (a :: before) rest
      | none => .kept a :: scan 0 (a :: before) rest

end Pattern

/-- The pieces with every match replaced. -/
def substitute (f : List α → List α) : List (Piece α) → List α
  | [] => []
  | .kept a :: pieces => a :: substitute f pieces
  | .found w :: pieces => f w ++ substitute f pieces

def matchesFrom : Nat → List (Piece α) → List (Match α)
  | _, [] => []
  | n, .kept _ :: pieces => matchesFrom (n + 1) pieces
  | n, .found w :: pieces => ⟨n, w⟩ :: matchesFrom (n + w.length) pieces

namespace Pattern

variable (r : Pattern α)

/-- `pattern.sub(f, text)`, with `f` on the text of the match. -/
def sub (f : List α → List α) (text : List α) : List α :=
  substitute f (r.scan 0 [] text)

/-- `pattern.finditer(text)`. -/
def finditer (text : List α) : List (Match α) :=
  matchesFrom 0 (r.scan 0 [] text)

/-- Every found match is the preferred one at its place, and there is none where a character
    is kept. -/
inductive Scanned : List α → List α → List (Piece α) → Prop
  | done (before : List α) : Scanned before [] []
  | kept {before : List α} {a : α} {rest : List α} {pieces : List (Piece α)}
      (hnone : ends r.regex ⟨before, a :: rest⟩ = [])
      (hrest : Scanned (a :: before) rest pieces) :
      Scanned before (a :: rest) (.kept a :: pieces)
  | found {before : List α} {a : α} {w rest : List α} {pieces : List (Piece α)}
      (hfirst : (ends r.regex ⟨before, a :: w ++ rest⟩).head? =
        some ⟨(a :: w).reverse ++ before, rest⟩)
      (hrest : Scanned ((a :: w).reverse ++ before) rest pieces) :
      Scanned before (a :: w ++ rest) (.found (a :: w) :: pieces)

variable {r}

theorem scan_skip (w before rest : List α) :
    r.scan w.length before (w ++ rest) = r.scan 0 (w.reverse ++ before) rest := by
  induction w generalizing before with
  | nil => rfl
  | cons a w ih =>
    have hrev : (a :: w).reverse ++ before = w.reverse ++ a :: before := by simp
    rw [hrev]
    exact ih (a :: before)

theorem matchAt_eq_some {p : Place α} {w : List α} (h : r.matchAt p = some w) :
    ∃ q, (ends r.regex p).head? = some q ∧ Spans p w q ∧ w ≠ [] := by
  obtain ⟨q, hq, rfl⟩ := Option.map_eq_some_iff.mp h
  have hmem := List.mem_of_head? hq
  have hlt := rest_length_lt r.consumes hmem
  obtain ⟨w, hw⟩ := exists_spans hmem
  have hlength := hw.length
  have htake : p.rest.take (p.rest.length - q.rest.length) = w := by
    rw [hlength, Nat.add_sub_cancel, hw.rest, List.take_left]
  rw [htake]
  refine ⟨q, hq, hw, fun hnil => ?_⟩
  rw [hnil, List.length_nil] at hlength
  omega

theorem matchAt_eq_none {p : Place α} (h : r.matchAt p = none) : ends r.regex p = [] :=
  List.head?_eq_none_iff.mp (Option.map_eq_none_iff.mp h)

theorem scanned_scan (before rest : List α) : r.Scanned before rest (r.scan 0 before rest) := by
  match rest with
  | [] => exact .done before
  | a :: rest =>
    rw [scan]
    split
    · next w hmatch =>
      obtain ⟨q, hq, hw, hne⟩ := matchAt_eq_some hmatch
      obtain ⟨b, w, rfl⟩ := List.exists_cons_of_ne_nil hne
      obtain ⟨rfl, hrest⟩ := List.cons.inj hw.rest
      have hend : q = ⟨(a :: w).reverse ++ before, q.rest⟩ := hw.target ⟨hw.rest, rfl⟩
      rw [hend] at hq
      have hskip : r.scan w.length (a :: before) rest =
          r.scan 0 ((a :: w).reverse ++ before) q.rest := by
        rw [hrest]
        exact (scan_skip w (a :: before) q.rest).trans (by simp)
      have hlater := scanned_scan ((a :: w).reverse ++ before) q.rest
      rw [List.length_cons, Nat.add_sub_cancel, hskip]
      simp only [hrest] at hq ⊢
      exact .found hq hlater
    · next hmatch => exact .kept (matchAt_eq_none hmatch) (scanned_scan (a :: before) rest)
  termination_by rest.length

end Pattern

/-! ## Going on behind a match -/

theorem length_behind (before w : List α) :
    (w.reverse ++ before).length = before.length + w.length := by
  rw [List.length_append, List.length_reverse, Nat.add_comm]

theorem text_behind (before w rest : List α) :
    before.reverse ++ (w ++ rest) = (w.reverse ++ before).reverse ++ rest := by
  rw [List.reverse_append, List.reverse_reverse, List.append_assoc]

/-- A match that has been found takes in nothing that comes behind it. -/
theorem exists_covers_found_iff {n j : Nat} {w : List α} {pieces : List (Piece α)} :
    (∃ m ∈ matchesFrom n (.found w :: pieces), m.Covers (n + w.length + j)) ↔
      ∃ m ∈ matchesFrom (n + w.length) pieces, m.Covers (n + w.length + j) := by
  constructor
  · intro ⟨m, hm, hcovers⟩
    rcases List.mem_cons.mp hm with rfl | hm
    · have hlt : n + w.length + j < n + w.length := hcovers.2
      omega
    · exact ⟨m, hm, hcovers⟩
  · intro ⟨m, hm, hcovers⟩
    exact ⟨m, List.mem_cons_of_mem _ hm, hcovers⟩

namespace Pattern

variable {r : Pattern α} {before rest : List α} {pieces : List (Piece α)}

/-- A found match lies in the text and is the preferred one at its start. -/
theorem Scanned.of_mem (h : r.Scanned before rest pieces) {m : Match α}
    (hm : m ∈ matchesFrom before.length pieces) :
    before.length ≤ m.start ∧ m.group ≠ [] ∧ m.stop ≤ before.length + rest.length ∧
      (ends r.regex (Place.at (before.reverse ++ rest) m.start)).head? =
        some (Place.at (before.reverse ++ rest) m.stop) := by
  induction h with
  | done before => exact absurd hm List.not_mem_nil
  | @kept before a rest pieces hnone hrest ih =>
    have htext : before.reverse ++ a :: rest = (a :: before).reverse ++ rest := by simp
    obtain ⟨hstart, hne, hstop, hfirst⟩ := ih hm
    rw [List.length_cons] at hstart hstop
    rw [List.length_cons, htext]
    exact ⟨by omega, hne, by omega, hfirst⟩
  | @found before a w rest pieces hfirst hrest ih =>
    have htext := text_behind before (a :: w) rest
    have hlength := length_behind before (a :: w)
    rcases List.mem_cons.mp hm with rfl | hm
    · refine ⟨Nat.le_refl _, List.cons_ne_nil a w, ?_, ?_⟩
      · rw [List.length_append, ← Nat.add_assoc]
        exact Nat.le_add_right _ _
      · rw [Place.at_length, hfirst, htext, Match.stop, ← hlength, Place.at_length]
    · rw [← hlength] at hm
      obtain ⟨hstart, hne, hstop, hfirst⟩ := ih hm
      rw [hlength] at hstart hstop
      rw [List.length_append, htext]
      exact ⟨by omega, hne, by omega, hfirst⟩

/-- Where no found match is, none starts. -/
theorem Scanned.ends_eq_nil (h : r.Scanned before rest pieces) {n : Nat}
    (hn : before.length ≤ n) (hlt : n < before.length + rest.length)
    (hfree : ∀ m ∈ matchesFrom before.length pieces, ¬ m.Covers n) :
    ends r.regex (Place.at (before.reverse ++ rest) n) = [] := by
  induction h with
  | done before =>
    rw [List.length_nil] at hlt
    omega
  | @kept before a rest pieces hnone hrest ih =>
    rcases Nat.eq_or_lt_of_le hn with rfl | hlater
    · rw [Place.at_length]
      exact hnone
    · have htext : before.reverse ++ a :: rest = (a :: before).reverse ++ rest := by simp
      rw [htext]
      rw [List.length_cons] at hlt
      exact ih (by rw [List.length_cons]; omega) (by rw [List.length_cons]; omega) hfree
  | @found before a w rest pieces hfirst hrest ih =>
    have htext := text_behind before (a :: w) rest
    have hlength := length_behind before (a :: w)
    have hbehind : before.length + (a :: w).length ≤ n := by
      by_contra hinside
      exact hfree _ List.mem_cons_self ⟨hn, Nat.lt_of_not_le hinside⟩
    rw [htext]
    rw [List.length_append] at hlt
    refine ih (by omega) (by omega) fun m hm => ?_
    rw [hlength] at hm
    exact hfree m (List.mem_cons_of_mem _ hm)

/-- A found match takes in the character `n`. -/
def Finds (r : Pattern α) (text : List α) (n : Nat) : Prop :=
  ∃ m ∈ r.finditer text, m.Covers n

instance (text : List α) (n : Nat) : Decidable (r.Finds text n) :=
  inferInstanceAs (Decidable (∃ m ∈ r.finditer text, m.Covers n))

theorem mem_finditer {text : List α} {m : Match α} (hm : m ∈ r.finditer text) :
    m.group ≠ [] ∧ m.stop ≤ text.length ∧
      (ends r.regex (Place.at text m.start)).head? = some (Place.at text m.stop) := by
  have h := ((scanned_scan (r := r) [] text).of_mem hm).2
  rw [List.length_nil, Nat.zero_add] at h
  exact h

theorem Finds.lt_length {text : List α} {n : Nat} (h : r.Finds text n) : n < text.length := by
  obtain ⟨m, hm, hcovers⟩ := h
  exact Nat.lt_of_lt_of_le hcovers.2 (mem_finditer hm).2.1

theorem ends_eq_nil_of_not_finds {text : List α} {n : Nat} (hn : n < text.length)
    (h : ¬ r.Finds text n) : ends r.regex (Place.at text n) = [] :=
  (scanned_scan (r := r) [] text).ends_eq_nil (Nat.zero_le n) (by simpa using hn)
    fun m hm hcovers => h ⟨m, hm, hcovers⟩

/-- Nothing is found exactly if there is no match anywhere. -/
theorem finditer_eq_nil_iff {text : List α} :
    r.finditer text = [] ↔ ∀ n < text.length, ends r.regex (Place.at text n) = [] := by
  constructor
  · intro hnil n hn
    refine ends_eq_nil_of_not_finds hn fun ⟨m, hm, _⟩ => ?_
    rw [hnil] at hm
    exact List.not_mem_nil hm
  · intro hnone
    by_contra hne
    obtain ⟨m, hm⟩ := List.exists_mem_of_ne_nil _ hne
    obtain ⟨hgroup, hstop, hfirst⟩ := mem_finditer hm
    have hpos := List.length_pos_iff.mpr hgroup
    have hlt : m.start < text.length := by
      unfold Match.stop at hstop
      omega
    rw [hnone m.start hlt] at hfirst
    exact absurd hfirst (by simp)

/-- `pattern.search(text)` finds something. -/
def search (r : Pattern α) (text : List α) : Bool :=
  !(r.finditer text).isEmpty

theorem search_eq_false_iff {text : List α} :
    r.search text = false ↔ ∀ n < text.length, ends r.regex (Place.at text n) = [] := by
  rw [← finditer_eq_nil_iff, search, Bool.not_eq_false', List.isEmpty_iff]

theorem Scanned.sublist (h : r.Scanned before rest pieces) :
    (substitute (fun _ => []) pieces).Sublist rest := by
  induction h with
  | done before => exact List.Sublist.refl []
  | kept hnone hrest ih => exact ih.cons_cons _
  | @found before a w rest pieces hfirst hrest ih => exact ih.trans (List.sublist_append_right _ _)

/-- Deleting the matches leaves a part of the text. -/
theorem sub_nil_sublist (r : Pattern α) (text : List α) :
    (r.sub (fun _ => []) text).Sublist text :=
  (scanned_scan [] text).sublist

theorem Scanned.substitute_eq (h : r.Scanned before rest pieces) (f : List α → List α) {n : Nat}
    (hnil : matchesFrom n pieces = []) : substitute f pieces = rest := by
  induction h generalizing n with
  | done before => rfl
  | kept hnone hrest ih => exact congrArg (_ :: ·) (ih hnil)
  | found hfirst hrest ih => exact absurd hnil (List.cons_ne_nil _ _)

theorem sub_eq_self {text : List α} (h : r.search text = false) (f : List α → List α) :
    r.sub f text = text := by
  rw [search, Bool.not_eq_false', List.isEmpty_iff] at h
  exact (scanned_scan [] text).substitute_eq f h

end Pattern

end Regex
