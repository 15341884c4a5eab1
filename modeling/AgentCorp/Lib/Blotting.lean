/-
  Blotting out the matches of one regular expression after the other.

  * `Pattern.getElem?_blot`: what becomes of each character.
  * `Pattern.ends_eq_nil_of_blotted`: no match without a word boundary is left, whatever is blotted
    out later.
  * `Pattern.ends_blotAll_bounded_eq_nil`: if all the expressions ask for whole words, no match of
    them is left either.
-/
import AgentCorp.Lib.RegexSearch
import Mathlib.Data.List.Forall2

namespace Regex

variable {α : Type}

/-- `t` is `s` with some characters replaced by `c`. -/
def Blotted (c : α) : List α → List α → Prop :=
  List.Forall₂ fun a b => b = a ∨ b = c

theorem Blotted.refl (c : α) (t : List α) : Blotted c t t :=
  List.forall₂_same.mpr fun _ _ => .inl rfl

theorem Blotted.trans {c : α} {s t u : List α} (hst : Blotted c s t) (htu : Blotted c t u) :
    Blotted c s u := by
  induction hst generalizing u with
  | nil => exact htu
  | cons hab _ ih =>
    obtain ⟨d, u, hbd, hrest, rfl⟩ := List.forall₂_cons_left_iff.mp htu
    refine List.Forall₂.cons ?_ (ih hrest)
    rcases hbd with rfl | rfl
    · exact hab
    · exact .inr rfl

namespace Pattern

variable {r : Pattern α} {before rest : List α} {pieces : List (Piece α)}

/-- The found matches, blotted out. -/
theorem Scanned.length_blot {c : α} (h : r.Scanned before rest pieces) :
    (substitute (fun w => List.replicate w.length c) pieces).length = rest.length := by
  induction h with
  | done before => rfl
  | kept hnone hrest ih => simp [substitute, ih]
  | found hfirst hrest ih =>
    simp [substitute, ih]
    omega

theorem Scanned.getElem?_blot {c : α} (h : r.Scanned before rest pieces) (i : Nat) :
    (substitute (fun w => List.replicate w.length c) pieces)[i]? =
      if ∃ m ∈ matchesFrom before.length pieces, m.Covers (before.length + i) then
        rest[i]?.map fun _ => c
      else rest[i]? := by
  induction h generalizing i with
  | done before => simp [substitute]
  | @kept before a rest pieces hnone hrest ih =>
    match i with
    | 0 =>
      rw [if_neg]
      · rfl
      · intro ⟨m, hm, hcovers⟩
        have hstart := (hrest.of_mem hm).1
        rw [List.length_cons] at hstart
        have hle := hcovers.1
        omega
    | i + 1 =>
      have hindex : before.length + (i + 1) = (a :: before).length + i := by
        rw [List.length_cons]
        omega
      rw [hindex]
      exact ih i
  | @found before a w rest pieces hfirst hrest ih =>
    have hlength := length_behind before (a :: w)
    rw [substitute]
    rcases Nat.lt_or_ge i (a :: w).length with hinside | hbehind
    · have hcovered : ∃ m ∈ matchesFrom before.length (.found (a :: w) :: pieces),
          m.Covers (before.length + i) :=
        ⟨⟨before.length, a :: w⟩, List.mem_cons_self, Nat.le_add_right _ _,
          Nat.add_lt_add_left hinside _⟩
      rw [if_pos hcovered, List.getElem?_append_left (by simpa using hinside),
        List.getElem?_replicate_of_lt hinside, List.getElem?_append_left hinside,
        List.getElem?_eq_getElem hinside, Option.map_some]
    · obtain ⟨j, rfl⟩ := Nat.exists_eq_add_of_le hbehind
      have hreplicate : (List.replicate (a :: w).length c).length = (a :: w).length :=
        List.length_replicate
      rw [← Nat.add_assoc, if_congr exists_covers_found_iff rfl rfl,
        List.getElem?_append_right (by omega), List.getElem?_append_right (Nat.le_add_right _ _),
        hreplicate, Nat.add_sub_cancel_left, ← hlength]
      exact ih j

/-- The characters of the found matches, replaced by `c`. -/
def blot (r : Pattern α) (c : α) (text : List α) : List α :=
  r.sub (fun w => List.replicate w.length c) text

theorem length_blot (r : Pattern α) (c : α) (text : List α) :
    (r.blot c text).length = text.length :=
  (scanned_scan [] text).length_blot

theorem getElem?_blot (r : Pattern α) (c : α) (text : List α) (n : Nat) :
    (r.blot c text)[n]? = if r.Finds text n then text[n]?.map fun _ => c else text[n]? := by
  have h := (scanned_scan (r := r) [] text).getElem?_blot (c := c) n
  rw [List.length_nil, Nat.zero_add] at h
  exact h

theorem blotted_blot (r : Pattern α) (c : α) (text : List α) :
    Blotted c text (r.blot c text) := by
  refine List.forall₂_iff_get.mpr ⟨(r.length_blot c text).symm, fun n hn hn' => ?_⟩
  have h := r.getElem?_blot c text n
  rw [List.getElem?_eq_getElem hn, List.getElem?_eq_getElem hn'] at h
  simp only [List.get_eq_getElem]
  split at h
  · exact .inr (Option.some.inj h)
  · exact .inl (Option.some.inj h)

theorem getElem?_blot_of_not_finds {c : α} {text : List α} {n : Nat} (h : ¬ r.Finds text n) :
    (r.blot c text)[n]? = text[n]? := by
  rw [r.getElem?_blot, if_neg h]

theorem not_finds_of_getElem?_ne {c : α} {text : List α} {n : Nat}
    (h : (r.blot c text)[n]? ≠ some c) : ¬ r.Finds text n := by
  intro hfinds
  have hlt := hfinds.lt_length
  rw [r.getElem?_blot, if_pos hfinds, List.getElem?_eq_getElem hlt, Option.map_some] at h
  exact h rfl

end Pattern

/-! ## One expression after the other -/

theorem Blotted.getElem?_eq {c : α} {s t : List α} (h : Blotted c s t) {n : Nat}
    (hn : t[n]? ≠ some c) : s[n]? = t[n]? := by
  induction h generalizing n with
  | nil => rfl
  | @cons a b s t hab _ ih =>
    match n with
    | 0 =>
      rcases hab with rfl | rfl
      · rfl
      · exact absurd rfl hn
    | n + 1 => exact ih hn

/-- The characters of a match are not blotted. -/
theorem getElem?_ne_of_mem_ends {c : α} {r : Regex α} (havoid : avoids c r = true) {t : List α}
    {i j : Nat} (hi : i ≤ t.length) (hj : j ≤ t.length)
    (hmatch : Place.at t j ∈ ends r (Place.at t i)) {l : Nat} (hil : i ≤ l) (hlj : l < j) :
    t[l]? ≠ some c := by
  obtain ⟨w, hw, hc⟩ := takes_of_mem_ends r _ _ hmatch
  obtain ⟨hle, hat⟩ := hw.at hi
  obtain rfl := Place.at_inj hj hle hat
  obtain ⟨k, rfl⟩ := Nat.exists_eq_add_of_le hil
  intro hget
  have hrest : t.drop i = w ++ t.drop (i + w.length) := hw.rest
  rw [← List.getElem?_drop, hrest, List.getElem?_append_left (by omega)] at hget
  exact hc c havoid (List.mem_of_getElem? hget)

/-- A match in a text with blotted characters was there before. -/
theorem Blotted.ends {c : α} {s t : List α} (h : Blotted c s t) {r : Regex α}
    (hfree : boundaryFree r = true) (havoid : avoids c r = true) {i j : Nat}
    (hi : i ≤ t.length) (hj : j ≤ t.length) (hmatch : Place.at t j ∈ ends r (Place.at t i)) :
    Place.at s j ∈ ends r (Place.at s i) :=
  carries_ends h.length_eq.symm r hfree i j hi hj hmatch fun _ hil hlj =>
    (h.getElem?_eq (getElem?_ne_of_mem_ends havoid hi hj hmatch hil hlj)).symm

namespace Pattern

variable {r : Pattern α} {c : α}

theorem exists_match {text : List α} {n : Nat} (hn : n ≤ text.length)
    (h : ends r.regex (Place.at text n) ≠ []) :
    ∃ j, n < j ∧ j ≤ text.length ∧ Place.at text j ∈ ends r.regex (Place.at text n) := by
  obtain ⟨q, hq⟩ := List.exists_mem_of_ne_nil _ h
  obtain ⟨j, hnj, hj, rfl⟩ := exists_at_of_takes hn (takes_of_mem_ends _ _ _ hq)
  have hlt := rest_length_lt r.consumes hq
  rw [Place.rest_at_length, Place.rest_at_length] at hlt
  exact ⟨j, by omega, hj, hq⟩

/-- **No match without a word boundary is left, and none comes back.** -/
theorem ends_eq_nil_of_blotted {text t : List α} (hfree : boundaryFree r.regex = true)
    (havoid : avoids c r.regex = true) (h : Blotted c (r.blot c text) t) {n : Nat}
    (hn : n < t.length) : ends r.regex (Place.at t n) = [] := by
  by_contra hne
  have hnle := Nat.le_of_lt hn
  obtain ⟨j, hnj, hj, hmatch⟩ := exists_match hnle hne
  have hlength := h.length_eq
  have htext := r.length_blot c text
  -- Its first character is not blotted, so no match was found there.
  have hkeep := getElem?_ne_of_mem_ends havoid hnle hj hmatch (Nat.le_refl n) hnj
  have hkept : (r.blot c text)[n]? ≠ some c := by
    rw [h.getElem?_eq hkeep]
    exact hkeep
  have hnone := ends_eq_nil_of_not_finds (by omega) (not_finds_of_getElem?_ne hkept)
  have hbefore := ((blotted_blot r c text).trans h).ends hfree havoid hnle hj hmatch
  rw [hnone] at hbefore
  exact List.not_mem_nil hbefore

/-- The expressions of a list, one after the other. -/
def blotAll (c : α) (rs : List (Pattern α)) (text : List α) : List α :=
  rs.foldl (fun text r => r.blot c text) text

/-- The matches that are blotted out on the way. -/
def blottedBy (c : α) : List (Pattern α) → List α → List (Match α)
  | [], _ => []
  | r :: rs, text => r.finditer text ++ blottedBy c rs (r.blot c text)

theorem exists_covers_of_getElem?_ne {rs : List (Pattern α)} {text : List α} {n : Nat}
    (h : (blotAll c rs text)[n]? ≠ text[n]?) : ∃ m ∈ blottedBy c rs text, m.Covers n := by
  induction rs generalizing text with
  | nil => exact absurd rfl h
  | cons r rs ih =>
    by_cases hfinds : r.Finds text n
    · obtain ⟨m, hm, hcovers⟩ := hfinds
      exact ⟨m, List.mem_append_left _ hm, hcovers⟩
    · rw [← getElem?_blot_of_not_finds hfinds (c := c)] at h
      obtain ⟨m, hm, hcovers⟩ := ih h
      exact ⟨m, List.mem_append_right _ hm, hcovers⟩

theorem blotted_blotAll (rs : List (Pattern α)) (text : List α) :
    Blotted c text (blotAll c rs text) := by
  induction rs generalizing text with
  | nil => exact Blotted.refl c text
  | cons r rs ih => exact (blotted_blot r c text).trans (ih (r.blot c text))

theorem blotAll_append (rs ss : List (Pattern α)) (text : List α) :
    blotAll c (rs ++ ss) text = blotAll c ss (blotAll c rs text) :=
  List.foldl_append

theorem ends_blotAll_eq_nil {rs : List (Pattern α)} (hr : r ∈ rs)
    (hfree : boundaryFree r.regex = true) (havoid : avoids c r.regex = true) {text : List α}
    {n : Nat} (hn : n < (blotAll c rs text).length) :
    ends r.regex (Place.at (blotAll c rs text) n) = [] := by
  obtain ⟨before, after, rfl⟩ := List.append_of_mem hr
  have hsplit : blotAll c (before ++ r :: after) text =
      blotAll c after (r.blot c (blotAll c before text)) :=
    blotAll_append before (r :: after) text
  rw [hsplit] at hn ⊢
  exact ends_eq_nil_of_blotted hfree havoid (blotted_blotAll after _) hn

end Pattern

/-! ## Whole words -/

/-- A neighbour of the place `i` has not been blotted. -/
def Kept (c : α) (t : List α) (i : Nat) : Prop :=
  t[i]? ≠ some c ∨ ∃ l, i = l + 1 ∧ t[l]? ≠ some c

theorem Kept.of_blotted {c : α} {s t : List α} (h : Blotted c s t) {i : Nat} (hi : Kept c t i) :
    Kept c s i := by
  rcases hi with hi | ⟨l, rfl, hl⟩
  · exact .inl (h.getElem?_eq hi ▸ hi)
  · exact .inr ⟨l, rfl, h.getElem?_eq hl ▸ hl⟩

namespace Pattern

variable {r : Pattern α} {c : α} {isWord : α → Bool} {body : Regex α}

/-- A pattern of whole words, none of whose characters is `c`. -/
structure Bounded (r : Pattern α) (isWord : α → Bool) (c : α) (body : Regex α) : Prop where
  regex : r.regex = bounded isWord body
  boundaryFree : boundaryFree body = true
  avoids : avoids c body = true

theorem exists_start {text : List α} {i : Nat} (h : r.Finds text (i + 1))
    (hfree : ¬ r.Finds text i) : ∃ m ∈ r.finditer text, m.start = i + 1 := by
  obtain ⟨m, hm, hstart, hstop⟩ := h
  refine ⟨m, hm, Nat.le_antisymm hstart ?_⟩
  by_contra hlt
  exact hfree ⟨m, hm, by omega, by omega⟩

theorem exists_stop {text : List α} {i : Nat} (h : r.Finds text i)
    (hfree : ¬ r.Finds text (i + 1)) : ∃ m ∈ r.finditer text, m.stop = i + 1 := by
  obtain ⟨m, hm, hstart, hstop⟩ := h
  refine ⟨m, hm, Nat.le_antisymm ?_ hstop⟩
  by_contra hlt
  exact hfree ⟨m, hm, by omega, by omega⟩

/-- A word boundary that was none, in front of a character that stays: a match ends there. -/
theorem exists_stop_of_new_boundary {text : List α} {i : Nat} (hi : i < text.length)
    (hfree : ¬ r.Finds text i)
    (hnew : atBoundary isWord (Place.at (r.blot c text) i) = true)
    (hold : atBoundary isWord (Place.at text i) = false) :
    ∃ m ∈ r.finditer text, m.stop = i := by
  match i with
  | 0 =>
    rw [atBoundary_zero, getElem?_blot_of_not_finds hfree, ← atBoundary_zero, hold] at hnew
    exact absurd hnew Bool.noConfusion
  | i + 1 =>
    refine exists_stop ?_ hfree
    by_contra hleft
    have hlt : i < text.length := Nat.lt_of_succ_lt hi
    rw [atBoundary_succ (by rw [length_blot]; exact hlt), getElem?_blot_of_not_finds hfree,
      getElem?_blot_of_not_finds hleft, ← atBoundary_succ hlt, hold] at hnew
    exact absurd hnew Bool.noConfusion

theorem Bounded.mem_finditer (h : r.Bounded isWord c body) {text : List α} {m : Match α}
    (hm : m ∈ r.finditer text) :
    atBoundary isWord (Place.at text m.start) = true ∧
      atBoundary isWord (Place.at text m.stop) = true := by
  have hmem := List.mem_of_head? (Pattern.mem_finditer hm).2.2
  rw [h.regex] at hmem
  obtain ⟨hstart, _, hstop⟩ := mem_ends_bounded.mp hmem
  exact ⟨hstart, hstop⟩

/-- Blotting out whole words makes no word boundary next to a character that is left. -/
theorem Bounded.atBoundary_of_blot (h : r.Bounded isWord c body) {text : List α} {i : Nat}
    (hi : i ≤ text.length) (hkept : Kept c (r.blot c text) i)
    (hboundary : atBoundary isWord (Place.at (r.blot c text) i) = true) :
    atBoundary isWord (Place.at text i) = true := by
  match i with
  | 0 =>
    have hzero : (r.blot c text)[0]? ≠ some c := by
      rcases hkept with hkept | ⟨l, hl, _⟩
      · exact hkept
      · exact absurd hl (Nat.succ_ne_zero l).symm
    rw [atBoundary_zero, getElem?_blot_of_not_finds (not_finds_of_getElem?_ne hzero)] at hboundary
    rw [atBoundary_zero]
    exact hboundary
  | i + 1 =>
    by_cases hleft : r.Finds text i <;> by_cases hright : r.Finds text (i + 1)
    · rcases hkept with hkept | ⟨l, hl, hkept⟩
      · exact absurd hright (not_finds_of_getElem?_ne hkept)
      · obtain rfl := Nat.succ.inj hl
        exact absurd hleft (not_finds_of_getElem?_ne hkept)
    · obtain ⟨m, hm, hstop⟩ := exists_stop hleft hright
      exact hstop ▸ (h.mem_finditer hm).2
    · obtain ⟨m, hm, hstart⟩ := exists_start hright hleft
      exact hstart ▸ (h.mem_finditer hm).1
    · rw [atBoundary_succ (by rw [length_blot]; exact hi), getElem?_blot_of_not_finds hleft,
        getElem?_blot_of_not_finds hright] at hboundary
      rw [atBoundary_succ hi]
      exact hboundary

theorem atBoundary_of_blotAll {rs : List (Pattern α)}
    (h : ∀ r ∈ rs, ∃ body, r.Bounded isWord c body) {text : List α} {i : Nat}
    (hi : i ≤ text.length) (hkept : Kept c (blotAll c rs text) i)
    (hboundary : atBoundary isWord (Place.at (blotAll c rs text) i) = true) :
    atBoundary isWord (Place.at text i) = true := by
  induction rs generalizing text with
  | nil => exact hboundary
  | cons r rs ih =>
    obtain ⟨body, hr⟩ := h r List.mem_cons_self
    have hlater := ih (fun s hs => h s (List.mem_cons_of_mem r hs))
      (by rw [length_blot]; exact hi) hkept hboundary
    exact hr.atBoundary_of_blot hi (hkept.of_blotted (blotted_blotAll rs _)) hlater

/-- **If all the expressions ask for whole words, no match of any of them is left.** -/
theorem ends_blotAll_bounded_eq_nil {rs : List (Pattern α)}
    (h : ∀ r ∈ rs, ∃ body, r.Bounded isWord c body) (hr : r ∈ rs) {text : List α} {n : Nat}
    (hn : n < (blotAll c rs text).length) :
    ends r.regex (Place.at (blotAll c rs text) n) = [] := by
  by_contra hne
  have hnle := Nat.le_of_lt hn
  obtain ⟨j, hnj, hj, hmatch⟩ := exists_match hnle hne
  obtain ⟨body, hb⟩ := h r hr
  rw [hb.regex] at hmatch
  obtain ⟨hstart, hbody, hstop⟩ := mem_ends_bounded.mp hmatch
  have hkeep (l : Nat) := getElem?_ne_of_mem_ends hb.avoids hnle hj hbody (l := l)
  have hkeptLeft : Kept c (blotAll c rs text) n := .inl (hkeep n (Nat.le_refl n) hnj)
  have hkeptRight : Kept c (blotAll c rs text) j :=
    .inr ⟨j - 1, by omega, hkeep (j - 1) (by omega) (by omega)⟩
  -- The stage of `r`, and what comes behind it.
  obtain ⟨before, after, rfl⟩ := List.append_of_mem hr
  rw [blotAll_append] at hn hnle hj hstart hbody hstop hkeep hkeptLeft hkeptRight
  generalize blotAll c before text = stage at *
  have hstage : ∀ s ∈ r :: after, ∃ body, s.Bounded isWord c body :=
    fun s hs => h s (List.mem_append_right before hs)
  have hblotted := blotted_blotAll (c := c) (r :: after) stage
  have hlength := hblotted.length_eq
  have hmatch : Place.at stage j ∈ ends r.regex (Place.at stage n) := by
    rw [hb.regex]
    exact mem_ends_bounded.mpr
      ⟨atBoundary_of_blotAll hstage (by omega) hkeptLeft hstart,
        hblotted.ends hb.boundaryFree hb.avoids hnle hj hbody,
        atBoundary_of_blotAll hstage (by omega) hkeptRight hstop⟩
  have hkept : (r.blot c stage)[n]? ≠ some c := by
    have hn := hkeep n (Nat.le_refl n) hnj
    rw [(blotted_blotAll after (r.blot c stage)).getElem?_eq hn]
    exact hn
  have hnone := ends_eq_nil_of_not_finds (by omega) (not_finds_of_getElem?_ne hkept)
  rw [hnone] at hmatch
  exact List.not_mem_nil hmatch

end Pattern

end Regex
