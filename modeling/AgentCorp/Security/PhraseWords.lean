/-
  The words of a text, and what removing a phrase of two words does to them.

  To a phrase a text is a list of words and other characters, which whitespace only separates
  (`items`). A match of the phrase takes whole words, so that no two words grow together when it is
  removed.

  * `items_sub`: removing the phrase deletes the adjacent pairs of its words.
  * `search_iff`: the phrase matches where its words stand together.
-/
import AgentCorp.Lib.PairDeletion
import AgentCorp.Security.Sanitizer

namespace AgentCorp.Security.Sanitizer

open AgentCorp.Python AgentCorp.Python.Re
open Regex PairDeletion

variable (U : CharClasses)

/-! ## Words -/

/-- A word, ignoring case, or another character that is not whitespace. -/
abbrev Item := Option (List Char)

def startsWord (text : List Char) : Bool :=
  text.head?.any U.isWord

/-- The words and the other characters of a text. -/
def items : List Char → List Item
  | [] => []
  | c :: text =>
      if U.isWord c then
        match startsWord U text, items text with
        | true, some w :: l => some (ignoreCase c :: w) :: l
        | _, l => some [ignoreCase c] :: l
      else if isSpace c then items text
      else none :: items text

section Words

variable {U} {c : Char} {text : List Char}

theorem items_space (h : isSpace c = true) : items U (c :: text) = items U text := by
  simp [items, U.isWord_of_isSpace c h, h]

theorem items_other (hword : U.isWord c = false) (hspace : isSpace c = false) :
    items U (c :: text) = none :: items U text := by
  simp [items, hword, hspace]

theorem items_word_end (hword : U.isWord c = true) (htext : startsWord U text = false) :
    items U (c :: text) = some [ignoreCase c] :: items U text := by
  simp [items, hword, htext]

theorem items_word_more (hword : U.isWord c = true) (htext : startsWord U text = true)
    {w : List Char} {l : List Item} (hitems : items U text = some w :: l) :
    items U (c :: text) = some (ignoreCase c :: w) :: l := by
  simp [items, hword, htext, hitems]

theorem exists_items_of_startsWord {text : List Char} (h : startsWord U text = true) :
    ∃ w l, items U text = some w :: l := by
  match text with
  | [] => exact absurd h Bool.noConfusion
  | c :: text =>
    have hword : U.isWord c = true := h
    by_cases htext : startsWord U text = true
    · obtain ⟨w, l, hitems⟩ := exists_items_of_startsWord htext
      exact ⟨_, _, items_word_more hword htext hitems⟩
    · exact ⟨_, _, items_word_end hword (Bool.eq_false_of_not_eq_true htext)⟩

/-- A run of word characters is one word. -/
theorem items_run {w : List Char} (hne : w ≠ []) (hw : ∀ a ∈ w, U.isWord a = true)
    (htext : startsWord U text = false) :
    items U (w ++ text) = some (w.map ignoreCase) :: items U text := by
  match w with
  | [] => exact absurd rfl hne
  | [c] => exact items_word_end (hw c List.mem_cons_self) htext
  | c :: d :: w =>
    have hrest := items_run (List.cons_ne_nil d w)
      (fun a ha => hw a (List.mem_cons_of_mem c ha)) htext
    have hnext : startsWord U (d :: w ++ text) = true :=
      hw d (List.mem_cons_of_mem c List.mem_cons_self)
    exact items_word_more (hw c List.mem_cons_self) hnext hrest

theorem items_spaces {w : List Char} (hw : ∀ a ∈ w, isSpace a = true) :
    items U (w ++ text) = items U text := by
  induction w with
  | nil => rfl
  | cons c w ih =>
    have hrest := ih fun a ha => hw a (List.mem_cons_of_mem c ha)
    exact (items_space (hw c List.mem_cons_self)).trans hrest

/-- Texts that do not meet inside a word are read one after the other. -/
theorem items_append {front : List Char}
    (h : front.getLast?.any U.isWord = true → startsWord U text = false) :
    items U (front ++ text) = items U front ++ items U text := by
  match front with
  | [] => rfl
  | [c] =>
    by_cases hword : U.isWord c = true
    · have htext := h hword
      have hnil : startsWord U [] = false := rfl
      rw [items_word_end hword hnil]
      exact items_word_end hword htext
    · have hword := Bool.eq_false_of_not_eq_true hword
      by_cases hspace : isSpace c = true
      · rw [items_space hspace]
        exact items_space hspace
      · have hspace := Bool.eq_false_of_not_eq_true hspace
        rw [items_other hword hspace]
        exact items_other hword hspace
  | c :: d :: front =>
    have hrest : items U (d :: front ++ text) = items U (d :: front) ++ items U text :=
      items_append fun hlast => h (by rw [List.getLast?_cons_cons]; exact hlast)
    by_cases hword : U.isWord c = true
    · by_cases hnext : startsWord U (d :: front) = true
      · obtain ⟨w, l, hitems⟩ := exists_items_of_startsWord hnext
        rw [hitems] at hrest
        rw [items_word_more hword hnext hitems]
        have hjoined : startsWord U (d :: front ++ text) = true := hnext
        exact items_word_more hword hjoined hrest
      · have hnext := Bool.eq_false_of_not_eq_true hnext
        rw [items_word_end hword hnext]
        have hjoined : startsWord U (d :: front ++ text) = false := hnext
        exact (items_word_end hword hjoined).trans (congrArg (_ :: ·) hrest)
    · have hword := Bool.eq_false_of_not_eq_true hword
      by_cases hspace : isSpace c = true
      · rw [items_space hspace]
        exact (items_space hspace).trans hrest
      · have hspace := Bool.eq_false_of_not_eq_true hspace
        rw [items_other hword hspace]
        exact (items_other hword hspace).trans (congrArg (_ :: ·) hrest)

/-- Where a word is read there is one, behind whitespace. -/
theorem exists_word {text w : List Char} {l : List Item} (h : items U text = some w :: l) :
    ∃ blanks v rest, text = blanks ++ (v ++ rest) ∧ (∀ a ∈ blanks, isSpace a = true) ∧ v ≠ [] ∧
      (∀ a ∈ v, U.isWord a = true) ∧ v.map ignoreCase = w ∧ startsWord U rest = false ∧
      items U rest = l := by
  match text with
  | [] => exact absurd h.symm (List.cons_ne_nil _ _)
  | c :: text =>
    by_cases hword : U.isWord c = true
    · by_cases hnext : startsWord U text = true
      · obtain ⟨w', l', hitems⟩ := exists_items_of_startsWord hnext
        rw [items_word_more hword hnext hitems] at h
        obtain ⟨hw, rfl⟩ := List.cons.inj h
        obtain ⟨blanks, v, rest, rfl, hblanks, hne, hv, hmap, hrest, hl⟩ := exists_word hitems
        -- The text goes on with a word character, so there are no blanks.
        match blanks with
        | [] =>
          refine ⟨[], c :: v, rest, rfl, by simp, List.cons_ne_nil c v, ?_, ?_, hrest, hl⟩
          · exact List.forall_mem_cons.mpr ⟨hword, hv⟩
          · rw [List.map_cons, hmap]
            exact Option.some.inj hw
        | b :: blanks =>
          have hb := U.isWord_of_isSpace b (hblanks b List.mem_cons_self)
          exact absurd (hb.symm.trans hnext) Bool.noConfusion
      · have hnext := Bool.eq_false_of_not_eq_true hnext
        rw [items_word_end hword hnext] at h
        obtain ⟨hw, rfl⟩ := List.cons.inj h
        exact ⟨[], [c], text, rfl, by simp, List.cons_ne_nil c [], by simpa using hword,
          Option.some.inj hw, hnext, rfl⟩
    · have hword := Bool.eq_false_of_not_eq_true hword
      by_cases hspace : isSpace c = true
      · rw [items_space hspace] at h
        obtain ⟨blanks, v, rest, rfl, hblanks, hv⟩ := exists_word h
        exact ⟨c :: blanks, v, rest, rfl, List.forall_mem_cons.mpr ⟨hspace, hblanks⟩, hv⟩
      · rw [items_other hword (Bool.eq_false_of_not_eq_true hspace)] at h
        exact absurd (List.cons.inj h).1 (by simp)

end Words

/-! ## Phrases -/

/-- The word that `str x` matches. -/
def wordOf (x : String) : Item :=
  some (x.toList.map ignoreCase)

/-- `x` consists of word characters. -/
structure IsWord (x : String) : Prop where
  ne_nil : x.toList ≠ []
  isWord : ∀ c ∈ x.toList, U.isWord c = true

theorem isWord_of_ascii {x : String} (hne : x.toList ≠ [])
    (h : x.toList.all (fun c => decide (c.toNat < 128) && c.isAlphanum) = true) : IsWord U x := by
  refine ⟨hne, fun c hc => ?_⟩
  obtain ⟨hascii, halnum⟩ := Bool.and_eq_true _ _ ▸ List.all_eq_true.mp h c hc
  rw [U.isWord_ascii c (of_decide_eq_true hascii), halnum]
  rfl

section Phrases

variable {U} {x y : String} {p q : Place Char}

theorem IsWord.of_map_eq (hx : IsWord U x) {u : List Char}
    (hu : u.map ignoreCase = x.toList.map ignoreCase) :
    u ≠ [] ∧ ∀ a ∈ u, U.isWord a = true := by
  constructor
  · intro hnil
    rw [hnil] at hu
    exact hx.ne_nil (List.map_eq_nil_iff.mp hu.symm)
  · intro a ha
    have hmem : ignoreCase a ∈ x.toList.map ignoreCase := hu ▸ List.mem_map_of_mem ha
    obtain ⟨c, hc, hca⟩ := List.mem_map.mp hmem
    rw [← U.isWord_ignoreCase, ← hca, U.isWord_ignoreCase]
    exact hx.isWord c hc

theorem mem_ends_phrase :
    q ∈ ends (phrase U x y) p ↔ atBoundary U.isWord p = true ∧
      (∃ u blanks v, u.map ignoreCase = x.toList.map ignoreCase ∧ blanks ≠ [] ∧
        (∀ a ∈ blanks, isSpace a = true) ∧ v.map ignoreCase = y.toList.map ignoreCase ∧
        Spans p (u ++ (blanks ++ v)) q) ∧
      atBoundary U.isWord q = true := by
  rw [phrase, mem_ends_bounded]
  refine and_congr_right fun _ => and_congr_left fun _ => ?_
  simp only [cat, mem_ends_seq, mem_ends_str, mem_ends_plus_space]
  constructor
  · intro ⟨m, ⟨u, hu, hpm⟩, n, ⟨blanks, hne, hblanks, hmn⟩, v, hv, hnq⟩
    exact ⟨u, blanks, v, hu, hne, hblanks, hv, hpm.trans (hmn.trans hnq)⟩
  · intro ⟨u, blanks, v, hu, hne, hblanks, hv, hspans⟩
    obtain ⟨m, hpm, hmq⟩ := hspans.split
    obtain ⟨n, hmn, hnq⟩ := hmq.split
    exact ⟨m, ⟨u, hu, hpm⟩, n, ⟨blanks, hne, hblanks, hmn⟩, v, hv, hnq⟩

theorem atBoundary_iff_of_startsWord (h : startsWord U p.rest = true) :
    atBoundary U.isWord p = true ↔ p.before.head?.any U.isWord = false := by
  have hrest : p.rest.head?.any U.isWord = true := h
  rw [atBoundary, hrest]
  simp

theorem atBoundary_iff_of_endsWord (h : p.before.head?.any U.isWord = true) :
    atBoundary U.isWord p = true ↔ startsWord U p.rest = false := by
  rw [atBoundary, h, startsWord]
  simp

theorem startsWord_append {w text : List Char} (hne : w ≠ []) (hw : ∀ a ∈ w, U.isWord a = true) :
    startsWord U (w ++ text) = true := by
  obtain ⟨a, w, rfl⟩ := List.exists_cons_of_ne_nil hne
  exact hw a List.mem_cons_self

theorem startsWord_blanks {w text : List Char} (hne : w ≠ [])
    (hw : ∀ a ∈ w, isSpace a = true) : startsWord U (w ++ text) = false := by
  obtain ⟨a, w, rfl⟩ := List.exists_cons_of_ne_nil hne
  exact U.isWord_of_isSpace a (hw a List.mem_cons_self)

/-- A place behind word characters. -/
theorem endsWord_of_spans {w v : List Char} (h : Spans p (w ++ v) q) (hne : v ≠ [])
    (hv : ∀ a ∈ v, U.isWord a = true) : q.before.head?.any U.isWord = true := by
  obtain ⟨m, _, hmq⟩ := h.split
  obtain ⟨a, ha, hhead⟩ := hmq.before_head?_mem hne
  rw [hhead]
  exact hv a ha

/-- A match of the phrase is its two words. -/
theorem items_of_mem_ends (hx : IsWord U x) (hy : IsWord U y) (h : q ∈ ends (phrase U x y) p) :
    p.before.head?.any U.isWord = false ∧ startsWord U p.rest = true ∧
      startsWord U q.rest = false ∧ items U p.rest = wordOf x :: wordOf y :: items U q.rest := by
  obtain ⟨hp, ⟨u, blanks, v, hu, hne, hblanks, hv, hspans⟩, hq⟩ := mem_ends_phrase.mp h
  obtain ⟨hune, huword⟩ := hx.of_map_eq hu
  obtain ⟨hvne, hvword⟩ := hy.of_map_eq hv
  have hrest : p.rest = u ++ (blanks ++ (v ++ q.rest)) := by
    rw [hspans.rest, List.append_assoc, List.append_assoc]
  have hstarts : startsWord U p.rest = true := by
    rw [hrest]
    exact startsWord_append hune huword
  rw [← List.append_assoc] at hspans
  have hbehind := (atBoundary_iff_of_endsWord (endsWord_of_spans hspans hvne hvword)).mp hq
  refine ⟨(atBoundary_iff_of_startsWord hstarts).mp hp, hstarts, hbehind, ?_⟩
  rw [hrest, items_run hune huword (startsWord_blanks hne hblanks), items_spaces hblanks,
    items_run hvne hvword hbehind, hu, hv]
  rfl

/-- Where the two words begin, the phrase matches. -/
theorem ends_ne_nil_of_items (hbefore : p.before.head?.any U.isWord = false)
    (hstarts : startsWord U p.rest = true) {l : List Item}
    (hitems : items U p.rest = wordOf x :: wordOf y :: l) : ends (phrase U x y) p ≠ [] := by
  obtain ⟨blanks, u, rest, hrest, hblanks, hune, huword, hu, hgap, hnext⟩ := exists_word hitems
  obtain rfl : blanks = [] := by
    by_contra hne
    rw [hrest, startsWord_blanks hne hblanks] at hstarts
    exact Bool.noConfusion hstarts
  obtain ⟨blanks, v, rest', rfl, hblanks, hvne, hvword, hv, hend, _⟩ := exists_word hnext
  have hne : blanks ≠ [] := by
    intro hnil
    subst hnil
    rw [List.nil_append, startsWord_append hvne hvword] at hgap
    exact Bool.noConfusion hgap
  obtain ⟨q, hspans, rfl⟩ : ∃ q, Spans p (u ++ (blanks ++ v)) q ∧ q.rest = rest' :=
    ⟨⟨(u ++ (blanks ++ v)).reverse ++ p.before, rest'⟩, ⟨by rw [hrest]; simp, rfl⟩, rfl⟩
  have hsplit : Spans p (u ++ blanks ++ v) q := by
    rw [List.append_assoc]
    exact hspans
  have hright := (atBoundary_iff_of_endsWord (endsWord_of_spans hsplit hvne hvword)).mpr hend
  have hleft := (atBoundary_iff_of_startsWord hstarts).mpr hbefore
  exact List.ne_nil_of_mem
    (mem_ends_phrase.mpr ⟨hleft, ⟨u, blanks, v, hu, hne, hblanks, hv, hspans⟩, hright⟩)

end Phrases

/-! ## Removing a phrase -/

section Removal

variable {U} {x y : String} {r : Pattern Char}

theorem unpair_cons_of {a b c : Item} {l : List Item} (h : a = b → ∀ l', l ≠ c :: l') :
    unpair b c (a :: l) = a :: unpair b c l := by
  match l with
  | [] => rfl
  | d :: l =>
    refine unpair_cons l fun hpair => ?_
    obtain ⟨rfl, rfl⟩ := hpair
    exact h rfl l rfl

variable (U x y) in
/-- `out` is `rest` without the pairs. In the middle of a word, what is left of it comes first and
    is no word of its own. -/
structure Deletes (before rest out : List Char) : Prop where
  starts : before.head?.any U.isWord = true → startsWord U out = startsWord U rest
  inside : before.head?.any U.isWord = true → startsWord U rest = true →
    ∃ w l, items U rest = some w :: l ∧
      items U out = some w :: unpair (wordOf x) (wordOf y) l
  outside : before.head?.any U.isWord = false ∨ startsWord U rest = false →
    items U out = unpair (wordOf x) (wordOf y) (items U rest)

theorem Deletes.keep {before rest out : List Char} {c : Char}
    (hnone : ends (phrase U x y) ⟨before, c :: rest⟩ = [])
    (h : Deletes U x y (c :: before) rest out) :
    Deletes U x y before (c :: rest) (c :: out) := by
  by_cases hword : U.isWord c = true
  · -- A word begins or goes on with `c`.
    have hsame : ∃ w l, items U (c :: rest) = some w :: l ∧
        items U (c :: out) = some w :: unpair (wordOf x) (wordOf y) l := by
      have hstarts := h.starts hword
      by_cases hnext : startsWord U rest = true
      · obtain ⟨w, l, hrest, hout⟩ := h.inside hword hnext
        exact ⟨_, l, items_word_more hword hnext hrest,
          items_word_more hword (hstarts.trans hnext) hout⟩
      · have hnext := Bool.eq_false_of_not_eq_true hnext
        refine ⟨_, _, items_word_end hword hnext, ?_⟩
        rw [items_word_end hword (hstarts.trans hnext), h.outside (.inr hnext)]
    obtain ⟨w, l, hrest, hout⟩ := hsame
    refine ⟨fun _ => rfl, fun _ _ => ⟨w, l, hrest, hout⟩, fun houtside => ?_⟩
    have hbefore : before.head?.any U.isWord = false := by
      rcases houtside with hbefore | hstarts
      · exact hbefore
      · exact absurd (hword.symm.trans hstarts) Bool.noConfusion
    rw [hrest, hout, unpair_cons_of]
    intro hx l' hl
    -- The phrase would begin at this word.
    rw [hx, hl] at hrest
    have hhere : ends (phrase U x y) ⟨before, c :: rest⟩ ≠ [] :=
      ends_ne_nil_of_items hbefore hword hrest
    exact hhere hnone
  · have hword := Bool.eq_false_of_not_eq_true hword
    have hout := h.outside (.inl hword)
    refine ⟨fun _ => rfl, fun _ hstarts => absurd (hword.symm.trans hstarts) Bool.noConfusion,
      fun _ => ?_⟩
    by_cases hspace : isSpace c = true
    · rw [items_space hspace, items_space hspace, hout]
    · have hspace := Bool.eq_false_of_not_eq_true hspace
      rw [items_other hword hspace, items_other hword hspace, hout, unpair_cons_of]
      intro hx
      exact absurd hx (by simp [wordOf])

theorem Deletes.drop (hx : IsWord U x) (hy : IsWord U y) {before rest behind rest' out : List Char}
    (hmatch : ⟨behind, rest'⟩ ∈ ends (phrase U x y) ⟨before, rest⟩)
    (h : Deletes U x y behind rest' out) : Deletes U x y before rest out := by
  obtain ⟨hbefore, hstarts, hbehind, hitems⟩ := items_of_mem_ends hx hy hmatch
  have hout := h.outside (.inr hbehind)
  have hno : ¬ before.head?.any U.isWord = true := by
    intro hword
    exact absurd (hword.symm.trans hbefore) Bool.noConfusion
  refine ⟨fun hword => absurd hword hno, fun hword => absurd hword hno, fun _ => ?_⟩
  have hpair : items U rest = wordOf x :: wordOf y :: items U rest' := hitems
  rw [hpair, unpair_pair, hout]

/-- **Removing the phrase deletes the adjacent pairs of its words.** -/
theorem items_sub (hr : r.regex = phrase U x y) (hx : IsWord U x) (hy : IsWord U y)
    (text : List Char) :
    items U (r.sub (fun _ => []) text) = unpair (wordOf x) (wordOf y) (items U text) := by
  have hscanned : ∀ before rest pieces, r.Scanned before rest pieces →
      Deletes U x y before rest (substitute (fun _ => []) pieces) := by
    intro before rest pieces h
    induction h with
    | done before =>
      exact ⟨fun _ => rfl, fun _ hstarts => absurd hstarts Bool.noConfusion, fun _ => rfl⟩
    | kept hnone hrest ih => exact ih.keep (hr ▸ hnone)
    | found hfirst hrest ih => exact ih.drop hx hy (hr ▸ List.mem_of_head? hfirst)
  exact (hscanned [] text _ (Pattern.scanned_scan [] text)).outside (.inl rfl)

/-- The phrase matches somewhere exactly if its words stand together. -/
theorem search_iff (hr : r.regex = phrase U x y) (hx : IsWord U x) (hy : IsWord U y)
    (text : List Char) :
    r.search text = true ↔ [wordOf x, wordOf y] <:+: items U text := by
  constructor
  · intro h
    obtain ⟨n, hn⟩ : ∃ n, ends r.regex (Place.at text n) ≠ [] := by
      by_contra hno
      have hnone (n : Nat) : ends r.regex (Place.at text n) = [] :=
        not_not.mp fun hn => hno ⟨n, hn⟩
      rw [Pattern.search_eq_false_iff.mpr fun n _ => hnone n] at h
      exact Bool.noConfusion h
    obtain ⟨q, hq⟩ := List.exists_mem_of_ne_nil _ hn
    obtain ⟨hbefore, _, _, hitems⟩ := items_of_mem_ends hx hy (hr ▸ hq)
    have hread : items U (text.take n ++ text.drop n) =
        items U (text.take n) ++ items U (text.drop n) := by
      refine items_append fun hlast => ?_
      rw [← List.head?_reverse] at hlast
      exact absurd (hlast.symm.trans hbefore) Bool.noConfusion
    have hbehind : items U (text.drop n) = [wordOf x, wordOf y] ++ items U q.rest := hitems
    rw [List.take_append_drop, hbehind] at hread
    exact ⟨items U (text.take n), items U q.rest, by rw [hread, List.append_assoc]⟩
  · intro h
    by_contra hno
    have hfalse := Bool.eq_false_of_not_eq_true hno
    have hsame := items_sub hr hx hy text
    rw [Pattern.sub_eq_self hfalse] at hsame
    exact not_infix_of_unpair_eq hsame.symm h

end Removal

end AgentCorp.Security.Sanitizer
