/-
  The part of `re` the source uses, with `re.IGNORECASE`: character classes, literal text,
  repetitions and alternatives.

  `\d` and `\w` need the Unicode tables of digits and of word characters, so they are a parameter
  of the model, a `CharClasses`. Beside the ASCII letters, the letters `[a-z]` ignoring case has
  four more characters.
-/
import AgentCorp.Lib.RegexSearch
import AgentCorp.Python.Text

namespace AgentCorp.Python.Re

/-- The character that stands for `c` in a comparison with an ASCII letter ignoring case. -/
def ignoreCase (c : Char) : Char :=
  if c = '\u0130' ∨ c = '\u0131' then 'i'
  else if c = '\u017f' then 's'
  else if c = '\u212a' then 'k'
  else c.toLower

theorem of_ascii {P : Char → Prop} (h : ∀ n < 128, P (Char.ofNat n)) {c : Char}
    (hc : c.toNat < 128) : P c := by
  have hn := h c.toNat hc
  rwa [Char.ofNat_toNat] at hn

theorem not_alphanum_of_not_ascii {c : Char} (h : ¬ c.toNat < 128) :
    c.isAlphanum = false ∧ c.toLower = c := by
  have hval : c.toNat = c.val.toNat := rfl
  have hZ : 'Z'.val.toNat = 90 := rfl
  have hz : 'z'.val.toNat = 122 := rfl
  have h9 : '9'.val.toNat = 57 := rfl
  constructor
  · delta Char.isAlphanum Char.isAlpha Char.isUpper Char.isLower Char.isDigit
    simp only [ge_iff_le, UInt32.le_iff_toNat_le, Bool.or_eq_false_iff, Bool.and_eq_false_iff,
      decide_eq_false_iff_not]
    omega
  · delta Char.toLower
    rw [dif_neg]
    simp only [ge_iff_le, UInt32.le_iff_toNat_le]
    omega

/-- The letters outside ASCII that stand for one of ASCII. -/
theorem ignoreCase_cases {c : Char} (h : ¬ c.toNat < 128) :
    ignoreCase c ∈ ['i', 's', 'k'] ∨ ignoreCase c = c := by
  unfold ignoreCase
  split
  · exact .inl (by decide)
  · split
    · exact .inl (by decide)
    · split
      · exact .inl (by decide)
      · exact .inr (not_alphanum_of_not_ascii h).2

theorem ignoreCase_ignoreCase (c : Char) : ignoreCase (ignoreCase c) = ignoreCase c := by
  by_cases h : c.toNat < 128
  · exact of_ascii (P := fun c => ignoreCase (ignoreCase c) = ignoreCase c) (by decide) h
  · rcases ignoreCase_cases h with hc | hc
    · have hletter : ignoreCase c = 'i' ∨ ignoreCase c = 's' ∨ ignoreCase c = 'k' := by
        simpa using hc
      rcases hletter with hc | hc | hc <;> rw [hc] <;> decide
    · rw [hc, hc]

/-- `\d` and `\w`. -/
structure CharClasses where
  isDigit : Char → Bool
  isWord : Char → Bool
  isDigit_ascii : ∀ c : Char, c.toNat < 128 → isDigit c = c.isDigit
  isWord_ascii : ∀ c : Char, c.toNat < 128 → isWord c = (c.isAlphanum || c == '_')
  isWord_of_isDigit : ∀ c, isDigit c = true → isWord c = true
  isWord_of_isSpace : ∀ c, isSpace c = true → isWord c = false
  isWord_ignoreCase : ∀ c, isWord (ignoreCase c) = isWord c

/-- One character, ignoring case. -/
def lit (c : Char) : Regex Char :=
  .cls fun a => ignoreCase a == ignoreCase c

/-- The characters of `s` one after the other, ignoring case. -/
def str (s : String) : Regex Char :=
  s.toList.foldr (fun c r => .seq (lit c) r) .empty

/-- `[a-z0-9…]`, with the further characters `others`. -/
def alphanumOr (others : List Char) : Regex Char :=
  .cls fun a => (ignoreCase a).isAlphanum || others.contains a

def anyOf (cs : List Char) : Regex Char :=
  .cls fun a => cs.contains a

/-- `\s`. -/
def space : Regex Char :=
  .cls isSpace

/-- `r+`. -/
def plus (r : Regex Char) : Regex Char :=
  .rep r 1 none true

/-- `r?`. -/
def opt (r : Regex Char) : Regex Char :=
  .alt r .empty

/-- `r{m,n}`. -/
def between (r : Regex Char) (m n : Nat) : Regex Char :=
  .rep r m (some n) true

/-- `r{n}`. -/
def exactly (r : Regex Char) (n : Nat) : Regex Char :=
  between r n n

/-- `r|…`. -/
def alts (r : Regex Char) (rs : List (Regex Char)) : Regex Char :=
  rs.foldl .alt r

/-- A concatenation. -/
def cat (r : Regex Char) (rs : List (Regex Char)) : Regex Char :=
  match rs with
  | [] => r
  | s :: rs => .seq r (cat s rs)

/-! ## What they match -/

section Matches

open Regex

variable {p q : Place Char}

theorem mem_ends_lit {c : Char} :
    q ∈ ends (lit c) p ↔ ∃ a, ignoreCase a = ignoreCase c ∧ Spans p [a] q := by
  simp [lit, mem_ends_cls]

theorem mem_ends_str {s : String} :
    q ∈ ends (str s) p ↔ ∃ w, w.map ignoreCase = s.toList.map ignoreCase ∧ Spans p w q := by
  unfold str
  induction s.toList generalizing p with
  | nil =>
    rw [List.foldr_nil, mem_ends_empty]
    constructor
    · intro hq
      exact ⟨[], rfl, hq ▸ Spans.refl q⟩
    · intro ⟨w, hw, hspans⟩
      obtain rfl := List.map_eq_nil_iff.mp hw
      exact hspans.target (Spans.refl p)
  | cons c cs ih =>
    rw [List.foldr_cons, mem_ends_seq]
    constructor
    · intro ⟨m, hm, hq⟩
      obtain ⟨a, ha, hfirst⟩ := mem_ends_lit.mp hm
      obtain ⟨w, hw, hrest⟩ := ih.mp hq
      exact ⟨a :: w, congrArg₂ List.cons ha hw, hfirst.trans hrest⟩
    · intro ⟨w, hw, hspans⟩
      obtain ⟨a, w, rfl, ha, hw⟩ := List.map_eq_cons_iff.mp hw
      obtain ⟨m, hfirst, hrest⟩ := Spans.split (v := [a]) hspans
      exact ⟨m, mem_ends_lit.mpr ⟨a, ha, hfirst⟩, ih.mpr ⟨w, hw, hrest⟩⟩

theorem mem_ends_plus_space :
    q ∈ ends (plus space) p ↔
      ∃ w, w ≠ [] ∧ (∀ a ∈ w, isSpace a = true) ∧ Spans p w q := by
  rw [plus, mem_ends_rep_unbounded rfl]
  constructor
  · intro ⟨n, hn, hq⟩
    obtain ⟨w, hlength, hall, hspans⟩ := mem_times_cls.mp hq
    refine ⟨w, ?_, hall, hspans⟩
    intro hnil
    rw [hnil, List.length_nil] at hlength
    omega
  · intro ⟨w, hne, hall, hspans⟩
    exact ⟨w.length, List.length_pos_iff.mpr hne, mem_times_cls.mpr ⟨w, rfl, hall, hspans⟩⟩

end Matches

namespace CharClasses

variable (U : CharClasses)

/-- `\d`. -/
def digit : Regex Char :=
  .cls U.isDigit

/-- The digits and the word characters of ASCII, and the letters that stand for one of ASCII. -/
def ofAscii : CharClasses where
  isDigit := Char.isDigit
  isWord := fun c => (ignoreCase c).isAlphanum || ignoreCase c == '_'
  isDigit_ascii := fun _ _ => rfl
  isWord_ascii := fun _ h =>
    of_ascii (P := fun c => ((ignoreCase c).isAlphanum || ignoreCase c == '_') =
      (c.isAlphanum || c == '_')) (by decide) h
  isWord_of_isDigit := by
    intro c hc
    by_cases h : c.toNat < 128
    · exact of_ascii (P := fun c => c.isDigit = true →
        ((ignoreCase c).isAlphanum || ignoreCase c == '_') = true) (by decide) h hc
    · have hnot := (not_alphanum_of_not_ascii h).1
      simp [Char.isAlphanum, hc] at hnot
  isWord_of_isSpace := by
    intro c hc
    by_cases h : c.toNat < 128
    · exact of_ascii (P := fun c => isSpace c = true →
        ((ignoreCase c).isAlphanum || ignoreCase c == '_') = false) (by decide) h hc
    · have hne (d : Char) (hd : isSpace d = false) : c ≠ d := by
        intro heq
        rw [heq, hd] at hc
        exact Bool.noConfusion hc
      have hsame : ignoreCase c = c := by
        rw [ignoreCase, if_neg, if_neg (hne _ (by decide)), if_neg (hne _ (by decide)),
          (not_alphanum_of_not_ascii h).2]
        exact not_or.mpr ⟨hne _ (by decide), hne _ (by decide)⟩
      have hunder : c ≠ '_' := hne _ (by decide)
      simp [hsame, (not_alphanum_of_not_ascii h).1, hunder]
  isWord_ignoreCase := by
    intro c
    rw [ignoreCase_ignoreCase]

end CharClasses

end AgentCorp.Python.Re
