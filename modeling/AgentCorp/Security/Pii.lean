/-
  `security/pii.py`: detecting and masking personal data.

  Masking goes through seven patterns in turn, each on the text the earlier ones have left. It
  keeps the length and changes only what a pattern has found (`maskPii_getElem?_ne`).

  Is anything left to detect afterwards? A pattern without word boundaries leaves nothing behind.
  The four that ask for whole words make no new boundary for each other. The street address comes
  last and ends in the middle of a word if need be: what follows it directly then stands at a new
  word boundary. **`masksAll_iff`** says that nothing else goes wrong.
-/
import AgentCorp.Lib.Blotting
import AgentCorp.Python.Re

namespace AgentCorp.Security.Pii

open AgentCorp.Python AgentCorp.Python.Re
open Regex

variable (U : CharClasses)

/-! ## The patterns -/

def email : Pattern Char where
  regex := cat (plus (alphanumOr ['_', '.', '+', '-']))
    [lit '@', plus (alphanumOr ['-']), lit '.', plus (alphanumOr ['-', '.'])]
  consumes := rfl
  productive := rfl

def phone : Pattern Char where
  regex := cat (opt (lit '+'))
    [between (.cls fun a => U.isDigit a || isSpace a || ['-', '(', ')', '.'].contains a) 7 15,
      U.digit]
  consumes := rfl
  productive := rfl

/-- `\b…\b`. -/
def whole (body : Regex Char) (hconsumes : body.consumes = true)
    (hproductive : body.productive = true) : Pattern Char where
  regex := bounded U.isWord body
  consumes := by simp [bounded, consumes, hconsumes]
  productive := by simp [bounded, productive, hproductive]

def creditCardBody : Regex Char :=
  between (cat U.digit [opt (anyOf [' ', '-'])]) 13 16

def ssnBody : Regex Char :=
  cat (exactly U.digit 3) [lit '-', exactly U.digit 2, lit '-', exactly U.digit 4]

def ipAddressBody : Regex Char :=
  cat (exactly (cat (between U.digit 1 3) [lit '.']) 3) [between U.digit 1 3]

def dateOfBirthBody : Regex Char :=
  let separator := anyOf ['/', '-']
  alts
    (cat (between U.digit 1 2) [separator, between U.digit 1 2, separator, between U.digit 2 4])
    [cat (exactly U.digit 4) [separator, between U.digit 1 2, separator, between U.digit 1 2]]

def creditCard : Pattern Char :=
  whole U (creditCardBody U) rfl rfl

def ssn : Pattern Char :=
  whole U (ssnBody U) rfl rfl

def ipAddress : Pattern Char :=
  whole U (ipAddressBody U) rfl rfl

def dateOfBirth : Pattern Char :=
  whole U (dateOfBirthBody U) rfl rfl

/-- What follows the house number. -/
def streetBody : Regex Char :=
  cat (plus space)
    [plus (alphanumOr []), .rep (cat (plus space) [plus (alphanumOr [])]) 0 none true, plus space,
      alts (str "Street") (["St", "Avenue", "Ave", "Road", "Rd", "Boulevard", "Blvd", "Lane", "Ln",
        "Drive", "Dr", "Court", "Ct"].map str)]

def streetAddress : Pattern Char where
  regex := .seq (plus U.digit) (streetBody)
  consumes := rfl
  productive := rfl

/-- `_COMPILED`. -/
def compiled : List (String × Pattern Char) :=
  [("email", email), ("phone", phone U), ("credit_card", creditCard U), ("ssn", ssn U),
    ("ip_address", ipAddress U), ("date_of_birth", dateOfBirth U),
    ("street_address", streetAddress U)]

/-! ## The functions -/

structure Detection where
  type : String
  value : List Char
  start : String
  stop : String

def detectPii (text : List Char) : List Detection :=
  (compiled U).flatMap fun (piiType, pattern) =>
    (pattern.finditer text).map fun m =>
      { type := piiType, value := m.group, start := toString m.start, stop := toString m.stop }

/-- No type at all means every type. -/
def selected (piiTypes : Option (List String)) : List String :=
  match piiTypes with
  | some (t :: ts) => t :: ts
  | _ => (compiled U).map (·.1)

def maskPii (text : List Char) (piiTypes : Option (List String)) (maskChar : List Char) :
    List Char :=
  (compiled U).foldl
    (fun text entry =>
      if entry.1 ∈ selected U piiTypes then
        entry.2.sub (fun w => (List.replicate w.length maskChar).flatten) text
      else text)
    text

def containsPii (text : List Char) : Bool :=
  !(detectPii U text).isEmpty

/-! ## Masking as blotting out -/

def patterns : List (Pattern Char) :=
  (compiled U).map (·.2)

/-- The matches that masking replaces. -/
def replaced (text : List Char) : List (Match Char) :=
  Pattern.blottedBy '*' (patterns U) text

theorem maskPii_default (text : List Char) :
    maskPii U text none ['*'] = Pattern.blotAll '*' (patterns U) text := by
  simp [maskPii, selected, compiled, patterns, Pattern.blotAll, Pattern.blot]

theorem containsPii_eq_false_iff (text : List Char) :
    containsPii U text = false ↔
      ∀ r ∈ patterns U, ∀ n < text.length, ends r.regex (Place.at text n) = [] := by
  simp only [← Pattern.finditer_eq_nil_iff]
  simp [containsPii, detectPii, patterns]
  exact forall_comm

/-- Every type but the last. -/
def earlierTypes : List String :=
  ["email", "phone", "credit_card", "ssn", "ip_address", "date_of_birth"]

def earlierPatterns : List (Pattern Char) :=
  [email, phone U, creditCard U, ssn U, ipAddress U, dateOfBirth U]

theorem maskPii_earlier (text : List Char) :
    maskPii U text (some earlierTypes) ['*'] = Pattern.blotAll '*' (earlierPatterns U) text := by
  simp [maskPii, selected, compiled, earlierTypes, earlierPatterns, Pattern.blotAll, Pattern.blot]

/-- The last step of the masking. -/
theorem maskPii_last (text : List Char) :
    maskPii U text none ['*'] =
      (streetAddress U).blot '*' (maskPii U text (some earlierTypes) ['*']) := by
  have hsplit : patterns U = earlierPatterns U ++ [streetAddress U] := rfl
  rw [maskPii_default, maskPii_earlier, hsplit, Pattern.blotAll_append]
  rfl

/-! ## What the patterns are made of -/

theorem isDigit_star : U.isDigit '*' = false :=
  U.isDigit_ascii '*' (by decide)

theorem isWord_star : U.isWord '*' = false :=
  U.isWord_ascii '*' (by decide)

/-- The four patterns of whole words. -/
def wholePatterns : List (Pattern Char) :=
  [creditCard U, ssn U, ipAddress U, dateOfBirth U]

def wholeBodies : List (Regex Char) :=
  [creditCardBody U, ssnBody U, ipAddressBody U, dateOfBirthBody U]

theorem boundaryFree_of_mem {body : Regex Char} (h : body ∈ wholeBodies U) :
    boundaryFree body = true := by
  simp only [wholeBodies, List.mem_cons, List.not_mem_nil, or_false] at h
  rcases h with rfl | rfl | rfl | rfl <;> rfl

theorem consumes_of_mem {body : Regex Char} (h : body ∈ wholeBodies U) :
    body.consumes = true := by
  simp only [wholeBodies, List.mem_cons, List.not_mem_nil, or_false] at h
  rcases h with rfl | rfl | rfl | rfl <;> rfl

theorem avoids_of_mem {body : Regex Char} (h : body ∈ wholeBodies U) :
    avoids '*' body = true := by
  have hlit : avoids '*' (lit '.') = true ∧ avoids '*' (lit '-') = true ∧
      avoids '*' (anyOf [' ', '-']) = true ∧ avoids '*' (anyOf ['/', '-']) = true := by
    decide
  have hdigit : avoids '*' U.digit = true := by
    simp [CharClasses.digit, avoids, isDigit_star]
  simp only [wholeBodies, List.mem_cons, List.not_mem_nil, or_false] at h
  rcases h with rfl | rfl | rfl | rfl <;>
    simp [creditCardBody, ssnBody, ipAddressBody, dateOfBirthBody, alts, cat, opt, between,
      exactly, avoids, hlit, hdigit]

theorem startsIn_of_mem {body : Regex Char} (h : body ∈ wholeBodies U) :
    StartsIn (fun a => U.isDigit a = true) body := by
  have hdigit : StartsIn (fun a => U.isDigit a = true) U.digit := startsIn_cls fun _ ha => ha
  have hsome (m n : Nat) (hm : 0 < m) :
      StartsIn (fun a => U.isDigit a = true) (between U.digit m n) :=
    startsIn_rep hm hdigit
  simp only [wholeBodies, List.mem_cons, List.not_mem_nil, or_false] at h
  rcases h with rfl | rfl | rfl | rfl
  · exact startsIn_rep (by decide) (startsIn_seq hdigit)
  · exact startsIn_seq (hsome 3 3 (by decide))
  · exact startsIn_seq (startsIn_rep (by decide) (startsIn_seq (hsome 1 3 (by decide))))
  · exact startsIn_alt (startsIn_seq (hsome 1 2 (by decide)))
      (startsIn_seq (hsome 4 4 (by decide)))

/-- A credit card number may end in a separator, the others end in a digit. -/
theorem endsIn_of_mem {body : Regex Char} (h : body ∈ wholeBodies U) :
    EndsIn (fun a => U.isDigit a = true ∨ U.isWord a = false) body := by
  have hdigit : EndsIn (fun a => U.isDigit a = true ∨ U.isWord a = false) U.digit :=
    endsIn_cls fun _ ha => .inl ha
  have hsome (m n : Nat) (hm : 0 < m) :
      EndsIn (fun a => U.isDigit a = true ∨ U.isWord a = false) (between U.digit m n) :=
    endsIn_rep hm hdigit
  have hseparator : EndsIn (fun a => U.isDigit a = true ∨ U.isWord a = false)
      (anyOf [' ', '-']) := by
    refine endsIn_cls fun a ha => .inr ?_
    have hcases : a = ' ' ∨ a = '-' := by simpa using ha
    rcases hcases with rfl | rfl
    · exact U.isWord_ascii ' ' (by decide)
    · exact U.isWord_ascii '-' (by decide)
  simp only [wholeBodies, List.mem_cons, List.not_mem_nil, or_false] at h
  rcases h with rfl | rfl | rfl | rfl
  · exact endsIn_rep (by decide) (endsIn_seq_optional hdigit hseparator)
  · exact endsIn_seq (endsIn_seq (endsIn_seq (endsIn_seq (hsome 4 4 (by decide)))))
  · exact endsIn_seq (hsome 1 3 (by decide))
  · exact endsIn_alt (endsIn_seq (endsIn_seq (endsIn_seq (endsIn_seq (hsome 2 4 (by decide))))))
      (endsIn_seq (endsIn_seq (endsIn_seq (endsIn_seq (hsome 1 2 (by decide))))))

theorem bounded_whole {body : Regex Char} (h : body ∈ wholeBodies U)
    (hconsumes : body.consumes = true) (hproductive : body.productive = true) :
    (whole U body hconsumes hproductive).Bounded U.isWord '*' body :=
  ⟨rfl, boundaryFree_of_mem U h, avoids_of_mem U h⟩

theorem exists_body_of_mem {r : Pattern Char} (h : r ∈ wholePatterns U) :
    ∃ body ∈ wholeBodies U, r.Bounded U.isWord '*' body := by
  have hbodies : wholeBodies U =
      [creditCardBody U, ssnBody U, ipAddressBody U, dateOfBirthBody U] := rfl
  simp only [wholePatterns, List.mem_cons, List.not_mem_nil, or_false] at h
  rcases h with rfl | rfl | rfl | rfl
  · exact ⟨_, by simp [hbodies], bounded_whole U (by simp [hbodies]) rfl rfl⟩
  · exact ⟨_, by simp [hbodies], bounded_whole U (by simp [hbodies]) rfl rfl⟩
  · exact ⟨_, by simp [hbodies], bounded_whole U (by simp [hbodies]) rfl rfl⟩
  · exact ⟨_, by simp [hbodies], bounded_whole U (by simp [hbodies]) rfl rfl⟩

theorem exists_pattern_of_mem {body : Regex Char} (h : body ∈ wholeBodies U) :
    ∃ r ∈ wholePatterns U, r.regex = bounded U.isWord body := by
  simp only [wholeBodies, List.mem_cons, List.not_mem_nil, or_false] at h
  rcases h with rfl | rfl | rfl | rfl
  · exact ⟨creditCard U, by simp [wholePatterns], rfl⟩
  · exact ⟨ssn U, by simp [wholePatterns], rfl⟩
  · exact ⟨ipAddress U, by simp [wholePatterns], rfl⟩
  · exact ⟨dateOfBirth U, by simp [wholePatterns], rfl⟩

theorem mem_patterns_of_mem {r : Pattern Char} (h : r ∈ wholePatterns U) : r ∈ patterns U := by
  simp only [wholePatterns, List.mem_cons, List.not_mem_nil, or_false] at h
  rcases h with rfl | rfl | rfl | rfl <;> simp [patterns, compiled]

/-- The patterns are whole words or ask for no boundary at all. -/
theorem cases_of_mem {r : Pattern Char} (h : r ∈ patterns U) :
    boundaryFree r.regex = true ∧ avoids '*' r.regex = true ∨ r ∈ wholePatterns U := by
  have hmem : r = email ∨ r = phone U ∨ r ∈ wholePatterns U ∨ r = streetAddress U := by
    simpa [patterns, compiled, wholePatterns, or_assoc] using h
  rcases hmem with rfl | rfl | hmem | rfl
  · exact .inl ⟨rfl, by decide⟩
  · refine .inl ⟨rfl, ?_⟩
    have hplus : avoids '*' (lit '+') = true := by decide
    have hspace : isSpace '*' = false := by decide
    simp [phone, cat, opt, between, CharClasses.digit, avoids, isDigit_star, hplus, hspace]
  · exact .inr hmem
  · refine .inl ⟨rfl, ?_⟩
    have hbody : avoids '*' streetBody = true := by decide
    simp [streetAddress, plus, CharClasses.digit, avoids, isDigit_star, hbody]

/-! ## Before the street addresses -/

/-- The earlier steps leave no whole word that one of them looks for. -/
theorem ends_earlier_eq_nil {r : Pattern Char} (hr : r ∈ wholePatterns U) (text : List Char)
    {n : Nat} (hn : n < (maskPii U text (some earlierTypes) ['*']).length) :
    ends r.regex (Place.at (maskPii U text (some earlierTypes) ['*']) n) = [] := by
  have hsplit : maskPii U text (some earlierTypes) ['*'] =
      Pattern.blotAll '*' (wholePatterns U) ((phone U).blot '*' (email.blot '*' text)) :=
    maskPii_earlier U text
  rw [hsplit] at hn ⊢
  have hwhole : ∀ s ∈ wholePatterns U, ∃ body, s.Bounded U.isWord '*' body := by
    intro s hs
    obtain ⟨body, _, hbounded⟩ := exists_body_of_mem U hs
    exact ⟨body, hbounded⟩
  exact Pattern.ends_blotAll_bounded_eq_nil hwhole hr hn

/-! ## The step of the street addresses -/

section StreetAddress

variable {U} {text : List Char} {i : Nat}

/-- A street address may begin one digit earlier. -/
theorem street_of_street_succ {a : Char} (ha : text[i]? = some a) (hdigit : U.isDigit a = true)
    (h : ends (streetAddress U).regex (Place.at text (i + 1)) ≠ []) :
    ends (streetAddress U).regex (Place.at text i) ≠ [] := by
  obtain ⟨q, hq⟩ := List.exists_mem_of_ne_nil _ h
  obtain ⟨m, hm, hq⟩ := mem_ends_seq.mp hq
  obtain ⟨n, _, hm⟩ := (mem_ends_rep_unbounded rfl).mp hm
  have hfirst : Place.at text (i + 1) ∈ ends U.digit (Place.at text i) :=
    mem_ends_cls.mpr ⟨a, hdigit, Spans.at_singleton ha⟩
  have hdigits : m ∈ ends (plus U.digit) (Place.at text i) :=
    (mem_ends_rep_unbounded rfl).mpr
      ⟨n + 1, Nat.le_add_left 1 n, List.mem_flatMap.mpr ⟨_, hfirst, hm⟩⟩
  exact List.ne_nil_of_mem (mem_ends_seq.mpr ⟨m, hdigits, hq⟩)

/-- No street address is found directly behind a digit that stays. -/
theorem not_finds_of_digit {a : Char} (ha : text[i]? = some a) (hdigit : U.isDigit a = true)
    (hi : ¬ (streetAddress U).Finds text i) : ¬ (streetAddress U).Finds text (i + 1) := by
  intro hfinds
  obtain ⟨m, hm, hstart⟩ := Pattern.exists_start hfinds hi
  have hmem := List.mem_of_head? (Pattern.mem_finditer hm).2.2
  rw [hstart] at hmem
  have hearlier := street_of_street_succ ha hdigit (List.ne_nil_of_mem hmem)
  have hlt : i < text.length := (List.getElem?_eq_some_iff.mp ha).1
  exact hearlier (Pattern.ends_eq_nil_of_not_finds hlt hi)

/-- Behind a character that ends a whole word and stays, a word boundary stays what it was. -/
theorem boundary_behind {a : Char} (ha : text[i]? = some a)
    (hlast : U.isDigit a = true ∨ U.isWord a = false) (hi : ¬ (streetAddress U).Finds text i)
    (hboundary : atBoundary U.isWord
      (Place.at ((streetAddress U).blot '*' text) (i + 1)) = true) :
    ¬ (streetAddress U).Finds text (i + 1) ∧
      atBoundary U.isWord (Place.at text (i + 1)) = true := by
  have hlt : i < text.length := (List.getElem?_eq_some_iff.mp ha).1
  rw [atBoundary_succ (by rw [Pattern.length_blot]; exact hlt),
    Pattern.getElem?_blot_of_not_finds hi, ha] at hboundary
  have hfree : ¬ (streetAddress U).Finds text (i + 1) := by
    rcases hlast with hdigit | hword
    · exact not_finds_of_digit ha hdigit hi
    · -- The character is no word character, and neither is what is blotted out.
      intro hfinds
      have hlater := hfinds.lt_length
      rw [Pattern.getElem?_blot, if_pos hfinds, List.getElem?_eq_getElem hlater] at hboundary
      simp [hword, isWord_star] at hboundary
  rw [Pattern.getElem?_blot_of_not_finds hfree] at hboundary
  rw [atBoundary_succ hlt, ha]
  exact ⟨hfree, hboundary⟩

end StreetAddress

/-! ## The result -/

/-- A street address of the last step is directly followed by a credit card number, a social
    security number, an IP address or a date that ends at a word boundary and stays as it is. -/
def Glued (text : List Char) : Prop :=
  let seen := maskPii U text (some earlierTypes) ['*']
  ∃ m ∈ (streetAddress U).finditer seen, ∃ body ∈ wholeBodies U, ∃ stop ≤ seen.length,
    Place.at seen stop ∈ ends body (Place.at seen m.stop) ∧
      atBoundary U.isWord (Place.at seen stop) = true ∧
      ∀ n, m.stop ≤ n → n ≤ stop → ¬ (streetAddress U).Finds seen n

structure MasksAll (text : List Char) : Prop where
  length : (maskPii U text none ['*']).length = text.length
  elsewhere : ∀ n, (maskPii U text none ['*'])[n]? ≠ text[n]? → ∃ m ∈ replaced U text, m.Covers n
  clean : containsPii U (maskPii U text none ['*']) = false

theorem length_maskPii (text : List Char) :
    (maskPii U text none ['*']).length = text.length := by
  rw [maskPii_default]
  exact (Pattern.blotted_blotAll (patterns U) text).length_eq.symm

theorem maskPii_getElem?_ne {text : List Char} {n : Nat}
    (h : (maskPii U text none ['*'])[n]? ≠ text[n]?) : ∃ m ∈ replaced U text, m.Covers n := by
  rw [maskPii_default] at h
  exact Pattern.exists_covers_of_getElem?_ne h

/-- What the last step leaves to detect directly follows a street address. -/
theorem glued_of_ends_ne_nil {r : Pattern Char} (hr : r ∈ patterns U) {text : List Char} {n : Nat}
    (hn : n < (maskPii U text none ['*']).length)
    (hne : ends r.regex (Place.at (maskPii U text none ['*']) n) ≠ []) : Glued U text := by
  have hnle := Nat.le_of_lt hn
  obtain ⟨stop, hlt, hstop, hmatch⟩ := Pattern.exists_match hnle hne
  rcases cases_of_mem U hr with ⟨hfree, havoid⟩ | hwhole
  · rw [maskPii_default] at hn hne
    exact absurd (Pattern.ends_blotAll_eq_nil hr hfree havoid hn) hne
  obtain ⟨body, hbody, hbounded⟩ := exists_body_of_mem U hwhole
  have hnone := ends_earlier_eq_nil U hwhole text (n := n)
  rw [maskPii_last] at hn hnle hstop hmatch
  unfold Glued
  generalize maskPii U text (some earlierTypes) ['*'] = seen at *
  rw [Pattern.length_blot] at hn
  rw [hbounded.regex] at hmatch hnone
  obtain ⟨hleft, hmid, hright⟩ := mem_ends_bounded.mp hmatch
  -- The match has not been blotted, so its body was there before the last step.
  have hkeep (l : Nat) (hl : n ≤ l) (hls : l < stop) : ¬ (streetAddress U).Finds seen l :=
    Pattern.not_finds_of_getElem?_ne
      (getElem?_ne_of_mem_ends hbounded.avoids hnle hstop hmid hl hls)
  have hbefore : Place.at seen stop ∈ ends body (Place.at seen n) :=
    (Pattern.blotted_blot _ '*' seen).ends hbounded.boundaryFree hbounded.avoids hnle hstop hmid
  rw [Pattern.length_blot] at hstop
  -- Neither has the word boundary behind it.
  obtain ⟨last, rfl⟩ := Nat.exists_eq_add_one_of_ne_zero (Nat.ne_of_gt (Nat.zero_lt_of_lt hlt))
  obtain ⟨a, ha, hlast⟩ := endsIn_of_mem U hbody _ _ hbefore
  rw [Place.before_at_head? hstop] at ha
  obtain ⟨hfree, hboundary⟩ := boundary_behind ha hlast (hkeep last (by omega) (by omega)) hright
  -- So the boundary in front of it is new: a street address ends there.
  have hnew : atBoundary U.isWord (Place.at seen n) = false := by
    by_contra hold
    have hwhole := mem_ends_bounded.mpr ⟨Bool.of_not_eq_false hold, hbefore, hboundary⟩
    rw [hnone hn] at hwhole
    exact List.not_mem_nil hwhole
  have hhere := hkeep n (Nat.le_refl n) hlt
  obtain ⟨m, hm, hend⟩ := Pattern.exists_stop_of_new_boundary hn hhere hleft hnew
  subst hend
  refine ⟨m, hm, body, hbody, last + 1, hstop, hbefore, hboundary, fun l hl hls => ?_⟩
  rcases Nat.eq_or_lt_of_le hls with rfl | hls
  · exact hfree
  · exact hkeep l hl hls

theorem ends_ne_nil_of_glued {text : List Char} (h : Glued U text) :
    ∃ r ∈ patterns U, ∃ n < (maskPii U text none ['*']).length,
      ends r.regex (Place.at (maskPii U text none ['*']) n) ≠ [] := by
  rw [maskPii_last]
  obtain ⟨m, hm, body, hbody, stop, hstop, hmatch, hright, hfree⟩ := h
  generalize maskPii U text (some earlierTypes) ['*'] = seen at *
  obtain ⟨r, hr, hregex⟩ := exists_pattern_of_mem U hbody
  have hlt := rest_length_lt (consumes_of_mem U hbody) hmatch
  rw [Place.rest_at_length, Place.rest_at_length] at hlt
  have hget (l : Nat) (hl : m.stop ≤ l) (hls : l ≤ stop) :
      seen[l]? = ((streetAddress U).blot '*' seen)[l]? :=
    (Pattern.getElem?_blot_of_not_finds (hfree l hl hls)).symm
  -- The body is still there.
  have hmid : Place.at ((streetAddress U).blot '*' seen) stop ∈
      ends body (Place.at ((streetAddress U).blot '*' seen) m.stop) :=
    carries_ends ((streetAddress U).length_blot '*' seen).symm body (boundaryFree_of_mem U hbody)
      m.stop stop (by omega) hstop hmatch fun l hl hls => hget l hl (Nat.le_of_lt hls)
  -- In front of it stands a character that has been blotted out.
  have hleft : atBoundary U.isWord
      (Place.at ((streetAddress U).blot '*' seen) m.stop) = true := by
    obtain ⟨a, ha, hdigit⟩ := startsIn_of_mem U hbody _ _ hmatch
    rw [Place.rest_at_head?] at ha
    have hgroup := List.length_pos_iff.mpr (Pattern.mem_finditer hm).1
    obtain ⟨k, hk⟩ := Nat.exists_eq_add_one_of_ne_zero (n := m.stop) (by
      unfold Match.stop
      omega)
    have hfinds : (streetAddress U).Finds seen k := by
      refine ⟨m, hm, ?_, ?_⟩
      · unfold Match.stop at hk
        omega
      · omega
    have hword := U.isWord_of_isDigit a hdigit
    rw [hk, atBoundary_succ (by rw [Pattern.length_blot]; omega), ← hk,
      ← hget m.stop (Nat.le_refl _) (by omega), ha, Pattern.getElem?_blot, if_pos hfinds,
      List.getElem?_eq_getElem hfinds.lt_length]
    simp [isWord_star, hword]
  have hbehind : atBoundary U.isWord
      (Place.at ((streetAddress U).blot '*' seen) stop) = true := by
    obtain ⟨k, rfl⟩ := Nat.exists_eq_add_one_of_ne_zero (n := stop) (by omega)
    rw [atBoundary_succ (by rw [Pattern.length_blot]; omega), ← hget k (by omega) (by omega),
      ← hget (k + 1) (by omega) (by omega), ← atBoundary_succ (by omega)]
    exact hright
  have hends := mem_ends_bounded.mpr ⟨hleft, hmid, hbehind⟩
  refine ⟨r, mem_patterns_of_mem U hr, m.stop, ?_, ?_⟩
  · rw [Pattern.length_blot]
    omega
  · rw [hregex]
    exact List.ne_nil_of_mem hends

/-- **Masking leaves something to detect exactly if a street address is directly followed by
    it.** -/
theorem masksAll_iff (text : List Char) : MasksAll U text ↔ ¬ Glued U text := by
  have hclean : containsPii U (maskPii U text none ['*']) = false ↔ ¬ Glued U text := by
    rw [containsPii_eq_false_iff]
    constructor
    · intro hnone hglued
      obtain ⟨r, hr, n, hn, hne⟩ := ends_ne_nil_of_glued U hglued
      exact hne (hnone r hr n hn)
    · intro hglued r hr n hn
      by_contra hne
      exact hglued (glued_of_ends_ne_nil U hr hn hne)
  constructor
  · intro h
    exact hclean.mp h.clean
  · intro h
    exact ⟨length_maskPii U text, fun _ => maskPii_getElem?_ne U, hclean.mpr h⟩

/-- The address in this text is left: `**********1.1.1.1`. -/
theorem not_masksAll_main_street : ¬ MasksAll .ofAscii "12 Main St1.1.1.1".toList := by
  intro h
  have hleft : containsPii .ofAscii
      (maskPii .ofAscii "12 Main St1.1.1.1".toList none ['*']) = true := by
    decide
  rw [h.clean] at hleft
  exact Bool.noConfusion hleft

end AgentCorp.Security.Pii
