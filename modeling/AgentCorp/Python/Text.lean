/-
  Python strings: whitespace, `split`, `lower`, `upper` and `in`.

  `str.lower` needs the Unicode case tables, so it is a parameter of the model, a `Lower`:
  any function on strings that agrees with ASCII lower-casing on ASCII strings. Every
  keyword the source searches for is ASCII. `str.upper` is an `Upper`, likewise.
-/
import Mathlib.Data.List.Basic
import Mathlib.Data.List.Infix

namespace AgentCorp.Python

/-- `c.isspace()` for one character, also the class `\s` of `re`. -/
def isSpace (c : Char) : Bool :=
  let n := c.toNat
  (9 ≤ n && n ≤ 13) || (28 ≤ n && n ≤ 32) || n == 0x85 || n == 0xa0 || n == 0x1680 ||
    (0x2000 ≤ n && n ≤ 0x200a) || n == 0x2028 || n == 0x2029 || n == 0x202f || n == 0x205f ||
    n == 0x3000

/-- `text.split()`: the maximal runs of non-whitespace characters. -/
def split (text : String) : List String :=
  ((text.toList.splitOnP isSpace).filter (· ≠ [])).map String.ofList

/-- Two numbers with the same decimal digits are equal. -/
theorem toString_nat_inj {m n : Nat} (h : (toString m).toList = (toString n).toList) : m = n := by
  have hdigits : Nat.toDigits 10 m = Nat.toDigits 10 n := by
    simpa only [Nat.toList_repr, toString] using h
  rw [← Nat.ofDigitChars_ten_toDigits (n := m), hdigits, Nat.ofDigitChars_ten_toDigits]

/-- `text.strip()`. -/
def strip (text : List Char) : List Char :=
  ((text.dropWhile isSpace).reverse.dropWhile isSpace).reverse

/-- `re.sub(r"\s+", " ", text)`. -/
def squeeze : List Char → List Char
  | [] => []
  | c :: cs =>
      if isSpace c then
        match cs with
        | d :: _ => if isSpace d then squeeze cs else ' ' :: squeeze cs
        | [] => [' ']
      else c :: squeeze cs

/-- `needle in text`. -/
def contains (text needle : String) : Bool :=
  decide (needle.toList <:+: text.toList)

/-- `text.isascii()`. -/
def isAscii (text : String) : Bool :=
  text.toList.all fun c => c.toNat < 128

/-- ASCII lower-casing. -/
def asciiLower (text : String) : String :=
  String.ofList (text.toList.map Char.toLower)

/-- `str.lower`, which agrees with ASCII lower-casing on ASCII strings. -/
structure Lower where
  lower : String → String
  ascii : ∀ text : String, isAscii text → lower text = asciiLower text

/-- Lower-casing that leaves the characters outside ASCII alone. -/
def Lower.asciiOnly : Lower where
  lower := asciiLower
  ascii := fun _ _ => rfl

/-- ASCII upper-casing. -/
def asciiUpper (text : String) : String :=
  String.ofList (text.toList.map Char.toUpper)

/-- `str.upper`, which agrees with ASCII upper-casing on ASCII strings. -/
structure Upper where
  upper : String → String
  ascii : ∀ text : String, isAscii text → upper text = asciiUpper text

/-- Upper-casing that leaves the characters outside ASCII alone. -/
def Upper.asciiOnly : Upper where
  upper := asciiUpper
  ascii := fun _ _ => rfl

/-- Lower-casing twice is lower-casing once. -/
theorem toLower_toLower (c : Char) : c.toLower.toLower = c.toLower := by
  have hA : 'A'.val.toNat = 65 := rfl
  have hZ : 'Z'.val.toNat = 90 := rfl
  have hshift : ('a'.val - 'A'.val).toNat = 32 := rfl
  delta Char.toLower
  by_cases hupper : c.val ≥ 'A'.val ∧ c.val ≤ 'Z'.val
  · rw [dif_pos hupper, dif_neg]
    intro hagain
    simp only [ge_iff_le, UInt32.le_iff_toNat_le, UInt32.toNat_add] at hupper hagain
    omega
  · rw [dif_neg hupper, dif_neg hupper]

theorem asciiLower_asciiLower (text : String) :
    asciiLower (asciiLower text) = asciiLower text := by
  unfold asciiLower
  rw [String.toList_ofList, List.map_map]
  congr 1
  refine List.map_congr_left fun c _ => ?_
  exact toLower_toLower c

example : split "  Plan docs\trelease now " = ["Plan", "docs", "release", "now"] := by decide

end AgentCorp.Python
