/-
  `json.loads`, as the scanner of the standard library reads a text.

  A number with a fraction or an exponent, and the constants `NaN` and `Infinity`, are kept as
  they are written. A lone surrogate, which a `String` cannot hold, is read as U+FFFD. The
  limits of the interpreter are a parameter: containers nest to a depth, and an integer has at
  most so many digits.

  * `Parsed`: what a scanner has read, and the rest, which is shorter than the text.
  * `loads_isDict`: a text is that of an object if it starts with a brace.
-/
import AgentCorp.Lib.Proc
import AgentCorp.Python.Values

namespace AgentCorp.Python

/-- What `json.loads` returns. -/
inductive Decoded where
  | null
  | bool (b : Bool)
  | int (i : Int)
  | float (literal : String)
  | str (s : String)
  | list (items : List Decoded)
  | dict (entries : List (String × Decoded))

/-- What it raises: a `JSONDecodeError`, the `ValueError` of an integer that is too long, or a
    `RecursionError`. -/
inductive LoadsError where
  | decode | value | recursion
  deriving DecidableEq, Repr

structure LoadsLimits where
  depth : Nat
  digits : Nat
  depth_pos : 0 < depth

namespace JsonDecoder

/-- What a scanner has read from the start of `text`. -/
structure Parsed (α : Type) (text : List Char) where
  value : α
  rest : List Char
  shorter : rest.length < text.length

abbrev Scanner (α : Type) := (text : List Char) → Except LoadsError (Parsed α text)

/-- The blanks between tokens. -/
def skipBlanks (text : List Char) : List Char :=
  text.dropWhile fun c => c = ' ' ∨ c = '\t' ∨ c = '\n' ∨ c = '\r'

theorem length_skipBlanks_le (text : List Char) : (skipBlanks text).length ≤ text.length :=
  (List.dropWhile_suffix _).length_le

section
variable {α β : Type}

/-- A scanner after blanks. -/
def afterBlanks (scan : Scanner α) : Scanner α := fun text => do
  let parsed ← scan (skipBlanks text)
  return ⟨parsed.value, parsed.rest,
    Nat.lt_of_lt_of_le parsed.shorter (length_skipBlanks_le text)⟩

/-- The first scanner, and the second one on what the first has left. -/
def followedBy (first : Scanner α) (second : Scanner β) : Scanner (α × β) := fun text => do
  let a ← first text
  let b ← second a.rest
  return ⟨(a.value, b.value), b.rest, Nat.lt_trans b.shorter a.shorter⟩

def mapped (f : α → β) (scan : Scanner α) : Scanner β := fun text => do
  let parsed ← scan text
  return ⟨f parsed.value, parsed.rest, parsed.shorter⟩

end

/-- One given character. -/
def expect (c : Char) : Scanner Unit
  | d :: rest => if d = c then .ok ⟨(), rest, Nat.lt_succ_self _⟩ else .error .decode
  | [] => .error .decode

def anyChar : Scanner Char
  | c :: rest => .ok ⟨c, rest, Nat.lt_succ_self _⟩
  | [] => .error .decode

/-- What follows a given character. -/
def after {α : Type} (c : Char) (scan : Scanner α) : Scanner α :=
  mapped Prod.snd (followedBy (expect c) scan)

/-! ## Strings -/

def hexValue (c : Char) : Option Nat :=
  if c.isDigit then some (c.toNat - 48)
  else if 'a' ≤ c ∧ c ≤ 'f' then some (c.toNat - 87)
  else if 'A' ≤ c ∧ c ≤ 'F' then some (c.toNat - 55)
  else none

/-- Four hexadecimal digits. -/
def hex4 (a b c d : Char) : Option Nat := do
  return ((← hexValue a) * 16 + (← hexValue b)) * 256 + ((← hexValue c) * 16 + (← hexValue d))

def simpleEscape : Char → Option Nat
  | '"' => some 34
  | '\\' => some 92
  | '/' => some 47
  | 'b' => some 8
  | 'f' => some 12
  | 'n' => some 10
  | 'r' => some 13
  | 't' => some 9
  | _ => none

/-- One more code point in front of what a scan of a string has read. -/
def consUnit (unit : Nat) (scanned : Except LoadsError (List Nat × List Char)) :
    Except LoadsError (List Nat × List Char) :=
  scanned.map fun (units, rest) => (unit :: units, rest)

/-- The code points of a string literal after its opening quote, surrogates not yet joined. -/
def scanUnits : List Char → Except LoadsError (List Nat × List Char)
  | [] => .error .decode
  | '"' :: rest => .ok ([], rest)
  | '\\' :: 'u' :: a :: b :: c :: d :: rest =>
      match hex4 a b c d with
      | none => .error .decode
      | some unit => consUnit unit (scanUnits rest)
  | '\\' :: c :: rest =>
      match simpleEscape c with
      | none => .error .decode
      | some unit => consUnit unit (scanUnits rest)
  | c :: rest =>
      if c = '\\' ∨ c.toNat < 32 then .error .decode
      else consUnit c.toNat (scanUnits rest)

/-- A high and a low surrogate are one character. -/
def joinSurrogates : List Nat → List Char
  | high :: low :: units =>
      if 0xD800 ≤ high ∧ high < 0xDC00 ∧ 0xDC00 ≤ low ∧ low < 0xE000 then
        Char.ofNat (0x10000 + (high - 0xD800) * 0x400 + (low - 0xDC00)) :: joinSurrogates units
      else
        (if high.isValidChar then Char.ofNat high else '\uFFFD') :: joinSurrogates (low :: units)
  | [unit] => [if unit.isValidChar then Char.ofNat unit else '\uFFFD']
  | [] => []

theorem consUnit_ok {unit : Nat} {scanned : Except LoadsError (List Nat × List Char)}
    {units : List Nat} {rest : List Char} (h : consUnit unit scanned = .ok (units, rest)) :
    ∃ units', scanned = .ok (units', rest) := by
  cases scanned with
  | error e => cases h
  | ok parsed =>
      obtain ⟨units', rest'⟩ := parsed
      obtain ⟨-, rfl⟩ := Prod.mk.inj (Except.ok.inj h)
      exact ⟨units', rfl⟩

theorem scanUnits_shorter {text : List Char} {units : List Nat} {rest : List Char}
    (h : scanUnits text = .ok (units, rest)) : rest.length < text.length := by
  fun_induction scanUnits text generalizing units with
  | case1 => cases h
  | case2 rest' =>
      obtain ⟨-, rfl⟩ := Prod.mk.inj (Except.ok.inj h)
      exact Nat.lt_succ_self _
  | case3 | case5 | case7 => cases h
  | case4 a b c d rest' unit hhex ih =>
      obtain ⟨units', hscan⟩ := consUnit_ok h
      have hlt := ih hscan
      simp only [List.length_cons]
      omega
  | case6 c rest' hu unit hescape ih =>
      obtain ⟨units', hscan⟩ := consUnit_ok h
      have hlt := ih hscan
      simp only [List.length_cons]
      omega
  | case8 c rest' hquote hu hescape hc ih =>
      obtain ⟨units', hscan⟩ := consUnit_ok h
      have hlt := ih hscan
      simp only [List.length_cons]
      omega

/-- A string literal after its opening quote. -/
def scanString : Scanner String := fun text =>
  match h : scanUnits text with
  | .error e => .error e
  | .ok (units, rest) => .ok ⟨String.ofList (joinSurrogates units), rest, scanUnits_shorter h⟩

/-! ## Numbers and constants -/

def signPart : List Char → List Char
  | '-' :: _ => ['-']
  | _ => []

/-- A zero, or all the digits. -/
def wholePart : List Char → List Char
  | '0' :: _ => ['0']
  | text => text.takeWhile Char.isDigit

def fractionPart : List Char → List Char
  | '.' :: text =>
      let digits := text.takeWhile Char.isDigit
      if digits = [] then [] else '.' :: digits
  | _ => []

def exponentSign : List Char → List Char
  | '-' :: _ => ['-']
  | '+' :: _ => ['+']
  | _ => []

def exponentPart : List Char → List Char
  | c :: text =>
      let sign := exponentSign text
      let digits := (text.drop sign.length).takeWhile Char.isDigit
      if (c = 'e' ∨ c = 'E') ∧ digits ≠ [] then c :: sign ++ digits else []
  | [] => []

/-- The integer that a sign and digits stand for. -/
def intValue (sign digits : List Char) : Int :=
  let n : Nat := digits.foldl (fun n c => 10 * n + (c.toNat - 48)) 0
  if sign = [] then n else -n

theorem literal_ne_nil {sign whole fraction exponent : List Char} (h : whole ≠ []) :
    sign ++ whole ++ fraction ++ exponent ≠ [] := by
  simp [h]

theorem length_drop_lt {text part : List Char} (htext : text ≠ []) (hpart : part ≠ []) :
    (text.drop part.length).length < text.length := by
  have hpos := List.length_pos_iff.mpr htext
  have hpos' := List.length_pos_iff.mpr hpart
  rw [List.length_drop]
  omega

/-- `_match_number`. -/
def scanNumber (limits : LoadsLimits) : Scanner Decoded := fun text =>
  let sign := signPart text
  let afterSign := text.drop sign.length
  let whole := wholePart afterSign
  let fraction := fractionPart (afterSign.drop whole.length)
  let exponent := exponentPart (afterSign.drop (whole ++ fraction).length)
  let literal := sign ++ whole ++ fraction ++ exponent
  if h : text ≠ [] ∧ whole ≠ [] then
    let rest := text.drop literal.length
    let shorter := length_drop_lt h.1 (literal_ne_nil h.2)
    if fraction ++ exponent ≠ [] then .ok ⟨.float (String.ofList literal), rest, shorter⟩
    else if limits.digits < whole.length then .error .value
    else .ok ⟨.int (intValue sign whole), rest, shorter⟩
  else .error .decode

/-- The constants: the first character, the others, and the value. -/
def constants : List (Char × List Char × Decoded) :=
  [('n', ['u', 'l', 'l'], .null), ('t', ['r', 'u', 'e'], .bool true),
    ('f', ['a', 'l', 's', 'e'], .bool false), ('N', ['a', 'N'], .float "NaN"),
    ('I', ['n', 'f', 'i', 'n', 'i', 't', 'y'], .float "Infinity"),
    ('-', ['I', 'n', 'f', 'i', 'n', 'i', 't', 'y'], .float "-Infinity")]

theorem length_drop_lt_cons (c : Char) (text : List Char) (n : Nat) :
    (text.drop n).length < (c :: text).length := by
  rw [List.length_drop, List.length_cons]
  omega

/-- A constant if one stands here, or a number. -/
def scanLiteral (limits : LoadsLimits) : Scanner Decoded
  | [] => .error .decode
  | c :: text =>
      match constants.find? fun constant => constant.1 = c ∧ constant.2.1.isPrefixOf text with
      | some (_, others, value) =>
          .ok ⟨value, text.drop others.length, length_drop_lt_cons c text _⟩
      | none => scanNumber limits (c :: text)

/-! ## Containers -/

/-- One or more items with commas between them, up to the closing bracket. Every item leaves
    a shorter text, so that `fuel` lasts. -/
def scanItems {α : Type} (item : Scanner α) (close : Char) :
    (fuel : Nat) → (text : List Char) → text.length < fuel →
      Except LoadsError (Parsed (List α) text)
  | 0, _, h => absurd h (Nat.not_lt_zero _)
  | fuel + 1, text, h => do
      let first ← item text
      let delimiter ← afterBlanks anyChar first.rest
      have hlt := Nat.lt_trans delimiter.shorter first.shorter
      if delimiter.value = close then return ⟨[first.value], delimiter.rest, hlt⟩
      else if delimiter.value = ',' then
        let others ← scanItems item close fuel delimiter.rest
          (Nat.lt_of_lt_of_le hlt (Nat.le_of_lt_succ h))
        return ⟨first.value :: others.value, others.rest, Nat.lt_trans others.shorter hlt⟩
      else .error .decode

/-- What stands between two brackets. -/
def scanBody {α : Type} (item : Scanner α) (close : Char) : Scanner (List α) := fun text =>
  match afterBlanks (expect close) text with
  | .ok closing => .ok ⟨[], closing.rest, closing.shorter⟩
  | .error _ => scanItems (afterBlanks item) close (text.length + 1) text (Nat.lt_succ_self _)

/-- A key and its value. -/
def scanMember (value : Scanner Decoded) : Scanner (String × Decoded) :=
  followedBy (after '"' scanString) (afterBlanks (after ':' (afterBlanks value)))

/-- One value. `inner` scans the values in a container, unless that is too deep. -/
def scanOnce (limits : LoadsLimits) (inner : Option (Scanner Decoded)) : Scanner Decoded :=
  fun text =>
    match text.head?, inner with
    | some '"', _ => mapped .str (after '"' scanString) text
    | some '{', some value =>
        mapped (fun members => .dict (Dict.merge [] members))
          (after '{' (scanBody (scanMember value) '}')) text
    | some '[', some value => mapped .list (after '[' (scanBody value ']')) text
    | some '{', none => .error .recursion
    | some '[', none => .error .recursion
    | _, _ => scanLiteral limits text

def scanValue (limits : LoadsLimits) : (depth : Nat) → Scanner Decoded
  | 0 => scanOnce limits none
  | depth + 1 => scanOnce limits (some (scanValue limits depth))

end JsonDecoder

open JsonDecoder

/-- `json.loads`. -/
def loads (limits : LoadsLimits) (text : String) : Except LoadsError Decoded :=
  if text.toList.head? = some '\uFEFF' then .error .decode
  else do
    let parsed ← afterBlanks (scanValue limits limits.depth) text.toList
    if skipBlanks parsed.rest = [] then .ok parsed.value else .error .decode

/-! ## Which texts are objects -/

/-- The value is a dictionary. -/
def Decoded.isDict : Decoded → Bool
  | .dict _ => true
  | _ => false

namespace JsonDecoder

theorem mapped_value {α β : Type} {f : α → β} {scan : Scanner α} {text : List Char}
    {parsed : Parsed β text} (h : mapped f scan text = .ok parsed) :
    ∃ value, parsed.value = f value := by
  obtain ⟨parsed', -, h⟩ := Proc.bind_ok h
  exact ⟨parsed'.value, congrArg Parsed.value (Except.ok.inj h).symm⟩

theorem isDict_scanNumber {limits : LoadsLimits} {text : List Char} {parsed : Parsed Decoded text}
    (h : scanNumber limits text = .ok parsed) : parsed.value.isDict = false := by
  simp only [scanNumber] at h
  split_ifs at h with htext hfloat hdigits
  · exact congrArg (Decoded.isDict ∘ Parsed.value) (Except.ok.inj h).symm
  · exact congrArg (Decoded.isDict ∘ Parsed.value) (Except.ok.inj h).symm

theorem isDict_constants : ∀ constant ∈ constants, constant.2.2.isDict = false := by
  simp [constants, Decoded.isDict]

theorem isDict_scanLiteral {limits : LoadsLimits} {text : List Char}
    {parsed : Parsed Decoded text} (h : scanLiteral limits text = .ok parsed) :
    parsed.value.isDict = false := by
  cases text with
  | nil => cases h
  | cons c text =>
      simp only [scanLiteral] at h
      split at h
      · next name others value hfind =>
          have hvalue : parsed.value = value := congrArg Parsed.value (Except.ok.inj h).symm
          rw [hvalue]
          exact isDict_constants _ (List.mem_of_find?_eq_some hfind)
      · exact isDict_scanNumber h

/-- Only a brace starts an object. -/
theorem isDict_scanOnce {limits : LoadsLimits} {inner : Option (Scanner Decoded)}
    {text : List Char} {parsed : Parsed Decoded text}
    (h : scanOnce limits inner text = .ok parsed) :
    parsed.value.isDict = true ↔ text.head? = some '{' := by
  by_cases hbrace : text.head? = some '{'
  · cases inner with
    | none =>
        simp only [scanOnce, hbrace] at h
        cases h
    | some value =>
        simp only [scanOnce, hbrace] at h
        obtain ⟨members, hvalue⟩ := mapped_value h
        simp [hvalue, hbrace, Decoded.isDict]
  · have hnot : parsed.value.isDict = false := by
      unfold scanOnce at h
      split at h
      · obtain ⟨value, hvalue⟩ := mapped_value h
        exact congrArg Decoded.isDict hvalue
      · contradiction
      · obtain ⟨items, hvalue⟩ := mapped_value h
        exact congrArg Decoded.isDict hvalue
      · cases h
      · cases h
      · exact isDict_scanLiteral h
    simp [hnot, hbrace]

end JsonDecoder

theorem loads_isDict {limits : LoadsLimits} {text : String} {value : Decoded}
    (h : loads limits text = .ok value) :
    value.isDict = true ↔ (skipBlanks text.toList).head? = some '{' := by
  simp only [loads] at h
  split_ifs at h with hmark
  obtain ⟨parsed, hscan, h⟩ := Proc.bind_ok h
  split_ifs at h with hrest
  obtain ⟨parsed', hscan, heq⟩ := Proc.bind_ok hscan
  have hvalue : value = parsed'.value := by
    rw [← Except.ok.inj h, ← Except.ok.inj heq]
  rw [hvalue]
  cases hdepth : limits.depth with
  | zero =>
      rw [hdepth] at hscan
      exact isDict_scanOnce hscan
  | succ depth =>
      rw [hdepth] at hscan
      exact isDict_scanOnce hscan

theorem loads_empty (limits : LoadsLimits) : loads limits "" = .error .decode := by
  unfold loads
  cases limits.depth <;> rfl

theorem loads_braces (limits : LoadsLimits) : loads limits "{}" = .ok (.dict []) := by
  obtain ⟨depth, digits, hdepth⟩ := limits
  obtain ⟨depth', rfl⟩ := Nat.exists_eq_succ_of_ne_zero (Nat.ne_of_gt hdepth)
  rfl

end AgentCorp.Python
