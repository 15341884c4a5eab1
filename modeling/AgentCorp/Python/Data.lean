/-
  Nested Python data, as a JSON column stores it: `str`, `==`, truth and `int`.

  A dictionary keeps insertion order, and `==` on two dictionaries does not look at it.
  `str` needs the Unicode tables of printable characters and `int` those of decimal digits;
  both are parameters of the model, a `Unicode`, which agrees with ASCII on ASCII characters.
-/
import AgentCorp.Python.Json
import AgentCorp.Python.Text

namespace AgentCorp.Python

/-! ## Characters -/

/-- `c.isprintable()` and the value of a decimal digit. -/
structure Unicode where
  isPrintable : Char → Bool
  decimal : Char → Option Nat
  isPrintable_ascii : ∀ c : Char, c.toNat < 128 →
    isPrintable c = (32 ≤ c.toNat && c.toNat < 127)
  decimal_ascii : ∀ c : Char, c.toNat < 128 →
    decimal c = if c.isDigit then some (c.toNat - 48) else none

/-- Only the characters of ASCII are printable, or digits. -/
def Unicode.asciiOnly : Unicode where
  isPrintable := fun c => 32 ≤ c.toNat && c.toNat < 127
  decimal := fun c => if c.isDigit then some (c.toNat - 48) else none
  isPrintable_ascii := fun _ _ => rfl
  decimal_ascii := fun _ _ => rfl

/-- What `str` and `int` look up. -/
structure TextTables extends FloatRepr, Unicode

/-- The lower-case hexadecimal digits of `n`, at least `width` of them. -/
def hexDigits (width n : Nat) : List Char :=
  let digits := Nat.toDigits 16 n
  List.replicate (width - digits.length) '0' ++ digits

/-- How `repr` writes one character of a string between these quotes. -/
def reprChar (U : Unicode) (quote c : Char) : List Char :=
  if c = quote ∨ c = '\\' then ['\\', c]
  else if c = '\n' then ['\\', 'n']
  else if c = '\r' then ['\\', 'r']
  else if c = '\t' then ['\\', 't']
  else if U.isPrintable c then [c]
  else if c.toNat < 0x100 then ['\\', 'x'] ++ hexDigits 2 c.toNat
  else if c.toNat < 0x10000 then ['\\', 'u'] ++ hexDigits 4 c.toNat
  else ['\\', 'U'] ++ hexDigits 8 c.toNat

/-- `repr(text)`. -/
def reprStr (U : Unicode) (text : String) : List Char :=
  let quote := if '\'' ∈ text.toList ∧ '"' ∉ text.toList then '"' else '\''
  [quote] ++ text.toList.flatMap (reprChar U quote) ++ [quote]

/-! ## Values -/

inductive Json where
  | null
  | bool (b : Bool)
  | int (i : Int)
  | float (x : Rat)
  | str (s : String)
  | list (items : List Json)
  | dict (entries : List (String × Json))
  deriving Repr

namespace Json

/-- `bool(value)`. -/
def truthy : Json → Bool
  | null => false
  | bool b => b
  | int i => i != 0
  | float x => x != 0
  | str s => s != ""
  | list items => !items.isEmpty
  | dict entries => !entries.isEmpty

/-- `a or b`. -/
def orElse (a b : Json) : Json :=
  if a.truthy then a else b

/-- `type(value).__name__`. -/
def typeName : Json → String
  | null => "NoneType"
  | bool _ => "bool"
  | int _ => "int"
  | float _ => "float"
  | str _ => "str"
  | list _ => "list"
  | dict _ => "dict"

mutual

/-- `repr(value)`. -/
def repr (T : TextTables) : Json → List Char
  | null => "None".toList
  | bool b => (if b then "True" else "False").toList
  | int i => (toString i).toList
  | float x => (T.toFloatRepr.repr x).toList
  | str s => reprStr T.toUnicode s
  | list items => ['['] ++ [',', ' '].intercalate (reprItems T items) ++ [']']
  | dict entries => ['\x7b'] ++ [',', ' '].intercalate (reprEntries T entries) ++ ['\x7d']

def reprItems (T : TextTables) : List Json → List (List Char)
  | [] => []
  | item :: items => repr T item :: reprItems T items

def reprEntries (T : TextTables) : List (String × Json) → List (List Char)
  | [] => []
  | (key, value) :: entries =>
      (reprStr T.toUnicode key ++ [':', ' '] ++ repr T value) :: reprEntries T entries

end

/-- `str(value)`: a string is its own text. -/
def text (T : TextTables) : Json → List Char
  | str s => s.toList
  | value => repr T value

/-- The number that a value is: `True == 1 == 1.0`. -/
def asNumber : Json → Option Rat
  | bool b => some (if b then 1 else 0)
  | int i => some i
  | float x => some x
  | _ => none

mutual

/-- `a == b`. -/
def eq : Json → Json → Bool
  | null, null => true
  | str s, str s' => s == s'
  | list items, list items' => eqItems items items'
  | dict entries, dict entries' =>
      entries.length == entries'.length && eqEntries entries entries'
  | a, b => a.asNumber.isSome && a.asNumber == b.asNumber

def eqItems : List Json → List Json → Bool
  | [], [] => true
  | item :: items, item' :: items' => eq item item' && eqItems items items'
  | _, _ => false

def eqEntries : List (String × Json) → List (String × Json) → Bool
  | [], _ => true
  | (key, value) :: entries, entries' =>
      (match entries'.lookup key with
        | some value' => eq value value'
        | none => false) &&
      eqEntries entries entries'

end

end Json

/-- `d.get(key)`. -/
def getJson (d : Dict Json) (key : String) : Json :=
  (d.lookup key).getD .null

/-- `d.get(key, default)`. -/
def getJsonD (d : Dict Json) (key : String) (default : Json) : Json :=
  (d.lookup key).getD default

/-- `d == e`. -/
def eqJson (d e : Dict Json) : Bool :=
  (Json.dict d).eq (.dict e)

/-- `items[:n]`. -/
def takeSlice {α : Type} (items : List α) (n : Int) : List α :=
  if n < 0 then items.take (items.length - n.natAbs) else items.take n.toNat

theorem takeSlice_subset {α : Type} (items : List α) (n : Int) :
    ∀ a ∈ takeSlice items n, a ∈ items := by
  intro a ha
  unfold takeSlice at ha
  split at ha <;> exact List.mem_of_mem_take ha

/-- `items[:n]`, for any value. -/
def sliceJson {α : Type} (items : List α) : Json → Except Exn (List α)
  | .int n => .ok (takeSlice items n)
  | .bool b => .ok (takeSlice items (if b then 1 else 0))
  | .null => .ok items
  | _ => .error (.typeError ("slice indices must be integers or None or have an __index__" ++
      " method"))

theorem sliceJson_subset {α : Type} {items slice : List α} {n : Json}
    (h : sliceJson items n = .ok slice) : ∀ a ∈ slice, a ∈ items := by
  cases n with
  | int n =>
      rw [← Except.ok.inj h]
      exact takeSlice_subset items n
  | bool b =>
      rw [← Except.ok.inj h]
      exact takeSlice_subset items _
  | null =>
      rw [← Except.ok.inj h]
      exact fun a ha => ha
  | float x => cases h
  | str text => cases h
  | list values => cases h
  | dict entries => cases h

/-- `text.strip(chars)`. -/
def stripChars (chars text : List Char) : List Char :=
  ((text.dropWhile (· ∈ chars)).reverse.dropWhile (· ∈ chars)).reverse

/-! ## int -/

/-- The digits after the first; one underscore may stand before each. -/
def digitsFrom (U : Unicode) : Nat → List Char → Option Nat
  | n, [] => some n
  | n, '_' :: c :: rest => (U.decimal c).bind fun d => digitsFrom U (10 * n + d) rest
  | n, c :: rest => (U.decimal c).bind fun d => digitsFrom U (10 * n + d) rest

/-- An unsigned literal. -/
def natLiteral (U : Unicode) : List Char → Option Nat
  | [] => none
  | c :: rest => (U.decimal c).bind fun d => digitsFrom U d rest

/-- The literal that `int(text)` reads. -/
def intLiteral (U : Unicode) (text : String) : Option Int :=
  match strip text.toList with
  | '-' :: rest => (natLiteral U rest).map fun n => -n
  | '+' :: rest => (natLiteral U rest).map fun n => n
  | rest => (natLiteral U rest).map fun n => n

/-- `int(text)`. -/
def intOfText (U : Unicode) (text : String) : Except Exn Int :=
  match intLiteral U text with
  | some i => .ok i
  | none => .error (.valueError ("invalid literal for int() with base 10: " ++
      String.ofList (reprStr U text)))

/-- `int(value)`: a float loses its fraction. -/
def Json.toInt (U : Unicode) : Json → Except Exn Int
  | bool b => .ok (if b then 1 else 0)
  | int i => .ok i
  | float x => .ok (if 0 ≤ x then ⌊x⌋ else ⌈x⌉)
  | str s => intOfText U s
  | value => .error (.typeError ("int() argument must be a string, a bytes-like object or a real" ++
      " number, not '" ++ value.typeName ++ "'"))

example : intLiteral .asciiOnly " -1_0\n" = some (-10) := by decide

end AgentCorp.Python
