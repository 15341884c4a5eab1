/-
  ISO 8601 texts with a time zone, and the instants they stand for.

  A text has a date, a time of the day down to the second, perhaps a fraction of a second, and an
  offset from UTC. The date counts in the proleptic Gregorian calendar, as `datetime` does.
-/
import Mathlib.Data.Rat.Floor

namespace AgentCorp.Python

/-- The number in a field of digits. -/
def fieldValue (digits : List Char) : Option ℕ :=
  if digits.all Char.isDigit then
    some (digits.foldl (fun value digit => 10 * value + (digit.toNat - '0'.toNat)) 0)
  else none

def isLeapYear (year : ℕ) : Bool :=
  year % 4 = 0 && (year % 100 ≠ 0 || year % 400 = 0)

def daysInMonth (year month : ℕ) : ℕ :=
  if month = 2 then (if isLeapYear year then 29 else 28)
  else if month ∈ [4, 6, 9, 11] then 30
  else 31

/-- `date.toordinal()`: the first of January of the year 1 is day 1. -/
def ordinal (year month day : ℕ) : ℕ :=
  (year - 1) * 365 + (year - 1) / 4 - (year - 1) / 100 + (year - 1) / 400 +
    ((List.range (month - 1)).map fun m => daysInMonth year (m + 1)).sum + day

/-- The offset from UTC at the end of a text, in seconds. -/
def offsetSeconds : List Char → Option ℤ
  | ['Z'] => some 0
  | [sign, h₁, h₂, ':', m₁, m₂] => do
      let hours ← fieldValue [h₁, h₂]
      let minutes ← fieldValue [m₁, m₂]
      if sign = '+' then return (hours * 3600 + minutes * 60 : ℕ)
      else if sign = '-' then return -(hours * 3600 + minutes * 60 : ℕ)
      else none
  | _ => none

/-- The fraction of a second, and what follows it. -/
def secondsFraction : List Char → Option (ℚ × List Char)
  | '.' :: rest => do
      let digits := rest.takeWhile Char.isDigit
      let value ← fieldValue digits
      if digits = [] then none
      else return (value / 10 ^ digits.length, rest.dropWhile Char.isDigit)
  | rest => some (0, rest)

/-- The instant of an ISO 8601 text with a time zone, in seconds. -/
def isoInstant (text : String) : Option ℚ :=
  match text.toList with
  | y₁ :: y₂ :: y₃ :: y₄ :: '-' :: o₁ :: o₂ :: '-' :: d₁ :: d₂ :: 'T' :: h₁ :: h₂ :: ':' :: m₁ ::
      m₂ :: ':' :: s₁ :: s₂ :: rest => do
      let year ← fieldValue [y₁, y₂, y₃, y₄]
      let month ← fieldValue [o₁, o₂]
      let day ← fieldValue [d₁, d₂]
      let hour ← fieldValue [h₁, h₂]
      let minute ← fieldValue [m₁, m₂]
      let second ← fieldValue [s₁, s₂]
      let (fraction, zone) ← secondsFraction rest
      let offset ← offsetSeconds zone
      if 1 ≤ year ∧ 1 ≤ month ∧ month ≤ 12 ∧ 1 ≤ day ∧ day ≤ daysInMonth year month ∧
          hour < 24 ∧ minute < 60 ∧ second < 60 then
        return (ordinal year month day * 86400 + hour * 3600 + minute * 60 + second : ℕ) +
          fraction - offset
      else none
  | _ => none

end AgentCorp.Python
