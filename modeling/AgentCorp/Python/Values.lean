/-
  Python values the model reads: dictionaries with arbitrary values, exceptions, the readings
  of the clock, and `round`.

  A `PyDict` keeps insertion order, as `dict` does. `PyValue.cmp` is the comparison that
  `sorted` makes between two such values: `none` where Python raises `TypeError`.
-/
import Mathlib.Data.List.Basic
import Mathlib.Data.Rat.Floor

namespace AgentCorp.Python

/-- A value stored in a `dict[str, Any]`. `other` is an object of any further class, by its
    text and its truth value. -/
inductive PyValue where
  | none
  | bool (b : Bool)
  | int (i : Int)
  | str (s : String)
  | other (text : String) (truth : Bool)
  deriving DecidableEq, Repr

namespace PyValue

/-- `bool(value)`. -/
def truthy : PyValue → Bool
  | none => false
  | bool b => b
  | int i => i != 0
  | str s => s != ""
  | other _ truth => truth

/-- The integer a number stands for: `True == 1`. -/
def asInt : PyValue → Option Int
  | bool b => some (if b then 1 else 0)
  | int i => some i
  | _ => Option.none

/-- How `<` and `==` order two values. `none` is the `TypeError` of `<` on two values that
    are not equal and not of ordered classes. -/
def cmp (a b : PyValue) : Option Ordering :=
  match a.asInt, b.asInt with
  | some i, some j => some (compare i j)
  | _, _ =>
      match a, b with
      | str s, str t => some (compare s t)
      | _, _ => if a = b then some .eq else Option.none

/-- Equal values never raise when compared. -/
theorem cmp_self (a : PyValue) : a.cmp a = some .eq := by
  cases a <;> simp [cmp, asInt]

end PyValue

/-- A `dict` with string keys, in insertion order. -/
abbrev Dict (α : Type) := List (String × α)

namespace Dict

variable {α : Type}

/-- `d[key] = value`: an existing key keeps its place. -/
def set : Dict α → String → α → Dict α
  | [], key, value => [(key, value)]
  | (k, v) :: rest, key, value =>
      if k = key then (k, value) :: rest else (k, v) :: set rest key value

/-- `d.pop(key, None)`. -/
def pop (d : Dict α) (key : String) : Dict α :=
  d.filter fun entry => entry.1 ≠ key

/-- `{**a, **b}`. -/
def merge (a b : Dict α) : Dict α :=
  b.foldl (fun d entry => set d entry.1 entry.2) a

end Dict

abbrev PyDict := Dict PyValue

/-- `d.get(key)`. -/
def PyDict.get (d : PyDict) (key : String) : PyValue :=
  (d.lookup key).getD .none

/-- An instance of `Exception`. -/
inductive Exn where
  | http (statusCode : Nat) (detail : String)
  | policyViolation (reason : String)
  | notImplemented
  | valueError (message : String)
  | typeError (message : String)
  | attributeError (message : String)
  | other (cls message : String)
  deriving DecidableEq, Repr

/-- `str(exc)`. -/
def Exn.text : Exn → String
  | .http statusCode detail => toString statusCode ++ ": " ++ detail
  | .policyViolation reason => reason
  | .notImplemented => ""
  | .valueError message => message
  | .typeError message => message
  | .attributeError message => message
  | .other _ message => message

/-- `exc.__class__.__name__`. -/
def Exn.className : Exn → String
  | .http _ _ => "HTTPException"
  | .policyViolation _ => "PolicyViolationError"
  | .notImplemented => "NotImplementedError"
  | .valueError _ => "ValueError"
  | .typeError _ => "TypeError"
  | .attributeError _ => "AttributeError"
  | .other cls _ => cls

/-- `isinstance(exc, HTTPException)`. -/
def Exn.isHttp : Exn → Bool
  | .http _ _ => true
  | _ => false

/-- Anything that can be raised. `except Exception` catches only the first kind. -/
inductive BaseExn where
  | exception (e : Exn)
  | cancelledError
  | generatorExit
  deriving DecidableEq, Repr

/-- A reading of `datetime.now(timezone.utc)`, with its `isoformat()`. -/
structure Instant where
  micros : Int
  isoformat : String
  deriving DecidableEq, Repr

/-- The readings of the clock during one call, in order. -/
abbrev Clock := Nat → Instant

/-- The readings that are left after `n` of them. -/
def Clock.skip (clock : Clock) (n : Nat) : Clock :=
  fun i => clock (n + i)

/-- `round(x, digits)`: ties go to the even neighbour. -/
def roundDigits (x : Rat) (digits : Nat) : Rat :=
  let whole := ⌊x * 10 ^ digits⌋
  let rest := x * 10 ^ digits - whole
  (if rest < 1 / 2 ∨ (rest = 1 / 2 ∧ whole % 2 = 0) then whole else whole + 1) / 10 ^ digits

/-- `str(x)` of a non-negative float that has at most two decimals. -/
def hundredthsText (x : Rat) : String :=
  let hundredths := ⌊x * 100⌋.toNat
  let rest := hundredths % 100
  let decimals :=
    if rest % 10 = 0 then toString (rest / 10)
    else if rest < 10 then "0" ++ toString rest
    else toString rest
  toString (hundredths / 100) ++ "." ++ decimals

end AgentCorp.Python
