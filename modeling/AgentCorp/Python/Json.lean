/-
  `json.dumps(data, ensure_ascii=False)`, for dictionaries of strings, numbers and counts.

  The shortest decimal text of a float is a parameter of the model, a `FloatRepr`. Floats
  are rationals here, so none of them is infinite or not a number.

  * `newline_not_mem_dumps`: the text of a dictionary has no line feed.
-/
import AgentCorp.Python.Values
import Mathlib.Tactic.SplitIfs

namespace AgentCorp.Python

/-- A value of a dictionary that is sent as JSON. -/
inductive JsonValue where
  | str (s : String)
  | int (i : Int)
  | float (x : Rat)
  | counts (d : Dict Int)
  deriving DecidableEq, Repr

/-- `float.__repr__`: digits, signs, a point and an exponent. -/
structure FloatRepr where
  repr : Rat → String
  numeral : ∀ x, (repr x).toList.all fun c => c.isDigit || c ∈ ['+', '-', '.', 'e']

/-- The escape of one character. -/
def escapeChar (c : Char) : List Char :=
  if c = '"' then ['\\', '"']
  else if c = '\\' then ['\\', '\\']
  else if c = '\n' then ['\\', 'n']
  else if c = '\r' then ['\\', 'r']
  else if c = '\t' then ['\\', 't']
  else if c.toNat = 8 then ['\\', 'b']
  else if c.toNat = 12 then ['\\', 'f']
  else if c.toNat < 32 then
    ['\\', 'u', '0', '0', Nat.digitChar (c.toNat / 16), Nat.digitChar (c.toNat % 16)]
  else [c]

def dumpsStr (s : String) : List Char :=
  ['"'] ++ s.toList.flatMap escapeChar ++ ['"']

def dumpsInt (i : Int) : List Char :=
  (toString i).toList

/-- A dictionary, by the text of its values. -/
def dumpsDict {α : Type} (dumpsValue : α → List Char) (d : Dict α) : List Char :=
  ['{'] ++
    [',', ' '].intercalate (d.map fun entry => dumpsStr entry.1 ++ [':', ' '] ++
      dumpsValue entry.2) ++ ['}']

def JsonValue.dumps (F : FloatRepr) : JsonValue → List Char
  | str s => dumpsStr s
  | int i => dumpsInt i
  | float x => (F.repr x).toList
  | counts d => dumpsDict dumpsInt d

/-- `json.dumps`. -/
def dumps (F : FloatRepr) (data : Dict JsonValue) : List Char :=
  dumpsDict (JsonValue.dumps F) data

/-! ## One line -/

theorem newline_ne_digitChar : ∀ n < 16, '\n' ≠ Nat.digitChar n := by
  decide

theorem newline_not_mem_escapeChar (c : Char) : '\n' ∉ escapeChar c := by
  unfold escapeChar
  split_ifs with _ _ hc _ _ _ _ hcontrol
  any_goals decide
  · -- A control character: its two hexadecimal digits.
    have hhigh := newline_ne_digitChar (c.toNat / 16) (by omega)
    have hlow := newline_ne_digitChar (c.toNat % 16) (by omega)
    simp [hhigh, hlow]
  · simpa [eq_comm] using hc

theorem newline_not_mem_dumpsStr (s : String) : '\n' ∉ dumpsStr s := by
  simp only [dumpsStr, List.mem_append, List.mem_flatMap, not_or, not_exists, not_and]
  exact ⟨⟨by decide, fun c _ => newline_not_mem_escapeChar c⟩, by decide⟩

theorem newline_not_mem_repr (n : Nat) : '\n' ∉ (Nat.repr n).toList := by
  rw [Nat.toList_repr]
  intro hin
  have hdigit := Nat.isDigit_of_mem_toDigits (by omega) (by omega) hin
  exact absurd hdigit (by decide)

theorem newline_not_mem_dumpsInt (i : Int) : '\n' ∉ dumpsInt i := by
  cases i with
  | ofNat n => exact newline_not_mem_repr n
  | negSucc n =>
      show '\n' ∉ ("-" ++ Nat.repr (n + 1)).toList
      rw [String.toList_append, List.mem_append]
      exact fun hin => hin.elim (by decide) (newline_not_mem_repr _)

theorem newline_not_mem_intercalate {sep : List Char} (hsep : '\n' ∉ sep) :
    ∀ {l : List (List Char)}, (∀ text ∈ l, '\n' ∉ text) → '\n' ∉ sep.intercalate l
  | [], _ => by simp
  | [text], h => by simpa using h
  | first :: second :: rest, h => by
      rw [List.intercalate_cons_cons, List.mem_append, List.mem_append]
      have hrest := newline_not_mem_intercalate hsep (List.forall_mem_cons.mp h).2
      rintro ((hin | hin) | hin)
      · exact h first List.mem_cons_self hin
      · exact hsep hin
      · exact hrest hin

theorem newline_not_mem_dumpsDict {α : Type} {dumpsValue : α → List Char}
    (h : ∀ v, '\n' ∉ dumpsValue v) (d : Dict α) : '\n' ∉ dumpsDict dumpsValue d := by
  have hentries : '\n' ∉ [',', ' '].intercalate (d.map fun entry =>
      dumpsStr entry.1 ++ [':', ' '] ++ dumpsValue entry.2) := by
    refine newline_not_mem_intercalate (by decide) fun text htext => ?_
    obtain ⟨entry, -, rfl⟩ := List.mem_map.mp htext
    simp only [List.mem_append, not_or]
    exact ⟨⟨newline_not_mem_dumpsStr _, by decide⟩, h _⟩
  simp only [dumpsDict, List.mem_append, not_or]
  exact ⟨⟨by decide, hentries⟩, by decide⟩

theorem newline_not_mem_dumps (F : FloatRepr) (data : Dict JsonValue) : '\n' ∉ dumps F data := by
  refine newline_not_mem_dumpsDict (fun v => ?_) data
  cases v with
  | str s => exact newline_not_mem_dumpsStr s
  | int i => exact newline_not_mem_dumpsInt i
  | float x =>
      intro hin
      have hchar := List.all_eq_true.mp (F.numeral x) _ hin
      exact absurd hchar (by decide)
  | counts d => exact newline_not_mem_dumpsDict newline_not_mem_dumpsInt d

end AgentCorp.Python
