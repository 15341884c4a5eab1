/-
  `security/sanitizer.py`: HTML escaping and the removal of dangerous patterns, for payloads of any
  nesting.

  * `skeleton_sanitizePayload`: the shape and the leaves that are no strings stay as they are.
  * `occurrences_sanitizePayload`: every string value goes through `sanitizeText`, and no key does.
  * `sanitizeText_eq`: after the escaping, no script tag is there to remove.
-/
import AgentCorp.Python.Data
import AgentCorp.Python.Re
import Mathlib.Tactic.SplitIfs

namespace AgentCorp.Security.Sanitizer

open AgentCorp.Python AgentCorp.Python.Re
open Regex

variable (U : CharClasses)

/-! ## The patterns -/

/-- `.*?`, where a point is any character. -/
def anything : Regex Char :=
  .rep (.cls fun _ => true) 0 none false

def scriptTag : Pattern Char where
  regex := cat (lit '<') [str "script", anything, lit '>', anything, str "</script>"]
  consumes := rfl
  productive := rfl

/-- `\bx\s+y\b`. -/
def phrase (x y : String) : Regex Char :=
  bounded U.isWord (cat (str x) [plus space, str y])

def dropTable : Pattern Char where
  regex := phrase U "DROP" "TABLE"
  consumes := rfl
  productive := rfl

def deleteFrom : Pattern Char where
  regex := phrase U "DELETE" "FROM"
  consumes := rfl
  productive := rfl

/-- `_DANGEROUS_PATTERNS`. -/
def dangerousPatterns : List (Pattern Char) :=
  [scriptTag, dropTable U, deleteFrom U]

/-! ## The functions -/

def htmlEscapeChar (c : Char) : List Char :=
  if c = '&' then "&amp;".toList
  else if c = '<' then "&lt;".toList
  else if c = '>' then "&gt;".toList
  else if c = '"' then "&quot;".toList
  else if c = '\'' then "&#x27;".toList
  else [c]

/-- `html.escape(text)`. -/
def htmlEscape (text : List Char) : List Char :=
  text.flatMap htmlEscapeChar

def sanitizeText (text : List Char) : List Char :=
  (dangerousPatterns U).foldl (fun escaped pattern => pattern.sub (fun _ => []) escaped)
    (htmlEscape text)

mutual

def sanitizePayload : Json → Json
  | .dict entries => .dict (sanitizeEntries entries)
  | .list items => .list (sanitizeItems items)
  | .str s => .str (String.ofList (sanitizeText U s.toList))
  | payload => payload

def sanitizeItems : List Json → List Json
  | [] => []
  | item :: items => sanitizePayload item :: sanitizeItems items

def sanitizeEntries : List (String × Json) → List (String × Json)
  | [] => []
  | (k, v) :: entries => (k, sanitizePayload v) :: sanitizeEntries entries

end

/-! ## What is in a payload -/

/-- A string in a payload: the key of a dictionary or a value. -/
inductive Occurrence where
  | key (k : String)
  | value (s : String)

mutual

def occurrences : Json → List Occurrence
  | .dict entries => occurrencesOfEntries entries
  | .list items => occurrencesOfItems items
  | .str s => [.value s]
  | _ => []

def occurrencesOfItems : List Json → List Occurrence
  | [] => []
  | item :: items => occurrences item ++ occurrencesOfItems items

def occurrencesOfEntries : List (String × Json) → List Occurrence
  | [] => []
  | (k, v) :: entries => .key k :: (occurrences v ++ occurrencesOfEntries entries)

end

mutual

/-- The payload with every string value emptied: its shape, its keys and its other leaves. -/
def skeleton : Json → Json
  | .dict entries => .dict (skeletonOfEntries entries)
  | .list items => .list (skeletonOfItems items)
  | .str _ => .str ""
  | payload => payload

def skeletonOfItems : List Json → List Json
  | [] => []
  | item :: items => skeleton item :: skeletonOfItems items

def skeletonOfEntries : List (String × Json) → List (String × Json)
  | [] => []
  | (k, v) :: entries => (k, skeleton v) :: skeletonOfEntries entries

end

/-- What becomes of a string: a key is left alone. -/
def Occurrence.sanitize : Occurrence → Occurrence
  | .key k => .key k
  | .value s => .value (String.ofList (sanitizeText U s.toList))

mutual

theorem occurrences_sanitizePayload (payload : Json) :
    occurrences (sanitizePayload U payload) =
      (occurrences payload).map (Occurrence.sanitize U) := by
  match payload with
  | .dict entries => exact occurrences_sanitizeEntries entries
  | .list items => exact occurrences_sanitizeItems items
  | .str s => rfl
  | .null => rfl
  | .bool b => rfl
  | .int i => rfl
  | .float x => rfl

theorem occurrences_sanitizeItems (items : List Json) :
    occurrencesOfItems (sanitizeItems U items) =
      (occurrencesOfItems items).map (Occurrence.sanitize U) := by
  match items with
  | [] => rfl
  | item :: items =>
    rw [sanitizeItems, occurrencesOfItems, occurrencesOfItems, List.map_append,
      occurrences_sanitizePayload item, occurrences_sanitizeItems items]

theorem occurrences_sanitizeEntries (entries : List (String × Json)) :
    occurrencesOfEntries (sanitizeEntries U entries) =
      (occurrencesOfEntries entries).map (Occurrence.sanitize U) := by
  match entries with
  | [] => rfl
  | (k, v) :: entries =>
    rw [sanitizeEntries, occurrencesOfEntries, occurrencesOfEntries, List.map_cons,
      List.map_append, occurrences_sanitizePayload v, occurrences_sanitizeEntries entries]
    rfl

end

mutual

theorem skeleton_sanitizePayload (payload : Json) :
    skeleton (sanitizePayload U payload) = skeleton payload := by
  match payload with
  | .dict entries => exact congrArg Json.dict (skeleton_sanitizeEntries entries)
  | .list items => exact congrArg Json.list (skeleton_sanitizeItems items)
  | .str s => rfl
  | .null => rfl
  | .bool b => rfl
  | .int i => rfl
  | .float x => rfl

theorem skeleton_sanitizeItems (items : List Json) :
    skeletonOfItems (sanitizeItems U items) = skeletonOfItems items := by
  match items with
  | [] => rfl
  | item :: items =>
    rw [sanitizeItems, skeletonOfItems, skeletonOfItems, skeleton_sanitizePayload item,
      skeleton_sanitizeItems items]

theorem skeleton_sanitizeEntries (entries : List (String × Json)) :
    skeletonOfEntries (sanitizeEntries U entries) = skeletonOfEntries entries := by
  match entries with
  | [] => rfl
  | (k, v) :: entries =>
    rw [sanitizeEntries, skeletonOfEntries, skeletonOfEntries, skeleton_sanitizePayload v,
      skeleton_sanitizeEntries entries]

end

/-! ## No tag is left -/

theorem eq_of_ignoreCase_eq {c : Char} (h : ignoreCase c = '<') : c = '<' := by
  by_cases hc : c.toNat < 128
  · exact of_ascii (P := fun c => ignoreCase c = '<' → c = '<') (by decide) hc h
  · rcases ignoreCase_cases hc with hmem | hsame
    · rw [h] at hmem
      exact absurd hmem (by decide)
    · exact hsame ▸ h

/-- A script tag begins with an angle bracket. -/
theorem search_scriptTag {text : List Char} (h : '<' ∉ text) : scriptTag.search text = false := by
  have hstarts : StartsIn (fun a => a = '<') scriptTag.regex :=
    startsIn_seq (startsIn_cls fun a ha => eq_of_ignoreCase_eq (beq_iff_eq.mp ha))
  rw [Pattern.search_eq_false_iff]
  intro n _
  refine List.eq_nil_iff_forall_not_mem.mpr fun q hq => ?_
  obtain ⟨a, ha, rfl⟩ := hstarts _ q hq
  rw [Place.rest_at_head?] at ha
  exact h (List.mem_of_getElem? ha)

theorem angle_not_mem_htmlEscapeChar (c : Char) :
    '<' ∉ htmlEscapeChar c ∧ '>' ∉ htmlEscapeChar c := by
  unfold htmlEscapeChar
  split_ifs with _ hlt hgt
  any_goals decide
  exact ⟨by simpa using Ne.symm hlt, by simpa using Ne.symm hgt⟩

theorem angle_not_mem_htmlEscape (text : List Char) :
    '<' ∉ htmlEscape text ∧ '>' ∉ htmlEscape text := by
  constructor
  · intro h
    obtain ⟨c, _, hc⟩ := List.mem_flatMap.mp h
    exact (angle_not_mem_htmlEscapeChar c).1 hc
  · intro h
    obtain ⟨c, _, hc⟩ := List.mem_flatMap.mp h
    exact (angle_not_mem_htmlEscapeChar c).2 hc

/-- The escaping leaves no script tag to remove. -/
theorem sanitizeText_eq (text : List Char) :
    sanitizeText U text = (deleteFrom U).sub (fun _ => [])
      ((dropTable U).sub (fun _ => []) (htmlEscape text)) := by
  have hscript := search_scriptTag (angle_not_mem_htmlEscape text).1
  have hsub := Pattern.sub_eq_self hscript fun _ => []
  simp only [sanitizeText, dangerousPatterns, List.foldl_cons, List.foldl_nil, hsub]

theorem angle_not_mem_sanitizeText (text : List Char) :
    '<' ∉ sanitizeText U text ∧ '>' ∉ sanitizeText U text := by
  have hpart : (sanitizeText U text).Sublist (htmlEscape text) := by
    rw [sanitizeText_eq]
    exact (Pattern.sub_nil_sublist _ _).trans (Pattern.sub_nil_sublist _ _)
  obtain ⟨hlt, hgt⟩ := angle_not_mem_htmlEscape text
  exact ⟨fun h => hlt (hpart.subset h), fun h => hgt (hpart.subset h)⟩

end AgentCorp.Security.Sanitizer
