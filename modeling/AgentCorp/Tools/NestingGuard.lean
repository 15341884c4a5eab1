/-
  The nesting guard of the sandbox: how deep it recurses, and what it lets pass.

  * `nestingDepth_eq`: below the limit the recursion adds up the nesting of the value, and at
    the limit it stops counting.
  * `nestingDepth_calls`: `calls` are the recursive calls that the recursion makes.
  * `length_calls_le`: no chain of them is longer than the limit allows.
  * `checkArgumentNestingDepth_exact`: the guard is exact, and bounded.
-/
import AgentCorp.Tools.ToolExecutor
import Mathlib.Data.List.Chain

namespace AgentCorp.Tools

open AgentCorp.Python

/-- `MAX_ARGUMENTS_DEPTH`. -/
abbrev maxArgumentsDepth : Nat := 5

/-! ## Structural nesting -/

mutual

/-- The levels of non-empty containers in a value. -/
def nesting : Json → Nat
  | .dict entries => if entries = [] then 0 else 1 + nestingEntries entries
  | .list items => if items = [] then 0 else 1 + nestingItems items
  | _ => 0

def nestingItems : List Json → Nat
  | [] => 0
  | item :: items => max (nesting item) (nestingItems items)

def nestingEntries : List (String × Json) → Nat
  | [] => 0
  | (_, value) :: entries => max (nesting value) (nestingEntries entries)

end

theorem nestingItems_cons (item : Json) (items : List Json) :
    nestingItems (item :: items) = max (nesting item) (nestingItems items) := by
  rw [nestingItems]

theorem nestingEntries_cons (key : String) (value : Json) (entries : List (String × Json)) :
    nestingEntries ((key, value) :: entries) = max (nesting value) (nestingEntries entries) := by
  rw [nestingEntries]

mutual

/-- The recursion counts the nesting on from `current`, up to one more than the limit. -/
theorem nestingDepth_eq (value : Json) (current : Nat) (h : current ≤ 6) :
    nestingDepth value current = min 6 (current + nesting value) := by
  match value with
  | .null | .bool _ | .int _ | .float _ | .str _ =>
      simp only [nestingDepth, nesting]
      omega
  | .list items =>
      simp only [nestingDepth, nesting]
      split_ifs with hlimit hempty hempty
      · omega
      · omega
      · subst hempty
        simp only [nestingDepthItems]
        omega
      · rw [nestingDepthItems_eq items (current + 1) current (by omega) hempty]
        omega
  | .dict entries =>
      simp only [nestingDepth, nesting]
      split_ifs with hlimit hempty hempty
      · omega
      · omega
      · subst hempty
        simp only [nestingDepthEntries]
        omega
      · rw [nestingDepthEntries_eq entries (current + 1) current (by omega) hempty]
        omega

theorem nestingDepthItems_eq (items : List Json) (current deepest : Nat) (h : current ≤ 6)
    (hne : items ≠ []) :
    nestingDepthItems items current deepest =
      max deepest (min 6 (current + nestingItems items)) := by
  match items with
  | [] => exact absurd rfl hne
  | [item] =>
      simp only [nestingDepthItems, nestingItems, nestingDepth_eq item current h]
      omega
  | item :: next :: items =>
      rw [nestingDepthItems, nestingDepth_eq item current h,
        nestingDepthItems_eq (next :: items) current _ h (by simp),
        nestingItems_cons item]
      omega

theorem nestingDepthEntries_eq (entries : List (String × Json)) (current deepest : Nat)
    (h : current ≤ 6) (hne : entries ≠ []) :
    nestingDepthEntries entries current deepest =
      max deepest (min 6 (current + nestingEntries entries)) := by
  match entries with
  | [] => exact absurd rfl hne
  | [(_, value)] =>
      simp only [nestingDepthEntries, nestingEntries, nestingDepth_eq value current h]
      omega
  | (_, value) :: next :: entries =>
      rw [nestingDepthEntries, nestingDepth_eq value current h,
        nestingDepthEntries_eq (next :: entries) current _ h (by simp),
        nestingEntries_cons _ value]
      omega

end

/-! ## The calls of the recursion -/

/-- The calls of `_depth` that one call makes. -/
def calls : Json × Nat → List (Json × Nat)
  | (.dict entries, current) =>
      if 5 < current then [] else entries.map fun (_, value) => (value, current + 1)
  | (.list items, current) =>
      if 5 < current then [] else items.map fun item => (item, current + 1)
  | _ => []

/-- The greatest of the numbers, or `deepest`. -/
def deepestOf (deepest : Nat) (depths : List Nat) : Nat :=
  depths.foldl max deepest

theorem nestingDepthItems_calls (items : List Json) (current deepest : Nat) :
    nestingDepthItems items current deepest =
      deepestOf deepest (items.map fun item => nestingDepth item current) := by
  induction items generalizing deepest with
  | nil => rfl
  | cons item items ih =>
      rw [nestingDepthItems, ih]
      rfl

theorem nestingDepthEntries_calls (entries : List (String × Json)) (current deepest : Nat) :
    nestingDepthEntries entries current deepest =
      deepestOf deepest (entries.map fun (_, value) => nestingDepth value current) := by
  induction entries generalizing deepest with
  | nil => rfl
  | cons entry entries ih =>
      rw [nestingDepthEntries, ih]
      rfl

/-- A call is answered from the answers of the calls it makes. -/
theorem nestingDepth_calls (value : Json) (current : Nat) :
    nestingDepth value current =
      deepestOf current ((calls (value, current)).map fun call => nestingDepth call.1 call.2) := by
  match value with
  | .null | .bool _ | .int _ | .float _ | .str _ => rfl
  | .list items =>
      simp only [nestingDepth, calls]
      split_ifs
      · rfl
      · rw [nestingDepthItems_calls, List.map_map]
        rfl
  | .dict entries =>
      simp only [nestingDepth, calls]
      split_ifs
      · rfl
      · rw [nestingDepthEntries_calls, List.map_map]
        rfl

/-- A call makes calls one level down, and only within the limit. -/
theorem mem_calls {call next : Json × Nat} (h : next ∈ calls call) :
    next.2 = call.2 + 1 ∧ call.2 ≤ 5 := by
  obtain ⟨value, current⟩ := call
  match value with
  | .null | .bool _ | .int _ | .float _ | .str _ => simp [calls] at h
  | .list items =>
      simp only [calls] at h
      split_ifs at h with hlimit
      · simp at h
      · obtain ⟨item, -, rfl⟩ := List.mem_map.mp h
        exact ⟨rfl, by omega⟩
  | .dict entries =>
      simp only [calls] at h
      split_ifs at h with hlimit
      · simp at h
      · obtain ⟨entry, -, rfl⟩ := List.mem_map.mp h
        exact ⟨rfl, by omega⟩

/-- Each of these calls is made by the one before it. -/
def Nested (stack : List (Json × Nat)) : Prop :=
  stack.IsChain fun call next => next ∈ calls call

theorem length_calls_le {call : Json × Nat} {deeper : List (Json × Nat)}
    (h : Nested (call :: deeper)) (hcall : call.2 ≤ 6) : call.2 + deeper.length ≤ 6 := by
  induction deeper generalizing call with
  | nil => simpa using hcall
  | cons next deeper ih =>
      rw [Nested, List.isChain_cons_cons] at h
      obtain ⟨hlevel, hlimit⟩ := mem_calls h.1
      have hdeeper : next.2 + deeper.length ≤ 6 := ih h.2 (by omega)
      rw [List.length_cons]
      omega

/-! ## The guard -/

theorem checkArgumentNestingDepth_iff (arguments : Dict Json) (toolName : String) :
    checkArgumentNestingDepth arguments toolName = .ok () ↔
      nestingDepth (.dict arguments) 0 ≤ 5 := by
  simp only [checkArgumentNestingDepth]
  split_ifs with h
  · exact ⟨fun hok => by simp at hok, fun hle => absurd h (by omega)⟩
  · exact ⟨fun _ => by omega, fun _ => rfl⟩

/-- The guard never recurses more than one level beyond the limit, whatever the value, and it
    lets through the arguments within the limit and no others. -/
theorem checkArgumentNestingDepth_exact (value : Json) (arguments : Dict Json)
    (toolName : String) :
    (∀ deeper, Nested ((value, 0) :: deeper) → deeper.length ≤ maxArgumentsDepth + 1) ∧
      (nestingDepth value 0 ≤ maxArgumentsDepth ↔ nesting value ≤ maxArgumentsDepth) ∧
      (checkArgumentNestingDepth arguments toolName = .ok () ↔
        nesting (.dict arguments) ≤ maxArgumentsDepth) := by
  have hexact : ∀ value : Json, nestingDepth value 0 ≤ 5 ↔ nesting value ≤ 5 := by
    intro value
    rw [nestingDepth_eq value 0 (by omega)]
    omega
  refine ⟨fun deeper hnested => ?_, hexact value, ?_⟩
  · have hbound := length_calls_le hnested (by simp)
    simpa using hbound
  · rw [checkArgumentNestingDepth_iff]
    exact hexact (.dict arguments)

end AgentCorp.Tools
