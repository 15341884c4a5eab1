/-
  Which edge `TransitionEngine.evaluate_transition` takes.

  The loop of the engine evaluates the conditions in descending order of priority and goes on
  after a condition that raises. Here it is written out with what its `try` block raises, and
  compared with a choice that knows nothing of loops or exceptions.

  * `splitEquals_pair_iff`: the conditions with a single `==`.
  * `takeFirst_eq`: the loop never raises, and is the search of `evaluateTransition`.
  * `transitionSelection`: what is returned.
-/
import AgentCorp.Lib.PriorityChoice
import AgentCorp.Workflow.Graph

namespace AgentCorp.Workflows

open AgentCorp.Python PriorityChoice

/-! ## Conditions with one `==` -/

/-- `"==" in text`. -/
def HasEquals (text : List Char) : Prop :=
  ['=', '='] <:+: text

instance : DecidablePred HasEquals := fun text => inferInstanceAs (Decidable (_ <:+: text))

/-- The text is `left == right`, and this is the only `==` in it that `split` finds. -/
def SingleEquals (text left right : List Char) : Prop :=
  text = left ++ '=' :: '=' :: right ∧ ¬ HasEquals (left ++ ['=']) ∧ ¬ HasEquals right

theorem hasEquals_cons {c : Char} {text : List Char} :
    HasEquals (c :: text) ↔ (c = '=' ∧ text.head? = some '=') ∨ HasEquals text := by
  unfold HasEquals
  rw [List.infix_cons_iff]
  refine or_congr_left ?_
  cases text with
  | nil => simp
  | cons d text => simp [List.cons_prefix_cons, eq_comm]

theorem splitEquals_ne_nil (text : List Char) : splitEquals text ≠ [] := by
  fun_induction splitEquals text <;> simp

/-- A character that starts no `==` does not matter. -/
theorem hasEquals_cons_of_not {c : Char} {text : List Char}
    (h : ∀ rest, c = '=' → text = '=' :: rest → False) :
    HasEquals (c :: text) ↔ HasEquals text := by
  rw [hasEquals_cons, or_iff_right]
  rintro ⟨hc, hhead⟩
  cases text with
  | nil => cases hhead
  | cons d rest => exact h rest hc (by rw [Option.some.inj hhead])

theorem splitEquals_single_iff {text part : List Char} :
    splitEquals text = [part] ↔ text = part ∧ ¬ HasEquals text := by
  fun_induction splitEquals text generalizing part with
  | case1 rest ih =>
      refine iff_of_false (fun h => ?_) fun h => h.2 (hasEquals_cons.mpr (.inl ⟨rfl, rfl⟩))
      exact splitEquals_ne_nil rest (List.cons.inj h).2
  | case2 c rest hnot first parts hsplit ih =>
      rw [hasEquals_cons_of_not hnot]
      rw [hsplit] at ih
      constructor
      · intro h
        obtain ⟨rfl, rfl⟩ := List.cons.inj h
        obtain ⟨rfl, hequals⟩ := ih.mp rfl
        exact ⟨rfl, hequals⟩
      · rintro ⟨rfl, hequals⟩
        obtain ⟨rfl, rfl⟩ := List.cons.inj (ih.mpr ⟨rfl, hequals⟩)
        rfl
  | case3 c rest hnot hsplit ih => exact absurd hsplit (splitEquals_ne_nil rest)
  | case4 =>
      rw [List.cons.injEq, and_iff_left rfl]
      exact (and_iff_left (by decide)).symm

/-- `split` makes two parts of a text with a single `==`. -/
theorem splitEquals_pair_iff {text left right : List Char} :
    splitEquals text = [left, right] ↔ SingleEquals text left right := by
  fun_induction splitEquals text generalizing left with
  | case1 rest ih =>
      rw [List.cons.injEq, splitEquals_single_iff]
      constructor
      · rintro ⟨rfl, rfl, hright⟩
        exact ⟨rfl, by decide, hright⟩
      · rintro ⟨htext, hleft, hright⟩
        cases left with
        | nil =>
            obtain ⟨-, htext⟩ := List.cons.inj htext
            obtain ⟨-, rfl⟩ := List.cons.inj htext
            exact ⟨rfl, rfl, hright⟩
        | cons c left =>
            -- A longer left part would start with `==`, or end where the first one starts.
            obtain ⟨rfl, hrest⟩ := List.cons.inj htext
            refine absurd (hasEquals_cons.mpr (.inl ⟨rfl, ?_⟩)) hleft
            cases left with
            | nil => rfl
            | cons d left => exact congrArg some (List.cons.inj hrest).1.symm
  | case2 c rest hnot first parts hsplit ih =>
      rw [hsplit] at ih
      constructor
      · intro h
        obtain ⟨rfl, rfl⟩ := List.cons.inj h
        obtain ⟨rfl, hleft, hright⟩ := ih.mp rfl
        refine ⟨rfl, ?_, hright⟩
        rw [List.cons_append, hasEquals_cons_of_not]
        · exact hleft
        · intro more hc hmore
          cases first with
          | nil => exact hnot ('=' :: right) hc rfl
          | cons d first =>
              obtain ⟨rfl, -⟩ := List.cons.inj hmore
              exact hnot (first ++ '=' :: '=' :: right) hc rfl
      · rintro ⟨htext, hleft, hright⟩
        cases left with
        | nil =>
            obtain ⟨rfl, rfl⟩ := List.cons.inj htext
            exact absurd rfl (hnot right rfl)
        | cons d left =>
            obtain ⟨rfl, rfl⟩ := List.cons.inj htext
            have hleft' : ¬ HasEquals (left ++ ['=']) := fun h =>
              hleft (hasEquals_cons.mpr (.inr h))
            obtain ⟨rfl, rfl⟩ := List.cons.inj (ih.mpr ⟨rfl, hleft', hright⟩)
            rfl
  | case3 c rest hnot hsplit ih => exact absurd hsplit (splitEquals_ne_nil rest)
  | case4 =>
      refine iff_of_false nofun fun h => ?_
      exact absurd h.1.symm (List.append_ne_nil_of_right_ne_nil _ (List.cons_ne_nil _ _))

/-- The loop looks for `==` before it splits. -/
theorem not_hasEquals_iff {text : List Char} :
    ¬ HasEquals text ↔ splitEquals text = [text] := by
  rw [splitEquals_single_iff]
  exact (and_iff_right rfl).symm

/-! ## The loop -/

/-- `left, right = parts`. -/
def unpackTwo : List (List Char) → Except Exn (List Char × List Char)
  | [left, right] => .ok (left, right)
  | _ :: _ :: _ :: _ =>
      .error (.valueError "too many values to unpack (expected 2)")
  | parts =>
      .error (.valueError ("not enough values to unpack (expected 2, got " ++
        toString parts.length ++ ")"))

/-- The `try` block of the loop. -/
def conditionMet (T : TextTables) (condition : String) (context : Dict Json) :
    Except Exn Bool :=
  if HasEquals condition.toList then do
    let (left, right) ← unpackTwo (splitEquals condition.toList)
    let leftVal := resolvePath (strip left) context
    let rightVal := stripChars ['\'', '"'] (strip right)
    return leftVal.text T == rightVal
  else return false

/-- The loop of `TransitionEngine.evaluate_transition`, over edges that are sorted. -/
def takeFirst (T : TextTables) (context : Dict Json) : List WorkflowEdge → Except Exn (Option Int)
  | [] => return none
  | edge :: rest =>
      match edge.transitionCondition with
      | none => return some edge.targetNodeId
      | some condition =>
          if condition = "" then return some edge.targetNodeId
          else
            match conditionMet T condition context with
            | .ok true => return some edge.targetNodeId
            | .ok false => takeFirst T context rest
            | .error _ => takeFirst T context rest

/-- `TransitionEngine.evaluate_transition`, with the exceptions of its conditions. -/
def runTransition (T : TextTables) (edges : List WorkflowEdge) (context : Dict Json) :
    Except Exn (Option Int) :=
  takeFirst T context (sorted WorkflowEdge.priority edges)

/-- A condition holds if its block says so, and does not raise. -/
theorem conditionHolds_iff (T : TextTables) (condition : String) (context : Dict Json) :
    conditionHolds T condition context = true ↔ conditionMet T condition context = .ok true := by
  by_cases hequals : HasEquals condition.toList
  · unfold conditionHolds conditionMet
    rw [if_pos hequals]
    match hsplit : splitEquals condition.toList with
    | [] => exact absurd hsplit (splitEquals_ne_nil _)
    | [part] =>
        obtain ⟨rfl, hnot⟩ := splitEquals_single_iff.mp hsplit
        exact absurd hequals hnot
    | [left, right] => exact Except.ok.injEq _ _ ▸ Iff.rfl
    | _ :: _ :: _ :: _ => exact iff_of_false nofun nofun
  · unfold conditionHolds conditionMet
    rw [if_neg hequals, not_hasEquals_iff.mp hequals]
    exact iff_of_false nofun nofun

/-- One round of the loop: a condition that raises disables its own edge. -/
theorem takeFirst_cons (T : TextTables) (context : Dict Json) (edge : WorkflowEdge)
    (rest : List WorkflowEdge) :
    takeFirst T context (edge :: rest) =
      if edge.enabled T context then .ok (some edge.targetNodeId)
      else takeFirst T context rest := by
  cases hcondition : edge.transitionCondition with
  | none =>
      have henabled : edge.enabled T context = true := by rw [WorkflowEdge.enabled, hcondition]
      rw [takeFirst, hcondition, if_pos henabled]
      rfl
  | some condition =>
      rw [takeFirst, hcondition]
      dsimp only
      by_cases hempty : condition = ""
      · have henabled : edge.enabled T context = true := by
          rw [WorkflowEdge.enabled, hcondition]
          simp [hempty]
        rw [if_pos hempty, if_pos henabled]
        rfl
      · have henabled : edge.enabled T context = conditionHolds T condition context := by
          rw [WorkflowEdge.enabled, hcondition]
          simp [hempty]
        rw [if_neg hempty, henabled]
        have hiff := conditionHolds_iff T condition context
        cases hmet : conditionMet T condition context with
        | error exc =>
            rw [if_neg]
            rw [hiff, hmet]
            exact nofun
        | ok met =>
            cases met with
            | true =>
                rw [if_pos (hiff.mpr hmet)]
                rfl
            | false =>
                rw [if_neg]
                rw [hiff, hmet]
                exact nofun

/-- The loop takes the first edge that is enabled, and never raises. -/
theorem takeFirst_eq (T : TextTables) (context : Dict Json) (edges : List WorkflowEdge) :
    takeFirst T context edges =
      .ok ((edges.find? (·.enabled T context)).map (·.targetNodeId)) := by
  induction edges with
  | nil => rfl
  | cons edge rest ih =>
      rw [takeFirst_cons, ih, List.find?_cons]
      cases edge.enabled T context <;> rfl

theorem runTransition_eq (T : TextTables) (edges : List WorkflowEdge) (context : Dict Json) :
    runTransition T edges context = .ok (evaluateTransition T edges context) :=
  takeFirst_eq T context _

/-! ## The choice -/

/-- The edge has no condition, or a single `==` whose left side is the path of a value with the
    text on the right side. -/
def WorkflowEdge.Enabled (T : TextTables) (context : Dict Json) (edge : WorkflowEdge) : Prop :=
  edge.transitionCondition = none ∨ edge.transitionCondition = some "" ∨
    ∃ condition left right, edge.transitionCondition = some condition ∧
      SingleEquals condition.toList left right ∧
      (resolvePath (strip left) context).text T = stripChars ['\'', '"'] (strip right)

theorem conditionHolds_iff_single (T : TextTables) (condition : String) (context : Dict Json) :
    conditionHolds T condition context = true ↔
      ∃ left right, SingleEquals condition.toList left right ∧
        (resolvePath (strip left) context).text T = stripChars ['\'', '"'] (strip right) := by
  simp only [← splitEquals_pair_iff]
  unfold conditionHolds
  split
  · next left right hsplit =>
      rw [beq_iff_eq]
      constructor
      · intro htext
        exact ⟨left, right, hsplit, htext⟩
      · rintro ⟨left', right', hsplit', htext⟩
        obtain ⟨rfl, hrest⟩ := List.cons.inj (hsplit.symm.trans hsplit')
        obtain ⟨rfl, -⟩ := List.cons.inj hrest
        exact htext
  · next hnot =>
      refine iff_of_false nofun ?_
      rintro ⟨left, right, hsplit, -⟩
      exact hnot left right hsplit

theorem enabled_iff {T : TextTables} {context : Dict Json} {edge : WorkflowEdge} :
    edge.enabled T context = true ↔ edge.Enabled T context := by
  unfold WorkflowEdge.enabled WorkflowEdge.Enabled
  cases edge.transitionCondition with
  | none => exact iff_of_true rfl (.inl rfl)
  | some condition =>
      dsimp only
      rw [Bool.or_eq_true, beq_iff_eq, conditionHolds_iff_single]
      simp only [reduceCtorEq, false_or, Option.some.injEq]
      refine or_congr_right ⟨?_, ?_⟩
      · rintro ⟨left, right, h⟩
        exact ⟨condition, left, right, rfl, h⟩
      · rintro ⟨_, left, right, rfl, h⟩
        exact ⟨left, right, h⟩

/-- **Transition selection.** The engine never raises. It returns the target of the enabled edge
    with the highest priority, the first of several, and nothing if no edge is enabled; where the
    priorities are distinct, the order of the edges does not matter. -/
theorem transitionSelection (T : TextTables) (edges : List WorkflowEdge) (context : Dict Json) :
    ∃ result, runTransition T edges context = .ok result ∧
      (∀ target, result = some target ↔
        ∃ edge, Chosen WorkflowEdge.priority (·.Enabled T context) edges edge ∧
          edge.targetNodeId = target) ∧
      (result = none ↔ ∀ edge ∈ edges, ¬ edge.Enabled T context) ∧
      ∀ edges', edges.Perm edges' → (edges.map WorkflowEdge.priority).Nodup →
        runTransition T edges' context = .ok result := by
  refine ⟨_, runTransition_eq T edges context, fun target => ?_, ?_, fun edges' hperm hkeys => ?_⟩
  · simp only [← enabled_iff, ← find?_sorted_eq_some_iff]
    exact Option.map_eq_some_iff
  · simp only [← enabled_iff, Bool.not_eq_true, ← find?_sorted_eq_none_iff WorkflowEdge.priority]
    exact Option.map_eq_none_iff
  · have hsorted := sorted_eq_of_perm WorkflowEdge.priority hperm hkeys
    rw [← runTransition_eq, runTransition, runTransition, hsorted]

end AgentCorp.Workflows
