/-
  How many attempts a node is given, and what its step says of them.

  `_execute_node` returns the number of the attempt that succeeded, and raises what the last one
  raised. The caller starts with no retries and learns of none when the node raises.

  * `tryAttempts_last`: where the attempts end.
  * `retryAccounting_iff`: the steps whose retries are right.
-/
import AgentCorp.Lib.Retry
import AgentCorp.Workflow.Termination

namespace AgentCorp.Workflows

open AgentCorp.Python AgentCorp.Executions Retry

/-! ## Counting -/

/-- `except Exception`. -/
def Caught : BaseExn → Prop
  | .exception _ => True
  | _ => False

/-- The loop of `_execute_node`, with the number of attempts that were made. -/
def tryAttempts {α : Type} (attempt : Nat → Except BaseExn α) :
    Nat → Nat → Nat × Except BaseExn (α × Nat)
  | remaining, used =>
      match attempt used with
      | .ok output => (used + 1, .ok (output, used))
      | .error (.exception exc) =>
          match remaining with
          | 0 => (used + 1, .error (.exception exc))
          | remaining + 1 => tryAttempts attempt remaining (used + 1)
      | .error raised => (used + 1, .error raised)

section Attempts

variable {α : Type} (attempt : Nat → Except BaseExn α)

/-- The number is not looked at. -/
theorem tryAttempts_snd (remaining used : Nat) :
    (tryAttempts attempt remaining used).2 = attemptFrom attempt remaining used := by
  induction remaining generalizing used with
  | zero =>
      unfold tryAttempts attemptFrom
      cases attempt used with
      | ok output => rfl
      | error raised => cases raised <;> rfl
  | succ remaining ih =>
      unfold tryAttempts attemptFrom
      cases attempt used with
      | ok output => rfl
      | error raised =>
          cases raised with
          | exception exc => exact ih (used + 1)
          | cancelledError => rfl
          | generatorExit => rfl

theorem again_iff {used : Nat} :
    Again Caught attempt used ↔ ∃ exc, attempt used = .error (.exception exc) := by
  constructor
  · rintro ⟨raised, hraised, hcaught⟩
    cases raised with
    | exception exc => exact ⟨exc, hraised⟩
    | cancelledError => exact absurd hcaught id
    | generatorExit => exact absurd hcaught id
  · rintro ⟨exc, hexc⟩
    exact ⟨.exception exc, hexc, trivial⟩

variable {attempt} in
/-- The last attempt. -/
theorem tryAttempts_end {remaining used : Nat}
    (h : remaining = 0 ∨ ¬ Again Caught attempt used) :
    tryAttempts attempt remaining used =
      (used + 1, (attempt used).map fun output => (output, used)) := by
  rw [again_iff] at h
  unfold tryAttempts
  cases hattempt : attempt used with
  | ok output => rfl
  | error raised =>
      cases raised with
      | exception exc =>
          rcases h with rfl | hnot
          · rfl
          · exact absurd ⟨exc, hattempt⟩ hnot
      | cancelledError => rfl
      | generatorExit => rfl

variable {attempt} in
theorem tryAttempts_again {remaining used : Nat} (h : Again Caught attempt used) :
    tryAttempts attempt (remaining + 1) used = tryAttempts attempt remaining (used + 1) := by
  obtain ⟨exc, hexc⟩ := (again_iff attempt).mp h
  rw [tryAttempts, hexc]

/-- The attempts end at the last one, with its result. -/
theorem tryAttempts_last (remaining used : Nat) :
    ∃ last, Last Caught (fun i => attempt (used + i)) remaining last ∧
      tryAttempts attempt remaining used =
        (used + last + 1, (attempt (used + last)).map fun output => (output, used + last)) := by
  induction remaining generalizing used with
  | zero => exact ⟨0, last_zero (.inl rfl), tryAttempts_end (.inl rfl)⟩
  | succ remaining ih =>
      by_cases hagain : Again Caught attempt used
      · obtain ⟨last, hlast, htry⟩ := ih (used + 1)
        have hshift : ∀ i, used + 1 + i = used + (i + 1) := fun i => by omega
        refine ⟨last + 1, Last.succ hagain ?_, ?_⟩
        · simpa only [hshift] using hlast
        · rw [tryAttempts_again hagain, htry, hshift]
      · exact ⟨0, last_zero (.inr hagain), tryAttempts_end (.inr hagain)⟩

end Attempts

/-! ## Nodes -/

section Node

variable (env : WorkflowEnv) (index : Nat) (node : WorkflowNode) (execution : WorkflowExecution)

/-- How an attempt at a node ends, if it is made. -/
def nodeAttempt (used : Nat) : Except BaseExn (Dict Json) :=
  attemptNode env.L env.T env.organizationId env.agentId node execution (env.services index used)

/-- `_execute_node`, with the number of attempts that were made. -/
def tryNode : Nat × Except BaseExn (Dict Json × Nat) :=
  match maxRetries env.T node with
  | .error exc => (0, .error (.exception exc))
  | .ok retries =>
      if retries < 0 then
        (0, .error (.exception (.other "RuntimeError" "Workflow node execution failed.")))
      else tryAttempts (nodeAttempt env index node execution) retries.toNat 0

theorem tryNode_snd :
    (tryNode env index node execution).2 =
      executeNode env.L env.T (env.services index) env.organizationId env.agentId node
        execution := by
  unfold tryNode executeNode
  cases maxRetries env.T node with
  | error exc => rfl
  | ok retries =>
      show (if retries < 0 then _ else _ : Nat × Except BaseExn (Dict Json × Nat)).2 =
        if retries < 0 then _ else _
      split
      · rfl
      · exact tryAttempts_snd _ _ _

end Node

/-- At most `max(max_retries, 0) + 1` attempts were made, none after one that succeeded, and the
    step has one retry less than attempts. -/
structure Accounted (attempts : Nat) (maxRetries : Int)
    (attempt : Nat → Except BaseExn (Dict Json)) (step : WorkflowStep) : Prop where
  bounded : (attempts : Int) ≤ max maxRetries 0 + 1
  stops : ∀ i < attempts, (∃ output, attempt i = .ok output) → attempts = i + 1
  retries : (step.retries : Int) = attempts - 1

section Accounting

variable {env : WorkflowEnv} {index : Nat} {node : WorkflowNode} {execution : WorkflowExecution}
  {record : Recorded}

theorem retries_of_ok {output : Dict Json} {retries : Nat}
    (h : recordNode env index node execution = .ok record)
    (hok : (tryNode env index node execution).2 = .ok (output, retries)) :
    record.step.retries = retries := by
  rw [tryNode_snd] at hok
  unfold recordNode at h
  rw [hok] at h
  rw [← Except.ok.inj h]

theorem retries_of_error {raised : BaseExn}
    (h : recordNode env index node execution = .ok record)
    (herror : (tryNode env index node execution).2 = .error raised) :
    Caught raised ∧ record.step.retries = 0 := by
  rw [tryNode_snd] at herror
  unfold recordNode at h
  rw [herror] at h
  cases raised with
  | exception exc =>
      rw [← Except.ok.inj h]
      exact ⟨trivial, rfl⟩
  | cancelledError => cases h
  | generatorExit => cases h

/-- **Retries.** The step of a node that is given `maxRetries` retries is accounted for exactly if
    one of the attempts that it may make succeeds, or it may make only one. -/
theorem retryAccounting_iff {limit : Int} (hlimit : maxRetries env.T node = .ok limit)
    (hrecord : recordNode env index node execution = .ok record) :
    Accounted (tryNode env index node execution).1 limit (nodeAttempt env index node execution)
        record.step ↔
      limit = 0 ∨ ∃ i : Nat, (i : Int) ≤ limit ∧
        ∃ output, nodeAttempt env index node execution i = .ok output := by
  by_cases hnegative : limit < 0
  · have htry : tryNode env index node execution =
        (0, .error (.exception (.other "RuntimeError" "Workflow node execution failed."))) := by
      unfold tryNode
      rw [hlimit]
      exact if_pos hnegative
    obtain ⟨-, hretries⟩ := retries_of_error hrecord (congrArg Prod.snd htry)
    refine iff_of_false (fun h => ?_) ?_
    · have hcount := h.retries
      rw [htry, hretries] at hcount
      omega
    · rintro (hzero | ⟨i, hi, -⟩)
      · omega
      · omega
  · obtain ⟨last, hlast', htries⟩ :=
      tryAttempts_last (nodeAttempt env index node execution) limit.toNat 0
    have htry : tryNode env index node execution =
        (last + 1, (nodeAttempt env index node execution last).map fun output =>
          (output, last)) := by
      unfold tryNode
      rw [hlimit]
      simpa only [Nat.zero_add] using (if_neg hnegative).trans htries
    have hlast : Last Caught (nodeAttempt env index node execution) limit.toNat last := by
      simpa only [Nat.zero_add] using hlast'
    have hle := hlast.le
    have hstops : ∀ i < last + 1, (∃ output, nodeAttempt env index node execution i = .ok output) →
        i = last := by
      rintro i hi ⟨output, hok⟩
      by_contra hne
      obtain ⟨raised, hraised, -⟩ := hlast.reached i (by omega)
      rw [hok] at hraised
      cases hraised
    rw [htry]
    cases houtcome : nodeAttempt env index node execution last with
    | ok output =>
        have hok : (tryNode env index node execution).2 = .ok (output, last) := by
          rw [htry, houtcome]
          rfl
        have hretries := retries_of_ok hrecord hok
        refine iff_of_true ⟨by omega, fun i hi hok => by rw [hstops i hi hok], by omega⟩ ?_
        exact .inr ⟨last, by omega, output, houtcome⟩
    | error raised =>
        obtain ⟨hcaught, hretries⟩ : Caught raised ∧ record.step.retries = 0 :=
          retries_of_error hrecord (by rw [htry, houtcome]; rfl)
        -- The last attempt raised, so there was none left.
        have hbound : last = limit.toNat :=
          hlast.ends.resolve_right fun hnot => hnot ⟨raised, houtcome, hcaught⟩
        constructor
        · intro h
          have hcount := h.retries
          dsimp only at hcount
          exact .inl (by omega)
        · rintro (hzero | ⟨i, hi, hok⟩)
          · exact ⟨by omega, fun i hi hok => by rw [hstops i hi hok], by omega⟩
          · have hsame := hstops i (by omega) hok
            rw [hsame, houtcome] at hok
            obtain ⟨output, hok⟩ := hok
            cases hok

end Accounting

/-! ## Lost retries -/

/-- A memory node that may be tried twice. -/
def recallStep : WorkflowNode where
  id := 2
  nodeType := "memory"
  name := "Recall"
  retryPolicy := some [("max_retries", .int 1)]

/-- The memories cannot be read. -/
def lockedEnv : WorkflowEnv :=
  { quietEnv with
    services := fun _ _ => { quietServices with
      retrieveMemories := fun _ _ =>
        .error (.exception (.other "OperationalError" "database is locked")) } }

/-- Both attempts fail, and the step has no retries. -/
theorem recallStep_not_accounted :
    ∃ record, recordNode lockedEnv 1 recallStep (startRun lockedEnv linearWorkflow).execution =
        .ok record ∧
      ¬ Accounted
        (tryNode lockedEnv 1 recallStep (startRun lockedEnv linearWorkflow).execution).1 1
        (nodeAttempt lockedEnv 1 recallStep (startRun lockedEnv linearWorkflow).execution)
        record.step := by
  refine ⟨_, rfl, fun h => ?_⟩
  exact absurd h.retries (by decide)

/-- The memories can be read at the second attempt. -/
def busyEnv : WorkflowEnv :=
  { quietEnv with
    services := fun index used =>
      if used = 0 then lockedEnv.services index used else quietEnv.services index used }

/-- The node fails once and then succeeds, and its step has one retry. -/
theorem recallStep_accounted :
    ∃ record, recordNode busyEnv 1 recallStep (startRun busyEnv linearWorkflow).execution =
        .ok record ∧
      record.step.retries = 1 ∧
      Accounted (tryNode busyEnv 1 recallStep (startRun busyEnv linearWorkflow).execution).1 1
        (nodeAttempt busyEnv 1 recallStep (startRun busyEnv linearWorkflow).execution)
        record.step :=
  ⟨_, rfl, rfl, (retryAccounting_iff rfl rfl).mpr (.inr ⟨1, by decide, _, rfl⟩)⟩

end AgentCorp.Workflows
