/-
  `ToolSandbox` and `ToolExecutor`: the attempts to run one tool call, with all that happens.

  What a tool does when it is called, and what happens while the executor sleeps, are procedures
  on the registry and the rest of the state; they may change both. The log holds every attempt
  and every call of a tool.

  * `executeLoop_spec`: the loop ends at the last attempt that its retry rule allows.
  * `execute_refines`: it does what the loop over the outcomes alone does.
  * `execute_discipline_iff`: when the retries are as disciplined as they should be.
-/
import AgentCorp.Lib.Retry
import AgentCorp.Tools.ToolValidator

namespace AgentCorp.Tools

open AgentCorp.Python

variable {F σ : Type}

/-! ## ToolSandbox -/

/-- A `ToolValidationError`. -/
def toolValidationError (message : String) : ToolRaise :=
  .other (.exception (.other "ToolValidationError" message))

/-- `check_argument_payload_size`, with the size of the arguments as JSON. -/
def checkArgumentPayloadSize (size : Except Exn Nat) (toolName : String) :
    Except ToolRaise Unit :=
  let notSerialisable (text : String) : ToolRaise :=
    toolValidationError
      ("Arguments for tool '" ++ toolName ++ "' are not JSON-serialisable: " ++ text)
  match size with
  | .error (.typeError message) => .error (notSerialisable message)
  | .error (.valueError message) => .error (notSerialisable message)
  | .error exc => .error (.other (.exception exc))
  | .ok size =>
      if 256 * 1024 < size then
        .error (toolValidationError ("Arguments payload for tool '" ++ toolName ++ "' is " ++
          toString size ++ " bytes (limit 262144 bytes)."))
      else .ok ()

mutual

/-- `_depth`: below the limit, the nesting of a value. -/
def nestingDepth : Json → Nat → Nat
  | .dict entries, current =>
      if 5 < current then current else nestingDepthEntries entries (current + 1) current
  | .list items, current =>
      if 5 < current then current else nestingDepthItems items (current + 1) current
  | _, current => current

/-- The greatest depth of some items, or `deepest`. -/
def nestingDepthItems : List Json → Nat → Nat → Nat
  | [], _, deepest => deepest
  | item :: items, current, deepest =>
      nestingDepthItems items current (max deepest (nestingDepth item current))

def nestingDepthEntries : List (String × Json) → Nat → Nat → Nat
  | [], _, deepest => deepest
  | (_, value) :: entries, current, deepest =>
      nestingDepthEntries entries current (max deepest (nestingDepth value current))

end

/-- `check_argument_nesting_depth`. -/
def checkArgumentNestingDepth (arguments : Dict Json) (toolName : String) :
    Except ToolRaise Unit :=
  let depth := nestingDepth (.dict arguments) 0
  if 5 < depth then
    .error (toolValidationError ("Arguments for tool '" ++ toolName ++ "' have nesting depth " ++
      toString depth ++ " (limit 5)."))
  else .ok ()

/-- `check_result_payload_size`. -/
def checkResultPayloadSize (content toolName : String) : Except ToolRaise Unit :=
  let size := content.utf8ByteSize
  if 512 * 1024 < size then
    .error (toolValidationError ("Result from tool '" ++ toolName ++ "' is " ++ toString size ++
      " bytes (limit 524288 bytes). Consider paginating or summarising the tool output."))
  else .ok ()

/-- What `execute_with_timeout` makes of an exception. -/
def timeoutRaise (toolName : String) (timeoutSeconds : Rat) : ToolRaise → ToolRaise
  | .other (.exception (.other "TimeoutError" _)) =>
      .executionError "ToolExecutionTimeoutError" ("Tool '" ++ toolName ++
        "' exceeded timeout of " ++ hundredthsText (roundDigits (min timeoutSeconds 120) 1) ++
        "s.") true
  | .other .cancelledError =>
      .executionError "ToolExecutionCancelledError" ("Tool '" ++ toolName ++ "' was cancelled.")
        false
  | raised => raised

/-! ## What a call meets -/

/-- What a tool returns: a string, or an object by `json.dumps` and `str`. -/
inductive RawResult where
  | str (s : String)
  | object (dumped : Except Exn String) (text : Except Exn String)

/-- The content of a result, by `json_dump_safe`. -/
def RawResult.content : RawResult → Except ToolRaise String
  | .str s => .ok s
  | .object (.ok dumped) _ => .ok dumped
  | .object (.error _) text => text.mapError fun exc => .other (.exception exc)

/-- Everything that the engine calls. `dumpsSize` is the size of `json.dumps` of arguments, and
    `call` one call of a tool, with the timeout of a coroutine. -/
structure ToolHost (F σ : Type) where
  repositories : ToolRepositories F σ
  dumpsSize : Dict Json → Except Exn Nat
  call : F → Dict Json → Proc (ToolState F σ) ToolRaise RawResult
  sleep : Nat → Py (ToolState F σ) Unit

inductive ToolStep where
  | attempt | call
  deriving DecidableEq, Repr

structure ToolEvent where
  step : ToolStep
  callId : String
  toolName : String
  deriving DecidableEq, Repr

structure ToolWorld (F σ : Type) where
  tools : ToolState F σ
  log : List ToolEvent

/-- A procedure that logs nothing. -/
def onTools {ε α : Type} (p : Proc (ToolState F σ) ε α) : Proc (ToolWorld F σ) ε α := fun w =>
  match p.run w.tools with
  | .ok a tools => .ok a { w with tools := tools }
  | .error e tools => .error e { w with tools := tools }

def logStep {ε : Type} (step : ToolStep) (request : ToolRequest) : Proc (ToolWorld F σ) ε Unit :=
  modify fun w => { w with log := w.log ++ [⟨step, request.callId, request.toolName⟩] }

/-! ## ToolExecutor -/

namespace ToolHost

variable (host : ToolHost F σ)

/-- One call of the tool. -/
def invoke (entry : ToolEntry F) (request : ToolRequest) :
    Proc (ToolWorld F σ) ToolRaise RawResult := do
  logStep .call request
  let call := host.call entry.fn request.arguments
  onTools (if entry.isAsync then
    call.adaptExcept (timeoutRaise request.toolName entry.metadata.timeoutSeconds) else call)

/-- The guarded part of the loop. -/
def attempt (entry : ToolEntry F) (request : ToolRequest) :
    Proc (ToolWorld F σ) ToolRaise String := do
  logStep .attempt request
  Proc.ofExcept (checkArgumentPayloadSize (host.dumpsSize request.arguments) request.toolName)
  Proc.ofExcept (checkArgumentNestingDepth request.arguments request.toolName)
  let rawResult ← host.invoke entry request
  let content ← Proc.ofExcept rawResult.content
  Proc.ofExcept (checkResultPayloadSize content request.toolName)
  return content

/-- The loop of `ToolExecutor.execute`, with the retries that are left and those used. -/
def executeLoop (entry : ToolEntry F) (request : ToolRequest) :
    Nat → Nat → Py (ToolWorld F σ) ToolCallResult
  | remaining, used => fun w =>
      match (host.attempt entry request).run w with
      | .ok content w' =>
          .ok { callId := request.callId, toolName := request.toolName, success := true
                content := content, retriesUsed := used } w'
      | .error raised w' =>
          match raised.report with
          | .error interruption => .error interruption w'
          | .ok (cls, message, retryable) =>
              let failed : ToolCallResult :=
                { callId := request.callId, toolName := request.toolName, success := false
                  content := message, errorCode := some cls, retriesUsed := used }
              match remaining with
              | 0 => .ok failed w'
              | remaining + 1 =>
                  if retryable then
                    (do onTools (host.sleep (used + 1))
                        executeLoop entry request remaining (used + 1) :
                      Py (ToolWorld F σ) ToolCallResult).run w'
                  else .ok failed w'

def execute (request : ToolRequest) : Py (ToolWorld F σ) ToolCallResult := do
  let entry ← Py.ofResult
    (((← get).tools.registry.getCallable request.toolName).mapError ToolEngineError.toExn)
  host.executeLoop entry request entry.metadata.maxRetries.toNat 0

end ToolHost

/-! ## The log -/

/-- Between two states `attempts` attempts of the request are logged, each with at most one call
    of the tool, and nothing else. -/
def Adds (request : ToolRequest) (w w' : ToolWorld F σ) (attempts : Nat) : Prop :=
  ∃ added : List ToolEvent, w'.log = w.log ++ added ∧
    (∀ event ∈ added, event.callId = request.callId ∧ event.toolName = request.toolName) ∧
    added.countP (·.step = .attempt) = attempts ∧ added.countP (·.step = .call) ≤ attempts

theorem Adds.of_log_eq {request : ToolRequest} {w w' : ToolWorld F σ} (h : w'.log = w.log) :
    Adds request w w' 0 :=
  ⟨[], by rw [h, List.append_nil], by simp, rfl, by simp⟩

theorem Adds.trans {request : ToolRequest} {w₁ w₂ w₃ : ToolWorld F σ} {m n : Nat}
    (h₁ : Adds request w₁ w₂ m) (h₂ : Adds request w₂ w₃ n) : Adds request w₁ w₃ (m + n) := by
  obtain ⟨added₁, hlog₁, hnames₁, hattempts₁, hcalls₁⟩ := h₁
  obtain ⟨added₂, hlog₂, hnames₂, hattempts₂, hcalls₂⟩ := h₂
  refine ⟨added₁ ++ added₂, ?_, ?_, ?_, ?_⟩
  · rw [hlog₂, hlog₁, List.append_assoc]
  · exact List.forall_mem_append.mpr ⟨hnames₁, hnames₂⟩
  · rw [List.countP_append, hattempts₁, hattempts₂]
  · rw [List.countP_append]
    omega

theorem onTools_of_ok {ε α : Type} {p : Proc (ToolState F σ) ε α} {w : ToolWorld F σ} {a : α}
    {tools : ToolState F σ} (h : p.run w.tools = .ok a tools) :
    (onTools p).run w = .ok a { w with tools := tools } := by
  show onTools p w = _
  unfold onTools
  rw [h]

theorem onTools_of_error {ε α : Type} {p : Proc (ToolState F σ) ε α} {w : ToolWorld F σ} {e : ε}
    {tools : ToolState F σ} (h : p.run w.tools = .error e tools) :
    (onTools p).run w = .error e { w with tools := tools } := by
  show onTools p w = _
  unfold onTools
  rw [h]

theorem after_onTools_log {ε α : Type} (p : Proc (ToolState F σ) ε α) (w : ToolWorld F σ) :
    (Proc.after (onTools p) w).log = w.log := by
  cases h : p.run w.tools with
  | ok a tools => rw [Proc.after_of_ok (onTools_of_ok h)]
  | error e tools => rw [Proc.after_of_error (onTools_of_error h)]

theorem onTools_error {ε α : Type} {p : Proc (ToolState F σ) ε α} {w w' : ToolWorld F σ} {e : ε}
    (h : (onTools p).run w = .error e w') :
    Proc.outcome p w.tools = .error e ∧ w'.log = w.log := by
  cases hp : p.run w.tools with
  | ok a tools => cases (onTools_of_ok hp).symm.trans h
  | error e' tools =>
      obtain ⟨rfl, rfl⟩ := EStateM.Result.error.inj ((onTools_of_error hp).symm.trans h)
      exact ⟨Proc.outcome_of_error hp, rfl⟩

namespace ToolHost

variable (host : ToolHost F σ) (entry : ToolEntry F) (request : ToolRequest)

/-- The part of an attempt after its entry in the log calls the tool at most once. -/
theorem after_invoke_log (w : ToolWorld F σ) :
    (Proc.after (host.invoke entry request) w).log =
      w.log ++ [⟨.call, request.callId, request.toolName⟩] := by
  unfold invoke logStep
  rw [Proc.after_bind]
  exact after_onTools_log _ _

/-- An attempt logs itself and at most one call. -/
theorem after_attempt_log (w : ToolWorld F σ) :
    let attempted : ToolEvent := ⟨.attempt, request.callId, request.toolName⟩
    (Proc.after (host.attempt entry request) w).log = w.log ++ [attempted] ∨
      (Proc.after (host.attempt entry request) w).log =
        w.log ++ [attempted, ⟨.call, request.callId, request.toolName⟩] := by
  unfold attempt
  cases checkArgumentPayloadSize (host.dumpsSize request.arguments) request.toolName with
  | error raised => exact .inl rfl
  | ok _ =>
      cases checkArgumentNestingDepth request.arguments request.toolName with
      | error raised => exact .inl rfl
      | ok _ =>
          right
          have hlogged : ∀ (p : Proc (ToolWorld F σ) ToolRaise String),
              Proc.after (logStep .attempt request >>= fun _ => p) w = Proc.after p
                { w with log := w.log ++ [⟨.attempt, request.callId, request.toolName⟩] } :=
            fun _ => rfl
          rw [hlogged, Proc.ofExcept_ok_bind, Proc.ofExcept_ok_bind, Proc.after_bind_of_after_eq,
            after_invoke_log]
          · exact List.append_assoc _ _ _
          · intro raw t
            cases raw.content with
            | error raised => rfl
            | ok content =>
                rw [Proc.ofExcept_ok_bind, Proc.after_bind_of_after_eq (fun _ _ => rfl)]
                exact Proc.after_ofExcept _ _

theorem adds_attempt (w : ToolWorld F σ) :
    Adds request w (Proc.after (host.attempt entry request) w) 1 := by
  rcases host.after_attempt_log entry request w with hlog | hlog
  · exact ⟨_, hlog, by simp⟩
  · exact ⟨_, hlog, by simp⟩

/-! ## The loop -/

/-- The state after an attempt and the wait for the next one, with the retries used so far. -/
def afterWait (used : Nat) (w : ToolWorld F σ) : ToolWorld F σ :=
  Proc.after (onTools (host.sleep (used + 1))) (Proc.after (host.attempt entry request) w)

/-- The state before attempt `i`, if that many are made. -/
def worldAt (used : Nat) (w : ToolWorld F σ) : Nat → ToolWorld F σ
  | 0 => w
  | i + 1 => worldAt (used + 1) (host.afterWait entry request used w) i

/-- How attempt `i` ends, if it is made. -/
def outcomeAt (used : Nat) (w : ToolWorld F σ) (i : Nat) : Except ToolRaise String :=
  Proc.outcome (host.attempt entry request) (host.worldAt entry request used w i)

theorem adds_worldAt (used : Nat) (w : ToolWorld F σ) (i : Nat) :
    Adds request w (host.worldAt entry request used w i) i := by
  induction i generalizing used w with
  | zero => exact .of_log_eq rfl
  | succ i ih =>
      have hwait : Adds request w (host.afterWait entry request used w) 1 :=
        (host.adds_attempt entry request w).trans (.of_log_eq (after_onTools_log _ _))
      have hboth := hwait.trans (ih (used + 1) (host.afterWait entry request used w))
      rwa [Nat.add_comm 1 i] at hboth

theorem adds_attempts (used : Nat) (w : ToolWorld F σ) (i : Nat) :
    Adds request w
      (Proc.after (host.attempt entry request) (host.worldAt entry request used w i)) (i + 1) :=
  (host.adds_worldAt entry request used w i).trans (host.adds_attempt entry request _)

end ToolHost

/-- The code retries after it. -/
def ToolRaise.Retried (raised : ToolRaise) : Prop :=
  ∃ cls message, raised.report = .ok (cls, message, true)

/-- What the loop makes of the outcome of its last attempt. -/
def ToolRequest.resultOf (request : ToolRequest) (used : Nat) :
    Except ToolRaise String → Except BaseExn ToolCallResult
  | .ok content =>
      .ok { callId := request.callId, toolName := request.toolName, success := true
            content := content, retriesUsed := used }
  | .error raised => do
      let (cls, message, _) ← raised.report
      return { callId := request.callId, toolName := request.toolName, success := false
               content := message, errorCode := some cls, retriesUsed := used }

namespace ToolHost

variable (host : ToolHost F σ) (entry : ToolEntry F) (request : ToolRequest)

/-- The loop ends with the outcome of its last attempt. -/
def EndsAt (remaining used : Nat) (w : ToolWorld F σ) (last : Nat) : Prop :=
  (host.executeLoop entry request remaining used).run w =
    (Proc.ofExcept (request.resultOf (used + last) (host.outcomeAt entry request used w last))).run
      (Proc.after (host.attempt entry request) (host.worldAt entry request used w last))

/-- The wait after attempt `i` raises. -/
def WakesAt (remaining used : Nat) (w : ToolWorld F σ) (i : Nat) : Prop :=
  ∃ raised w', (host.executeLoop entry request remaining used).run w = .error raised w' ∧
    (onTools (host.sleep (used + i + 1))).run
      (Proc.after (host.attempt entry request) (host.worldAt entry request used w i)) =
        .error raised w'

/-- The loop at an attempt that is not repeated. -/
theorem executeLoop_of_not_again {remaining used : Nat} {w : ToolWorld F σ}
    (h : remaining = 0 ∨ ¬ Retry.Again ToolRaise.Retried (host.outcomeAt entry request used w) 0) :
    host.EndsAt entry request remaining used w 0 := by
  show host.executeLoop entry request remaining used w =
    (Proc.ofExcept (request.resultOf used (Proc.outcome (host.attempt entry request) w))).run
      (Proc.after (host.attempt entry request) w)
  cases houtcome : Proc.outcome (host.attempt entry request) w with
  | ok content =>
      have hrun := Proc.run_of_outcome houtcome
      unfold executeLoop
      rw [hrun]
      rfl
  | error raised =>
      have hrun := Proc.run_of_outcome_error houtcome
      unfold executeLoop
      rw [hrun]
      cases hreport : raised.report with
      | error interruption => simp [ToolRequest.resultOf, hreport, Proc.ofExcept]
      | ok report =>
          have hlast : remaining = 0 ∨ ¬ report.2.2 = true := by
            refine h.imp_right fun hagain hretryable => hagain ⟨raised, houtcome, ?_⟩
            exact ⟨report.1, report.2.1, by rw [hreport, ← hretryable]⟩
          cases remaining with
          | zero => simp [ToolRequest.resultOf, hreport, Proc.ofExcept]
          | succ remaining =>
              have hretryable := hlast.resolve_left (Nat.succ_ne_zero remaining)
              simp [ToolRequest.resultOf, hreport, Proc.ofExcept, hretryable]

/-- The loop at an attempt that is repeated. -/
theorem executeLoop_of_again {remaining used : Nat} {w : ToolWorld F σ}
    (h : Retry.Again ToolRaise.Retried (host.outcomeAt entry request used w) 0) :
    (host.executeLoop entry request (remaining + 1) used).run w =
      (onTools (host.sleep (used + 1)) >>= fun _ =>
        host.executeLoop entry request remaining (used + 1)).run
          (Proc.after (host.attempt entry request) w) := by
  obtain ⟨raised, hraised, cls, message, hreport⟩ := h
  have hrun : (host.attempt entry request).run w =
      .error raised (Proc.after (host.attempt entry request) w) :=
    Proc.run_of_outcome_error hraised
  show host.executeLoop entry request (remaining + 1) used w = _
  conv_lhs => unfold executeLoop
  rw [hrun]
  simp [hreport]

/-- The loop after an attempt that is repeated and a wait that returns. -/
theorem executeLoop_of_wait (remaining : Nat) {used : Nat} {w : ToolWorld F σ}
    (h : Retry.Again ToolRaise.Retried (host.outcomeAt entry request used w) 0)
    (hwait : (onTools (host.sleep (used + 1))).run (Proc.after (host.attempt entry request) w) =
      .ok () (host.afterWait entry request used w)) :
    (host.executeLoop entry request (remaining + 1) used).run w =
      (host.executeLoop entry request remaining (used + 1)).run
        (host.afterWait entry request used w) := by
  rw [host.executeLoop_of_again entry request h, Proc.run_bind_of_ok hwait]

theorem outcome_of_endsAt {remaining used last : Nat} {w : ToolWorld F σ}
    (h : host.EndsAt entry request remaining used w last) :
    Proc.outcome (host.executeLoop entry request remaining used) w =
      request.resultOf (used + last) (host.outcomeAt entry request used w last) := by
  unfold Proc.outcome
  rw [h]
  cases request.resultOf (used + last) (host.outcomeAt entry request used w last) <;> rfl

/-- **The loop.** It ends at the last attempt that the retry rule allows, unless a wait before
    that raises. -/
theorem executeLoop_spec (remaining used : Nat) (w : ToolWorld F σ) :
    let outcomes := host.outcomeAt entry request used w
    (∃ last, Retry.Last ToolRaise.Retried outcomes remaining last ∧
        host.EndsAt entry request remaining used w last) ∨
      ∃ i < remaining, Retry.Reached ToolRaise.Retried outcomes (i + 1) ∧
        host.WakesAt entry request remaining used w i := by
  intro outcomes
  induction remaining generalizing used w with
  | zero =>
      exact .inl ⟨0, Retry.last_zero (.inl rfl),
        host.executeLoop_of_not_again entry request (.inl rfl)⟩
  | succ remaining ih =>
      by_cases hfirst : Retry.Again ToolRaise.Retried (host.outcomeAt entry request used w) 0
      · cases hsleep : (onTools (host.sleep (used + 1))).run
            (Proc.after (host.attempt entry request) w) with
        | error raised w' =>
            refine .inr ⟨0, by omega, ?_, raised, w', ?_, hsleep⟩
            · exact Retry.reached_succ.mpr ⟨hfirst, Retry.reached_zero⟩
            · rw [host.executeLoop_of_again entry request hfirst, Proc.run_bind_of_error hsleep]
        | ok _ w' =>
            have hwait : host.afterWait entry request used w = w' := Proc.after_of_ok hsleep
            rw [← hwait] at hsleep
            have hrun := host.executeLoop_of_wait entry request remaining hfirst hsleep
            rcases ih (used + 1) (host.afterWait entry request used w) with
              ⟨last, hlast, hends⟩ | ⟨i, hi, hreached, raised, w'', hraise, hwake⟩
            · refine .inl ⟨last + 1, hlast.succ hfirst, ?_⟩
              unfold EndsAt at hends ⊢
              rw [hrun, hends, Nat.add_right_comm]
              rfl
            · refine .inr ⟨i + 1, by omega, Retry.reached_succ.mpr ⟨hfirst, hreached⟩,
                raised, w'', hrun.trans hraise, ?_⟩
              rw [Nat.add_right_comm used 1 i] at hwake
              exact hwake
      · exact .inl ⟨0, Retry.last_zero (.inr hfirst),
          host.executeLoop_of_not_again entry request (.inr hfirst)⟩

end ToolHost

/-! ### The loop over the outcomes alone -/

section Outcomes

variable {request : ToolRequest} {env : ToolEnv} {call : ToolCallRequest}

theorem executeFrom_of_not_retried (hid : call.callId = request.callId)
    (hname : call.toolName = request.toolName) {remaining used : Nat}
    (h : remaining = 0 ∨ ∀ raised, env.attempt call used = .error raised → ¬ raised.Retried) :
    executeFrom env call remaining used = request.resultOf used (env.attempt call used) := by
  unfold executeFrom ToolRequest.resultOf
  rw [hid, hname]
  cases hattempt : env.attempt call used with
  | ok content => rfl
  | error raised =>
      dsimp only
      cases hreport : raised.report with
      | error interruption => rfl
      | ok report =>
          have hlast : remaining = 0 ∨ ¬ report.2.2 = true := by
            refine h.imp_right fun hretried hretryable => hretried raised hattempt ?_
            exact ⟨report.1, report.2.1, by rw [hreport, ← hretryable]⟩
          cases remaining with
          | zero => rfl
          | succ remaining =>
              have hretryable := hlast.resolve_left (Nat.succ_ne_zero remaining)
              show (if report.2.2 = true then _ else _) = _
              rw [if_neg hretryable]
              rfl

theorem executeFrom_of_retried {raised : ToolRaise} {used : Nat}
    (hattempt : env.attempt call used = .error raised) (h : raised.Retried) (remaining : Nat) :
    executeFrom env call (remaining + 1) used = executeFrom env call remaining (used + 1) := by
  obtain ⟨cls, message, hreport⟩ := h
  conv_lhs => unfold executeFrom
  rw [hattempt]
  dsimp only
  rw [hreport]
  rfl

end Outcomes

namespace ToolHost

variable (host : ToolHost F σ) (entry : ToolEntry F) (request : ToolRequest)

/-- If every wait returns, the loop does what the one over the outcomes does. -/
theorem execute_refines {env : ToolEnv} {call : ToolCallRequest}
    (hid : call.callId = request.callId) (hname : call.toolName = request.toolName)
    (hsleep : ∀ count tools, ∃ tools', (host.sleep count).run tools = .ok () tools')
    (remaining used : Nat) (w : ToolWorld F σ)
    (henv : ∀ i, env.attempt call (used + i) = host.outcomeAt entry request used w i) :
    Proc.outcome (host.executeLoop entry request remaining used) w =
      executeFrom env call remaining used := by
  have hattempt : env.attempt call used = host.outcomeAt entry request used w 0 := henv 0
  induction remaining generalizing used w with
  | zero =>
      rw [host.outcome_of_endsAt entry request
        (host.executeLoop_of_not_again entry request (.inl rfl)), ← hattempt]
      exact (executeFrom_of_not_retried hid hname (.inl rfl)).symm
  | succ remaining ih =>
      by_cases hfirst : Retry.Again ToolRaise.Retried (host.outcomeAt entry request used w) 0
      · obtain ⟨tools', htools⟩ := hsleep (used + 1)
          (Proc.after (host.attempt entry request) w).tools
        have hwait : (onTools (host.sleep (used + 1))).run
            (Proc.after (host.attempt entry request) w) =
              .ok () (host.afterWait entry request used w) := by
          rw [afterWait, Proc.after_of_ok (onTools_of_ok htools), onTools_of_ok htools]
        rw [Proc.outcome_congr (host.executeLoop_of_wait entry request remaining hfirst hwait)]
        obtain ⟨raised, hraised, hretried⟩ := hfirst
        rw [executeFrom_of_retried (hattempt.trans hraised) hretried]
        have hrest : ∀ i, env.attempt call (used + 1 + i) =
            host.outcomeAt entry request (used + 1) (host.afterWait entry request used w) i := by
          intro i
          rw [Nat.add_right_comm]
          exact henv (i + 1)
        exact ih (used + 1) _ hrest (hrest 0)
      · rw [host.outcome_of_endsAt entry request
          (host.executeLoop_of_not_again entry request (.inr hfirst)), ← hattempt]
        refine (executeFrom_of_not_retried hid hname (.inr fun raised hraised hretried => ?_)).symm
        exact hfirst ⟨raised, hattempt.symm.trans hraised, hretried⟩

end ToolHost

/-! ## Retry discipline -/

namespace ToolRaise

/-- A `ToolValidationError`. -/
def Invalid (raised : ToolRaise) : Prop :=
  ∃ message, raised = toolValidationError message

/-- Another attempt may be made after it: an `Exception` that is neither a validation error nor
    an execution error that is not retryable. -/
def MayRetry (raised : ToolRaise) : Prop :=
  raised.Retried ∧ ¬ raised.Invalid

/-- The name of its class. -/
def className : ToolRaise → String
  | .executionError cls _ _ => cls
  | .other (.exception exc) => exc.className
  | .other .cancelledError => "CancelledError"
  | .other .generatorExit => "GeneratorExit"

/-- The classes of the engine outside of `ToolExecutionError`. -/
def engineClasses : List String :=
  ["ToolEngineError", "ToolNotFoundError", "ToolDisabledError", "ToolPermissionDeniedError",
    "ToolValidationError", "ToolSerializationError"]

/-- The name of its class, where exceptions from outside the engine are wrapped. -/
def engineClassName (raised : ToolRaise) : String :=
  match raised with
  | .executionError cls _ _ => cls
  | .other _ =>
      if raised.className ∈ engineClasses then raised.className else "ToolExecutionFailedError"

end ToolRaise

/-- Attempt `i` is permitted: after each one before it another may be made. -/
def Permitted (outcomes : Nat → Except ToolRaise String) (i : Nat) : Prop :=
  Retry.Reached ToolRaise.MayRetry outcomes i

/-- What is to hold of a call after some attempts, with the code that an exception is reported
    under. -/
structure Disciplined (codeOf : ToolRaise → String) (maxRetries : Nat)
    (outcomes : Nat → Except ToolRaise String) (attempts : Nat) (result : ToolCallResult) :
    Prop where
  bound : attempts ≤ maxRetries + 1
  count : result.retriesUsed + 1 = attempts
  permitted : ∀ i < attempts, Permitted outcomes i
  success : result.success = true ↔
    ∃ i ≤ maxRetries, Permitted outcomes i ∧ ∃ content, outcomes i = .ok content
  errorCode : result.success = false → ∃ raised,
    outcomes (attempts - 1) = .error raised ∧ result.errorCode = some (codeOf raised)

/-- No attempt that another could follow ends in a validation error, and the last one that the
    bound allows in no exception that is wrapped and should be reported under its own code. -/
structure NoneReclassified (codeOf : ToolRaise → String) (maxRetries : Nat)
    (outcomes : Nat → Except ToolRaise String) : Prop where
  valid : ∀ i < maxRetries, Permitted outcomes i → ∀ raised, outcomes i = .error raised →
    ¬ raised.Invalid
  code : Permitted outcomes maxRetries →
    ∀ exc, outcomes maxRetries = .error (.other (.exception exc)) →
      codeOf (.other (.exception exc)) = "ToolExecutionFailedError"

theorem ToolRaise.Invalid.retried {raised : ToolRaise} (h : raised.Invalid) : raised.Retried := by
  obtain ⟨message, rfl⟩ := h
  exact ⟨_, _, rfl⟩

/-- What is reported is an execution error, or wrapped and retried. -/
theorem ToolRaise.report_ok {raised : ToolRaise} {cls message : String} {retryable : Bool}
    (h : raised.report = .ok (cls, message, retryable)) :
    raised = .executionError cls message retryable ∨
      raised.Retried ∧ cls = "ToolExecutionFailedError" ∧
        ∃ exc, raised = .other (.exception exc) := by
  cases raised with
  | executionError cls' message' retryable' =>
      obtain ⟨rfl, rfl, rfl⟩ : cls' = cls ∧ message' = message ∧ retryable' = retryable := by
        simpa [report] using h
      exact .inl rfl
  | other base =>
      cases base with
      | exception exc =>
          obtain ⟨rfl, -, -⟩ : "ToolExecutionFailedError" = cls ∧ _ := by
            simpa [report] using h
          exact .inr ⟨⟨_, _, rfl⟩, rfl, exc, rfl⟩
      | cancelledError => cases h
      | generatorExit => cases h

/-- What a result says of the outcome it is made of. -/
theorem resultOf_ok {request : ToolRequest} {used : Nat} {outcome : Except ToolRaise String}
    {result : ToolCallResult} (h : request.resultOf used outcome = .ok result) :
    result.retriesUsed = used ∧
      ((∃ content, outcome = .ok content ∧ result.success = true) ∨
        ∃ raised cls message retryable, outcome = .error raised ∧
          raised.report = .ok (cls, message, retryable) ∧
          result.success = false ∧ result.errorCode = some cls) := by
  cases outcome with
  | ok content =>
      obtain rfl := Except.ok.inj h
      exact ⟨rfl, .inl ⟨content, rfl, rfl⟩⟩
  | error raised =>
      obtain ⟨⟨cls, message, retryable⟩, hreport, h⟩ := Proc.bind_ok h
      obtain rfl := Except.ok.inj h
      exact ⟨rfl, .inr ⟨raised, cls, message, retryable, rfl, hreport, rfl, rfl⟩⟩

theorem resultOf_error {request : ToolRequest} {used : Nat} {outcome : Except ToolRaise String}
    {raised : BaseExn} (h : request.resultOf used outcome = .error raised) :
    (∀ exc, raised ≠ .exception exc) ∧ outcome = .error (.other raised) := by
  cases outcome with
  | ok content => cases h
  | error other =>
      cases other with
      | executionError cls message retryable => cases h
      | other base =>
          cases base with
          | exception exc => cases h
          | cancelledError =>
              obtain rfl := Except.error.inj h
              exact ⟨fun exc => by simp, rfl⟩
          | generatorExit =>
              obtain rfl := Except.error.inj h
              exact ⟨fun exc => by simp, rfl⟩

section Discipline

variable {codeOf : ToolRaise → String} {maxRetries last : Nat}
  {outcomes : Nat → Except ToolRaise String} {request : ToolRequest} {result : ToolCallResult}

theorem Permitted.reached {i : Nat} (h : Permitted outcomes i) :
    Retry.Reached ToolRaise.Retried outcomes i :=
  h.mono fun _ => And.left

theorem permitted_of_reached (hvalid : NoneReclassified codeOf maxRetries outcomes) {i : Nat}
    (hi : i ≤ maxRetries) (h : Retry.Reached ToolRaise.Retried outcomes i) :
    Permitted outcomes i := by
  refine h.restrict fun j hj hpermitted hagain => ?_
  obtain ⟨raised, hraised, hretried⟩ := hagain
  exact ⟨raised, hraised, hretried, hvalid.valid j (by omega) hpermitted raised hraised⟩

theorem Disciplined.noneReclassified (h : Disciplined codeOf maxRetries outcomes (last + 1) result)
    (hlast : Retry.Last ToolRaise.Retried outcomes maxRetries last)
    (hresult : request.resultOf last (outcomes last) = .ok result) :
    NoneReclassified codeOf maxRetries outcomes := by
  constructor
  · intro i hi hpermitted raised hraised hinvalid
    have hle := hlast.reached_le (by omega) hpermitted.reached
    have hagain : Retry.Again ToolRaise.Retried outcomes i := ⟨raised, hraised, hinvalid.retried⟩
    have hlt : i < last := by
      rcases Nat.lt_or_eq_of_le hle with hlt | rfl
      · exact hlt
      · rcases hlast.ends with hbound | hends
        · omega
        · exact absurd hagain hends
    -- so the next attempt is made, which nothing permits
    obtain ⟨raised', hraised', hmay⟩ := h.permitted (i + 1) (by omega) i (by omega)
    obtain rfl := Except.error.inj (hraised.symm.trans hraised')
    exact hmay.2 hinvalid
  · intro hpermitted exc hraised
    obtain rfl : last = maxRetries :=
      Nat.le_antisymm hlast.le (hlast.reached_le le_rfl hpermitted.reached)
    rw [hraised] at hresult
    obtain rfl := Except.ok.inj hresult
    obtain ⟨raised, hraised', hcode⟩ := h.errorCode rfl
    obtain rfl := Except.error.inj (hraised.symm.trans hraised')
    exact (Option.some.inj hcode).symm

theorem NoneReclassified.disciplined (h : NoneReclassified codeOf maxRetries outcomes)
    (hcodeOf : ∀ cls message retryable, codeOf (.executionError cls message retryable) = cls)
    (hlast : Retry.Last ToolRaise.Retried outcomes maxRetries last)
    (hresult : request.resultOf last (outcomes last) = .ok result) :
    Disciplined codeOf maxRetries outcomes (last + 1) result := by
  obtain ⟨hused, hcases⟩ := resultOf_ok hresult
  have hpermitted : Permitted outcomes last := permitted_of_reached h hlast.le hlast.reached
  refine ⟨Nat.succ_le_succ hlast.le, by rw [hused], fun i hi => hpermitted.of_le (by omega), ?_, ?_⟩
  · constructor
    · intro hsuccess
      rcases hcases with ⟨content, hcontent, -⟩ | ⟨_, _, _, _, -, -, hfailed, -⟩
      · exact ⟨last, hlast.le, hpermitted, content, hcontent⟩
      · rw [hsuccess] at hfailed
        cases hfailed
    · intro ⟨i, hi, hreachable, hok⟩
      obtain ⟨content, hcontent⟩ := hlast.succeeds_iff.mpr ⟨i, hi, hok, hreachable.reached⟩
      rcases hcases with ⟨_, -, hsuccess⟩ | ⟨raised, _, _, _, hraised, -, -, -⟩
      · exact hsuccess
      · cases hcontent.symm.trans hraised
  · intro hfailed
    rcases hcases with
      ⟨_, -, hsuccess⟩ | ⟨raised, cls, message, retryable, hraised, hreport, -, hcode⟩
    · rw [hsuccess] at hfailed
      cases hfailed
    · refine ⟨raised, hraised, ?_⟩
      rw [hcode]
      rcases ToolRaise.report_ok hreport with rfl | ⟨hretried, rfl, exc, rfl⟩
      · rw [hcodeOf]
      · obtain rfl : last = maxRetries :=
          hlast.ends.resolve_right (not_not.mpr ⟨_, hraised, hretried⟩)
        rw [h.code hpermitted exc hraised]

end Discipline

/-! ## execute -/

namespace ToolHost

variable {host : ToolHost F σ} {entry : ToolEntry F} {request : ToolRequest} {w : ToolWorld F σ}

theorem run_execute (hentry : w.tools.registry.lookup request.toolName = some entry) :
    (host.execute request).run w =
      (host.executeLoop entry request entry.metadata.maxRetries.toNat 0).run w := by
  have hget : (w.tools.registry.getCallable request.toolName).mapError ToolEngineError.toExn =
      .ok entry := by
    rw [ToolRegistry.getCallable_ok hentry]
    rfl
  unfold execute
  rw [EStateM.run_bind]
  simp only [EStateM.run_get]
  rw [hget]
  rfl

/-- An attempt or a wait of the call raises what is no `Exception`, or the wait anything. -/
def InterruptedBy (outcomes : Nat → Except ToolRaise String) (attempts : Nat) (raised : BaseExn) :
    Prop :=
  ((∀ exc, raised ≠ .exception exc) ∧ outcomes (attempts - 1) = .error (.other raised)) ∨
    ∃ tools, Proc.outcome (host.sleep attempts) tools = .error raised

variable (host) in
theorem execute_cases (hentry : w.tools.registry.lookup request.toolName = some entry) :
    let maxRetries := entry.metadata.maxRetries.toNat
    let outcomes := host.outcomeAt entry request 0 w
    (∃ last result w', Retry.Last ToolRaise.Retried outcomes maxRetries last ∧
        request.resultOf last (outcomes last) = .ok result ∧
        (host.execute request).run w = .ok result w' ∧ Adds request w w' (last + 1)) ∨
      ∃ raised w', ∃ attempts ≤ maxRetries + 1, Adds request w w' attempts ∧
        (host.execute request).run w = .error raised w' ∧
        host.InterruptedBy outcomes attempts raised := by
  intro maxRetries outcomes
  rw [run_execute hentry]
  rcases host.executeLoop_spec entry request maxRetries 0 w with
    ⟨last, hlast, hends⟩ | ⟨i, hi, -, raised, w', hrun, hwake⟩
  · have hadds := host.adds_attempts entry request 0 w last
    unfold EndsAt at hends
    rw [Nat.zero_add] at hends
    cases hresult : request.resultOf last (outcomes last) with
    | ok result =>
        rw [hresult] at hends
        exact .inl ⟨last, result, _, hlast, hresult, hends, hadds⟩
    | error raised =>
        rw [hresult] at hends
        refine .inr ⟨raised, _, last + 1, Nat.succ_le_succ hlast.le, hadds, hends, .inl ?_⟩
        exact resultOf_error hresult
  · obtain ⟨hraised, hlog⟩ := onTools_error hwake
    rw [Nat.zero_add] at hraised
    refine .inr ⟨raised, w', i + 1, by omega, ?_, hrun, .inr ⟨_, hraised⟩⟩
    exact (host.adds_attempts entry request 0 w i).trans (.of_log_eq hlog)

end ToolHost

section Example

/-- A host where every tool answers, with the size of the arguments. -/
def echoHost (size : Nat) : ToolHost Unit Unit where
  repositories := openRepositories
  dumpsSize _ := .ok size
  call _ _ := pure (.str "hi")
  sleep _ := pure ()

/-- A request with an argument that is nested too deeply. -/
def deepRequest : ToolRequest :=
  { helloRequest with
    arguments := [("message", .str "hi"),
      ("extra", .list [.list [.list [.list [.list [.str "x"]]]]])] }

def echoEntry : ToolEntry Unit := ⟨echoMetadata, (), true⟩

/-- A host whose tool loses its connection in the first call and answers from then on. -/
def flakyHost : ToolHost Unit Nat where
  repositories :=
    { getByName := fun name => pure (some ⟨7, name⟩)
      getAssignment := fun agentId toolId => pure (some ⟨agentId, toolId⟩) }
  dumpsSize _ := .ok 17
  call _ _ := do
    let s ← get
    set { s with state := s.state + 1 }
    if s.state = 0 then
      throw (.other (.exception (.other "ConnectionResetError" "Connection reset by peer")))
    else return .str "hi"
  sleep _ := pure ()

end Example

/-- It is attempted twice. -/
theorem deepRequest_retried :
    let w : ToolWorld Unit Unit := ⟨echoState, []⟩
    let outcomes := (echoHost 41).outcomeAt echoEntry deepRequest 0 w
    ∃ result w', ((echoHost 41).execute deepRequest).run w = .ok result w' ∧
      Adds deepRequest w w' 2 ∧ (∃ raised, outcomes 0 = .error raised ∧ raised.Invalid) ∧
      ∀ codeOf, ¬ Disciplined codeOf 1 outcomes 2 result := by
  intro w outcomes
  have hfirst : outcomes 0 = .error (toolValidationError
      "Arguments for tool 'echo' have nesting depth 6 (limit 5).") := by rfl
  refine ⟨_, _, rfl, ⟨_, rfl, by decide⟩, ⟨_, hfirst, _, rfl⟩, fun codeOf h => ?_⟩
  obtain ⟨raised, hraised, hmay⟩ := h.permitted 1 (by omega) 0 (by omega)
  obtain rfl := Except.error.inj (hfirst.symm.trans hraised)
  exact hmay.2 ⟨_, rfl⟩

/-- **Retry discipline.** A call that returns is as disciplined as it should be exactly if no
    validation error ends an attempt that it permits, and nothing reclassified the last one. This
    holds where every exception is to be reported under its class, and where those from outside
    the engine are wrapped. A call that does not return is interrupted, within the same bound. -/
theorem execute_discipline_iff {host : ToolHost F σ} {entry : ToolEntry F} {request : ToolRequest}
    {w : ToolWorld F σ} (hentry : w.tools.registry.lookup request.toolName = some entry) :
    let maxRetries := entry.metadata.maxRetries.toNat
    let outcomes := host.outcomeAt entry request 0 w
    (∃ result w' attempts, (host.execute request).run w = .ok result w' ∧
        Adds request w w' attempts ∧
        (Disciplined ToolRaise.className maxRetries outcomes attempts result ↔
          NoneReclassified ToolRaise.className maxRetries outcomes) ∧
        (Disciplined ToolRaise.engineClassName maxRetries outcomes attempts result ↔
          NoneReclassified ToolRaise.engineClassName maxRetries outcomes)) ∨
      ∃ raised w', ∃ attempts ≤ maxRetries + 1, (host.execute request).run w = .error raised w' ∧
        Adds request w w' attempts ∧ host.InterruptedBy outcomes attempts raised := by
  intro maxRetries outcomes
  rcases ToolHost.execute_cases host hentry with
    ⟨last, result, w', hlast, hresult, hrun, hadds⟩ | ⟨raised, w', attempts, hle, hadds, hrun, hby⟩
  · refine .inl ⟨result, w', last + 1, hrun, hadds, ?_, ?_⟩
    · exact ⟨fun h => h.noneReclassified hlast hresult,
        fun h => h.disciplined (fun _ _ _ => rfl) hlast hresult⟩
    · exact ⟨fun h => h.noneReclassified hlast hresult,
        fun h => h.disciplined (fun _ _ _ => rfl) hlast hresult⟩
  · exact .inr ⟨raised, w', attempts, hle, hrun, hadds, hby⟩

/-- The lost connection is retried, and the second call answers. -/
theorem flakyHost_discipline :
    let w : ToolWorld Unit Nat := ⟨⟨echoState.registry, 0⟩, []⟩
    let outcomes := flakyHost.outcomeAt echoEntry helloRequest 0 w
    ∃ result w' attempts, (flakyHost.execute helloRequest).run w = .ok result w' ∧
      result.success = true ∧ result.retriesUsed = 1 ∧ Adds helloRequest w w' attempts ∧
      Disciplined ToolRaise.className 1 outcomes attempts result := by
  intro w outcomes
  have hentry : w.tools.registry.lookup helloRequest.toolName = some echoEntry := rfl
  have hfirst : outcomes 0 = .error
      (.other (.exception (.other "ConnectionResetError" "Connection reset by peer"))) := rfl
  have hsecond : outcomes 1 = .ok "hi" := rfl
  have hanswer : Proc.outcome (flakyHost.execute helloRequest) w =
      .ok { callId := "call_1", toolName := "echo", success := true, content := "hi",
            retriesUsed := 1 } := by decide +kernel
  replace hanswer := Proc.run_of_outcome hanswer
  have hnone : NoneReclassified ToolRaise.className 1 outcomes := by
    constructor
    · rintro i hi - raised hraised ⟨message, hinvalid⟩
      obtain rfl : i = 0 := by omega
      obtain rfl := Except.error.inj (hfirst.symm.trans hraised)
      simp [toolValidationError] at hinvalid
    · intro _ exc hraised
      cases hsecond.symm.trans hraised
  rcases @execute_discipline_iff _ _ flakyHost _ _ _ hentry with
    ⟨result, w', attempts, hrun, hadds, hiff, -⟩ | ⟨raised, w', attempts, -, hrun, -⟩
  · obtain ⟨rfl, rfl⟩ := EStateM.Result.ok.inj (hanswer.symm.trans hrun)
    exact ⟨_, _, attempts, hrun, rfl, rfl, hadds, hiff.mpr hnone⟩
  · cases hanswer.symm.trans hrun

end AgentCorp.Tools
