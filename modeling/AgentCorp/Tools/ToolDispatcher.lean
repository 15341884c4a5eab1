/-
  `ToolDispatcher` and `ToolExecutionService.execute_batch`: a batch of calls, with all that
  happens while it runs.

  Between and within the calls the repositories and the tools may change everything, and raise
  any `Exception`.

  * `dispatch_total`: the dispatcher raises nothing itself.
  * `dispatch_refused`: a refused request calls no tool.
  * `executeBatch_total`: every batch has its results, in order.
-/
import AgentCorp.Lib.InTurn
import AgentCorp.Tools.ToolExecutor

namespace AgentCorp.Tools

open AgentCorp.Python

variable {F σ : Type}

/-! ## The code -/

/-- The context that `execute_batch` writes into a request. -/
def ToolRequest.inContext (request : ToolRequest) (organizationId agentId conversationId : Int) :
    ToolRequest :=
  { request with
    agentId := some agentId
    organizationId := some organizationId
    conversationId := some conversationId }

namespace ToolHost

section Code

variable (host : ToolHost F σ)

/-- The steps that `ToolDispatcher.dispatch` guards. -/
def dispatchSteps (request : ToolRequest) : Py (ToolWorld F σ) ToolCallResult := do
  Py.ofResult (checkRecursionDepth request.recursionDepth request.toolName)
  let validation ← onTools (validateRequest host.repositories request)
  if validation.valid then host.execute request
  else return {
    callId := request.callId
    toolName := request.toolName
    success := false
    content := (Chat.nonempty validation.errorMessage).getD "Validation failed."
    errorCode := validation.errorCode }

def dispatch (request : ToolRequest) : Py (ToolWorld F σ) ToolCallResult :=
  tryCatch (host.dispatchSteps request) fun
    | .exception exc => return {
        callId := request.callId
        toolName := request.toolName
        success := false
        content := "An unexpected dispatcher error occurred: " ++ exc.text
        errorCode := some exc.className }
    | raised => throw raised

/-- The loop of `execute_batch`, with the results so far. -/
def batchLoop (organizationId agentId conversationId : Int) :
    List ToolRequest → List ToolCallResult → Bool → Py (ToolWorld F σ) ToolExecutionResult
  | [], results, allSucceeded => return { results := results, allSucceeded := allSucceeded }
  | request :: requests, results, allSucceeded => do
      let result ← host.dispatch (request.inContext organizationId agentId conversationId)
      batchLoop organizationId agentId conversationId requests (results ++ [result])
        (if result.success then allSucceeded else false)

def executeBatch (requests : List ToolRequest) (organizationId agentId conversationId : Int) :
    Py (ToolWorld F σ) ToolExecutionResult :=
  host.batchLoop organizationId agentId conversationId requests [] true

end Code

end ToolHost

/-! ## What is raised -/

/-- `raised` is an `Exception`. -/
def IsException (raised : BaseExn) : Prop :=
  ∃ exc, raised = .exception exc

/-- A tool raises an `Exception`. -/
def ToolRaise.IsException (raised : ToolRaise) : Prop :=
  ∀ base, raised = .other base → Tools.IsException base

/-- The repositories, the tools and the event loop raise nothing but `Exception`s. -/
structure ToolHost.RaisesExceptions (host : ToolHost F σ) : Prop where
  getByName : ∀ name, (host.repositories.getByName name).Raises IsException
  getAssignment : ∀ agentId toolId,
    (host.repositories.getAssignment agentId toolId).Raises IsException
  call : ∀ fn arguments, (host.call fn arguments).Raises ToolRaise.IsException
  sleep : ∀ count, (host.sleep count).Raises IsException

theorem raises_ofResult {α : Type} (r : Except Exn α) :
    (Py.ofResult r : Py σ α).Raises IsException := by
  unfold Py.ofResult
  refine Proc.Raises.ofExcept fun raised hraised => ?_
  cases r with
  | ok a => cases hraised
  | error exc =>
      obtain rfl := Except.error.inj hraised
      exact ⟨exc, rfl⟩

theorem raises_onTools {ε α : Type} {P : ε → Prop} {p : Proc (ToolState F σ) ε α}
    (h : p.Raises P) : (onTools p).Raises P := by
  intro w raised w' hrun
  exact h _ _ _ (Proc.run_of_outcome_error (onTools_error hrun).1)

/-! ### By an attempt -/

/-- A check that raises nothing but wrapped `Exception`s. -/
theorem raises_check {α : Type} {r : Except ToolRaise α}
    (h : ∀ raised, r = .error raised → ∃ exc, raised = .other (.exception exc)) :
    (Proc.ofExcept r : Proc σ ToolRaise α).Raises ToolRaise.IsException := by
  refine Proc.Raises.ofExcept fun raised hraised => ?_
  obtain ⟨exc, rfl⟩ := h raised hraised
  intro base hbase
  obtain rfl := ToolRaise.other.inj hbase
  exact ⟨exc, rfl⟩

theorem checkArgumentPayloadSize_error {size : Except Exn Nat} {toolName : String}
    {raised : ToolRaise} (h : checkArgumentPayloadSize size toolName = .error raised) :
    ∃ exc, raised = .other (.exception exc) := by
  unfold checkArgumentPayloadSize at h
  split at h
  · exact ⟨_, (Except.error.inj h).symm⟩
  · exact ⟨_, (Except.error.inj h).symm⟩
  · exact ⟨_, (Except.error.inj h).symm⟩
  · split at h
    · exact ⟨_, (Except.error.inj h).symm⟩
    · cases h

theorem checkArgumentNestingDepth_error {arguments : Dict Json} {toolName : String}
    {raised : ToolRaise} (h : checkArgumentNestingDepth arguments toolName = .error raised) :
    ∃ exc, raised = .other (.exception exc) := by
  unfold checkArgumentNestingDepth at h
  dsimp only at h
  split at h
  · exact ⟨_, (Except.error.inj h).symm⟩
  · cases h

theorem checkResultPayloadSize_error {content toolName : String} {raised : ToolRaise}
    (h : checkResultPayloadSize content toolName = .error raised) :
    ∃ exc, raised = .other (.exception exc) := by
  unfold checkResultPayloadSize at h
  dsimp only at h
  split at h
  · exact ⟨_, (Except.error.inj h).symm⟩
  · cases h

theorem RawResult.content_error {result : RawResult} {raised : ToolRaise}
    (h : result.content = .error raised) : ∃ exc, raised = .other (.exception exc) := by
  cases result with
  | str text => cases h
  | object dumped text =>
      cases dumped with
      | ok s => cases h
      | error exc =>
          cases text with
          | ok s => cases h
          | error exc' => exact ⟨exc', (Except.error.inj h).symm⟩

theorem ToolRaise.IsException.timeoutRaise {raised : ToolRaise} (h : raised.IsException)
    (toolName : String) (timeoutSeconds : Rat) :
    (timeoutRaise toolName timeoutSeconds raised).IsException := by
  unfold Tools.timeoutRaise
  split
  · exact fun base hbase => ToolRaise.noConfusion hbase
  · exact fun base hbase => ToolRaise.noConfusion hbase
  · exact h

namespace ToolHost

variable {host : ToolHost F σ}

theorem raises_invoke (hraises : host.RaisesExceptions) (entry : ToolEntry F)
    (request : ToolRequest) : (host.invoke entry request).Raises ToolRaise.IsException := by
  unfold invoke
  refine Proc.Raises.bind ?_ fun _ => raises_onTools ?_
  · exact Proc.Raises.modify _
  · have hcall := hraises.call entry.fn request.arguments
    split
    · refine Proc.Raises.adaptExcept fun tools raised tools' hrun => ?_
      exact (hcall tools raised tools' hrun).timeoutRaise _ _
    · exact hcall

theorem raises_attempt (hraises : host.RaisesExceptions) (entry : ToolEntry F)
    (request : ToolRequest) : (host.attempt entry request).Raises ToolRaise.IsException := by
  unfold attempt
  refine Proc.Raises.bind (Proc.Raises.modify _) fun _ => ?_
  refine Proc.Raises.bind (raises_check fun _ => checkArgumentPayloadSize_error) fun _ => ?_
  refine Proc.Raises.bind (raises_check fun _ => checkArgumentNestingDepth_error) fun _ => ?_
  refine Proc.Raises.bind (raises_invoke hraises entry request) fun result => ?_
  refine Proc.Raises.bind (raises_check fun _ => RawResult.content_error) fun content => ?_
  refine Proc.Raises.bind (raises_check fun _ => checkResultPayloadSize_error) fun _ => ?_
  exact Proc.Raises.pure _

variable (host) in
/-- A tool that is gone after its validation. -/
theorem run_execute_of_missing {request : ToolRequest} {w : ToolWorld F σ}
    (h : w.tools.registry.lookup request.toolName = none) :
    ∃ exc, (host.execute request).run w = .error (.exception exc) w := by
  have hget : ∃ exc, (w.tools.registry.getCallable request.toolName).mapError
      ToolEngineError.toExn = .error exc := by
    unfold ToolRegistry.getCallable
    rw [h]
    exact ⟨_, rfl⟩
  obtain ⟨exc, hexc⟩ := hget
  refine ⟨exc, ?_⟩
  unfold execute
  rw [EStateM.run_bind]
  simp only [EStateM.run_get]
  rw [hexc]
  rfl

theorem raises_execute (hraises : host.RaisesExceptions) (request : ToolRequest) :
    (host.execute request).Raises IsException := by
  intro w raised w' hrun
  cases hentry : w.tools.registry.lookup request.toolName with
  | none =>
      obtain ⟨exc, hmissing⟩ := run_execute_of_missing host hentry
      obtain ⟨rfl, -⟩ := EStateM.Result.error.inj (hmissing.symm.trans hrun)
      exact ⟨exc, rfl⟩
  | some entry =>
      rcases execute_cases host hentry with
        ⟨last, result, w'', -, -, hreturned, -⟩ | ⟨raised', w'', attempts, -, -, hraised, hby⟩
      · cases hreturned.symm.trans hrun
      · obtain ⟨rfl, -⟩ := EStateM.Result.error.inj (hraised.symm.trans hrun)
        rcases hby with ⟨hno, houtcome⟩ | ⟨tools, hsleep⟩
        · have hattempt := raises_attempt hraises entry request _ _ _
            (Proc.run_of_outcome_error houtcome)
          exact hattempt raised' rfl
        · exact hraises.sleep attempts _ _ _ (Proc.run_of_outcome_error hsleep)

end ToolHost

/-! ### By a validation -/

/-- A check raises an error of the engine or an `Exception`. -/
def CheckRaise.IsException : CheckRaise → Prop
  | .engine _ => True
  | .raised base => Tools.IsException base

namespace ToolHost

variable {host : ToolHost F σ}

theorem raises_resolveTool (hraises : host.RaisesExceptions) (request : ToolRequest) :
    (resolveTool host.repositories request).Raises CheckRaise.IsException := by
  have hengine : ∀ {α : Type} (error : ToolEngineError),
      (throw (.engine error) : Proc (ToolState F σ) CheckRaise α).Raises CheckRaise.IsException :=
    fun error => Proc.Raises.throw trivial
  unfold resolveTool
  refine Proc.Raises.bind Proc.Raises.get fun tools => ?_
  dsimp only
  split
  · refine Proc.Raises.bind (Proc.Raises.ofExcept fun raised hraised => ?_) fun entry => ?_
    · cases hget : tools.registry.getCallable request.toolName with
      | ok entry =>
          rw [hget] at hraised
          cases hraised
      | error error =>
          rw [hget] at hraised
          obtain rfl := Except.error.inj hraised
          trivial
    · split
      · refine Proc.Raises.bind (Proc.Raises.adaptExcept (hraises.getByName _)) fun row => ?_
        split
        · exact hengine _
        · refine Proc.Raises.bind (Proc.Raises.modify _) fun _ => ?_
          split
          · exact Proc.Raises.pure _
          · refine Proc.Raises.bind (Proc.Raises.adaptExcept (hraises.getAssignment _ _))
              fun assignment => ?_
            split
            · exact hengine _
            · exact Proc.Raises.pure _
      · exact hengine _
  · exact hengine _

theorem raises_validateRequest (hraises : host.RaisesExceptions) (request : ToolRequest) :
    (validateRequest host.repositories request).Raises IsException := by
  have hcheck : (checkRequest host.repositories request).Raises CheckRaise.IsException := by
    unfold checkRequest
    refine Proc.Raises.bind (raises_resolveTool hraises request) fun schema => ?_
    dsimp only
    split
    · exact Proc.Raises.throw trivial
    · exact Proc.Raises.pure _
  intro tools raised tools' hrun
  have hvalidate : validateRequest host.repositories request tools = .error raised tools' := hrun
  unfold validateRequest at hvalidate
  split at hvalidate
  · cases hvalidate
  · cases hvalidate
  · next base tools'' hchecked =>
      obtain ⟨rfl, -⟩ := EStateM.Result.error.inj hvalidate
      exact hcheck _ _ _ hchecked

/-! ## The dispatcher -/

theorem raises_dispatchSteps (hraises : host.RaisesExceptions) (request : ToolRequest) :
    (host.dispatchSteps request).Raises IsException := by
  unfold dispatchSteps
  refine Proc.Raises.bind (raises_ofResult _) fun _ => ?_
  refine Proc.Raises.bind (raises_onTools (raises_validateRequest hraises request))
    fun verdict => ?_
  split
  · exact raises_execute hraises request
  · exact Proc.Raises.pure _

/-- The dispatcher raises no `Exception`. -/
theorem dispatch_total (hraises : host.RaisesExceptions) (request : ToolRequest)
    (w : ToolWorld F σ) :
    ∃ result w', (host.dispatch request).run w = .ok result w' := by
  unfold dispatch
  rw [Proc.run_tryCatch]
  cases hsteps : (host.dispatchSteps request).run w with
  | ok result w' => exact ⟨result, w', rfl⟩
  | error raised w' =>
      obtain ⟨exc, rfl⟩ := raises_dispatchSteps hraises request _ _ _ hsteps
      exact ⟨_, w', rfl⟩

end ToolHost

/-! ### What a call logs and returns -/

/-- A result names its request. -/
def Echoes (request : ToolRequest) (result : ToolCallResult) : Prop :=
  result.callId = request.callId ∧ result.toolName = request.toolName

/-- What is logged between two states names the request. -/
def LogsOwn (request : ToolRequest) (w w' : ToolWorld F σ) : Prop :=
  ∃ added : List ToolEvent, w'.log = w.log ++ added ∧
    ∀ event ∈ added, event.callId = request.callId ∧ event.toolName = request.toolName

section Own

variable {request : ToolRequest} {w w' : ToolWorld F σ}

theorem Adds.logsOwn {attempts : Nat} (h : Adds request w w' attempts) : LogsOwn request w w' := by
  obtain ⟨added, hlog, hnames, -, -⟩ := h
  exact ⟨added, hlog, hnames⟩

theorem logsOwn_of_log_eq (h : w'.log = w.log) : LogsOwn request w w' :=
  ⟨[], by rw [h, List.append_nil], by simp⟩

theorem echoes_resultOf {used : Nat} {outcome : Except ToolRaise String} {result : ToolCallResult}
    (h : request.resultOf used outcome = .ok result) : Echoes request result := by
  cases outcome with
  | ok content =>
      obtain rfl := Except.ok.inj h
      exact ⟨rfl, rfl⟩
  | error raised =>
      obtain ⟨_, -, h⟩ := Proc.bind_ok h
      obtain rfl := Except.ok.inj h
      exact ⟨rfl, rfl⟩

end Own

namespace ToolHost

/-- The recursion limit is exceeded, or the validator does not accept the request. -/
def Refused (host : ToolHost F σ) (request : ToolRequest) (w : ToolWorld F σ) : Prop :=
  5 < request.recursionDepth ∨
    ∀ verdict tools', (validateRequest host.repositories request).run w.tools =
      .ok verdict tools' → verdict.valid = false

/-- What a call of the dispatcher does. -/
structure Dispatches (host : ToolHost F σ) (request : ToolRequest) (result : ToolCallResult)
    (w w' : ToolWorld F σ) : Prop where
  run : (host.dispatch request).run w = .ok result w'
  echoes : Echoes request result
  own : LogsOwn request w w'
  refused : host.Refused request w → w'.log = w.log ∧ result.success = false

variable {host : ToolHost F σ} {request : ToolRequest} {w : ToolWorld F σ}

/-- Executing a request logs its own events, and a result names it. -/
theorem execute_own (host : ToolHost F σ) (request : ToolRequest) (w : ToolWorld F σ) :
    LogsOwn request w (Proc.after (host.execute request) w) ∧
      ∀ result w', (host.execute request).run w = .ok result w' → Echoes request result := by
  cases hentry : w.tools.registry.lookup request.toolName with
  | none =>
      obtain ⟨exc, hmissing⟩ := run_execute_of_missing host hentry
      rw [Proc.after_of_error hmissing]
      refine ⟨logsOwn_of_log_eq rfl, fun result w' hrun => ?_⟩
      cases hmissing.symm.trans hrun
  | some entry =>
      rcases execute_cases host hentry with
        ⟨last, result, w', -, hresult, hrun, hadds⟩ | ⟨raised, w', attempts, -, hadds, hrun, -⟩
      · rw [Proc.after_of_ok hrun]
        refine ⟨hadds.logsOwn, fun result' w'' hrun' => ?_⟩
        obtain ⟨rfl, -⟩ := EStateM.Result.ok.inj (hrun.symm.trans hrun')
        exact echoes_resultOf hresult
      · rw [Proc.after_of_error hrun]
        refine ⟨hadds.logsOwn, fun result' w'' hrun' => ?_⟩
        cases hrun.symm.trans hrun'

/-- The steps for a refused request: nothing is logged, and no result is a success. -/
theorem dispatchSteps_of_refused (h : host.Refused request w) :
    ∃ w', w'.log = w.log ∧
      ((∃ raised, (host.dispatchSteps request).run w = .error raised w') ∨
        ∃ result, (host.dispatchSteps request).run w = .ok result w' ∧
          Echoes request result ∧ result.success = false) := by
  unfold dispatchSteps checkRecursionDepth
  by_cases hdepth : 5 < request.recursionDepth
  · rw [if_pos hdepth, Py.ofResult_error_bind]
    exact ⟨w, rfl, .inl ⟨_, rfl⟩⟩
  · rw [if_neg hdepth, Py.ofResult_ok_bind]
    cases hvalidate : (validateRequest host.repositories request).run w.tools with
    | error raised tools' =>
        exact ⟨{ w with tools := tools' }, rfl,
          .inl ⟨raised, Proc.run_bind_of_error (onTools_of_error hvalidate)⟩⟩
    | ok verdict tools' =>
        have hinvalid := h.resolve_left hdepth verdict tools' hvalidate
        rw [Proc.run_bind_of_ok (onTools_of_ok hvalidate), hinvalid]
        refine ⟨{ w with tools := tools' }, rfl, .inr ⟨_, rfl, ?_⟩⟩
        exact ⟨⟨rfl, rfl⟩, rfl⟩

theorem dispatchSteps_of_accepted (h : ¬ host.Refused request w) :
    ∃ tools', (host.dispatchSteps request).run w =
      (host.execute request).run { w with tools := tools' } := by
  have hdepth : ¬ 5 < request.recursionDepth := fun hdepth => h (.inl hdepth)
  have haccepted : ∃ verdict tools', (validateRequest host.repositories request).run w.tools =
      .ok verdict tools' ∧ verdict.valid = true := by
    by_contra hnone
    refine h (.inr fun verdict tools' hrun => Bool.eq_false_iff.mpr fun hvalid => ?_)
    exact hnone ⟨verdict, tools', hrun, hvalid⟩
  obtain ⟨verdict, tools', hvalidate, hvalid⟩ := haccepted
  refine ⟨tools', ?_⟩
  unfold dispatchSteps checkRecursionDepth
  rw [if_neg hdepth, Py.ofResult_ok_bind, Proc.run_bind_of_ok (onTools_of_ok hvalidate),
    if_pos hvalid]

/-- What the dispatcher makes of what its steps return or raise. -/
theorem dispatch_cases {result : ToolCallResult} {w' : ToolWorld F σ}
    (h : (host.dispatch request).run w = .ok result w') :
    (host.dispatchSteps request).run w = .ok result w' ∨
      (∃ raised, (host.dispatchSteps request).run w = .error raised w') ∧
        Echoes request result ∧ result.success = false := by
  unfold dispatch at h
  rw [Proc.run_tryCatch] at h
  cases hsteps : (host.dispatchSteps request).run w with
  | ok result' w'' =>
      rw [hsteps] at h
      exact .inl h
  | error raised w'' =>
      rw [hsteps] at h
      cases raised with
      | exception exc =>
          obtain ⟨rfl, rfl⟩ := EStateM.Result.ok.inj h
          exact .inr ⟨⟨_, rfl⟩, ⟨rfl, rfl⟩, rfl⟩
      | cancelledError => cases h
      | generatorExit => cases h

theorem dispatch_refused {result : ToolCallResult} {w' : ToolWorld F σ}
    (h : (host.dispatch request).run w = .ok result w') (hrefused : host.Refused request w) :
    w'.log = w.log ∧ Echoes request result ∧ result.success = false := by
  obtain ⟨w'', hlog, hraised | ⟨result', hreturned, hsteps⟩⟩ := dispatchSteps_of_refused hrefused
  · obtain ⟨raised, hraised⟩ := hraised
    rcases dispatch_cases h with hrun | ⟨⟨raised', hrun⟩, hresult⟩
    · cases hraised.symm.trans hrun
    · obtain ⟨-, rfl⟩ := EStateM.Result.error.inj (hraised.symm.trans hrun)
      exact ⟨hlog, hresult⟩
  · rcases dispatch_cases h with hrun | ⟨⟨raised', hrun⟩, -⟩
    · obtain ⟨rfl, rfl⟩ := EStateM.Result.ok.inj (hreturned.symm.trans hrun)
      exact ⟨hlog, hsteps⟩
    · cases hreturned.symm.trans hrun

theorem dispatch_accepted {result : ToolCallResult} {w' : ToolWorld F σ}
    (h : (host.dispatch request).run w = .ok result w') (haccepted : ¬ host.Refused request w) :
    LogsOwn request w w' ∧ Echoes request result := by
  obtain ⟨tools', hsteps⟩ := dispatchSteps_of_accepted haccepted
  have hown := execute_own host request { w with tools := tools' }
  rcases dispatch_cases h with hrun | ⟨⟨raised, hrun⟩, hresult, -⟩
  · have hexecute := hsteps.symm.trans hrun
    rw [Proc.after_of_ok hexecute] at hown
    exact ⟨hown.1, hown.2 result w' hexecute⟩
  · rw [Proc.after_of_error (hsteps.symm.trans hrun)] at hown
    exact ⟨hown.1, hresult⟩

/-- **One call.** -/
theorem dispatches {result : ToolCallResult} {w' : ToolWorld F σ}
    (h : (host.dispatch request).run w = .ok result w') : Dispatches host request result w w' := by
  by_cases hrefused : host.Refused request w
  · obtain ⟨hlog, hechoes, hfailed⟩ := dispatch_refused h hrefused
    exact ⟨h, hechoes, logsOwn_of_log_eq hlog, fun _ => ⟨hlog, hfailed⟩⟩
  · obtain ⟨hown, hechoes⟩ := dispatch_accepted h hrefused
    exact ⟨h, hechoes, hown, fun h' => absurd h' hrefused⟩

/-! ## Batches -/

/-- The loop adds one result for each request. -/
theorem batchLoop_spec (hraises : host.RaisesExceptions)
    (organizationId agentId conversationId : Int) (requests : List ToolRequest)
    (results : List ToolCallResult) (allSucceeded : Bool) (w : ToolWorld F σ) :
    ∃ added w', (host.batchLoop organizationId agentId conversationId requests results
        allSucceeded).run w =
          .ok ⟨results ++ added, allSucceeded && added.all ToolCallResult.success⟩ w' ∧
      added.map (fun result => (result.callId, result.toolName)) =
        requests.map (fun request => (request.callId, request.toolName)) ∧
      InTurn (fun call : ToolRequest × ToolCallResult => Dispatches host call.1 call.2)
        ((requests.map (·.inContext organizationId agentId conversationId)).zip added) w w' := by
  induction requests generalizing results allSucceeded w with
  | nil => exact ⟨[], w, by simp [batchLoop], rfl, .nil w⟩
  | cons request requests ih =>
      obtain ⟨result, w₁, hdispatch⟩ :=
        dispatch_total hraises (request.inContext organizationId agentId conversationId) w
      obtain ⟨added, w', hloop, hnames, hturn⟩ := ih (results ++ [result])
        (if result.success then allSucceeded else false) w₁
      have hone := dispatches hdispatch
      refine ⟨result :: added, w', ?_, ?_, .cons hone hturn⟩
      · unfold batchLoop
        rw [Proc.run_bind_of_ok hdispatch, hloop, List.append_assoc]
        cases hsuccess : result.success <;> simp [hsuccess]
      · rw [List.map_cons, List.map_cons, hnames, hone.echoes.1, hone.echoes.2]
        rfl

end ToolHost

section Example

theorem echoHost_raisesExceptions (size : Nat) : (echoHost size).RaisesExceptions where
  getByName _ := Proc.Raises.pure _
  getAssignment _ _ := Proc.Raises.pure _
  call _ _ := Proc.Raises.pure _
  sleep _ := Proc.Raises.pure _

/-- Two calls, of which the second is too deep. -/
def helloAndLoop : List ToolRequest :=
  [helloRequest, { helloRequest with callId := "call_2", recursionDepth := 6 }]

end Example

end AgentCorp.Tools
