/-
  Whether chats leave the diagnostics registry as they found it.

  The router registers an execution, an analysis and a plan, and unregisters them however the
  chat ends. The reports of the V2 runtime are registered in the other maps, from which nothing
  is ever unregistered.

  * `operations_retain`: nothing is unregistered from a map of reports.
  * `operations_settle`: what a call does to the registry if it registers no report.
  * `registry_balanced_iff`: when any calls, in any order of their steps, leave the registry as
    it was.
-/
import AgentCorp.Lib.Shuffle
import AgentCorp.Runtime.ChatDiagnostics

namespace AgentCorp.Runtime

open AgentCorp.Python AgentCorp.Observability

variable {δ ρ : Type}

/-- The engine publishes and dispatches, and does nothing else. -/
theorem executeChat_within {σ : Type} {R : σ → σ → Prop} [IsPreorder σ R] {L : Lower}
    {clock : Clock} {publish : ExecutionRun → Py σ Unit}
    {dispatch : ExecutionTask → ExecutionContext → Py σ (ρ × ExecutionResult)}
    (hpublish : ∀ run, Proc.Within R (publish run))
    (hdispatch : ∀ task context, Proc.Within R (dispatch task context))
    (context : ExecutionContext) :
    Proc.Within R (executeChat L clock publish dispatch context) := by
  unfold executeChat
  refine (Proc.Within.ofExcept _).bind fun run => (hpublish run).bind fun _ =>
    (Proc.Within.ofExcept _).bind fun task => (Proc.Within.ofExcept _).bind fun machine => ?_
  refine (hdispatch task _).bind fun reply => (Proc.Within.ofExcept _).bind fun machine => ?_
  exact (hpublish _).bind fun _ => Proc.Within.pure _

namespace ChatCall

variable (call : ChatCall δ ρ)

/-! ## Reports stay -/

/-- The maps that the router unregisters from. -/
def released : List DiagnosticsMap :=
  [.executions, .cognitiveAnalyses, .planningRuns]

/-- An operation that unregisters nothing from a map of reports. -/
def Retains (op : Operation ChatReport) : Prop :=
  op.leaves = none → op.place.1 ∈ released

theorem retains_register (map : DiagnosticsMap) (key : String) (metadata : ChatReport) :
    Retains (.register map key metadata) :=
  fun h => nomatch h

theorem retains_unregister {map : DiagnosticsMap} (h : map ∈ released) (key : String) :
    Retains (.unregister map key) :=
  fun _ => h

abbrev Retaining {α : Type} (p : ChatPy δ α) : Prop :=
  Proc.Within (Adds (Every Retains)) p

theorem retaining_onState {α : Type} (p : Py (World δ) α) :
    Retaining (onState p : ChatPy δ α) :=
  Adds.onState (every_nil _) p

theorem retaining_emit {op : Operation ChatReport} (h : Retains op) :
    Retaining (emit op : ChatPy δ Unit) :=
  Adds.emit (every_singleton h)

theorem retaining_register (map : DiagnosticsMap) (key : String) (metadata : ChatReport) :
    Retaining (emit (.register map key metadata) : ChatPy δ Unit) :=
  retaining_emit (retains_register map key metadata)

theorem publish_retaining (run : ExecutionRun) : Retaining (publish run : ChatPy δ Unit) :=
  (retaining_onState _).bind fun _ => retaining_register _ _ _

theorem dispatchChat_retaining (task : ExecutionTask) (context : ExecutionContext) :
    Retaining (call.dispatchChat task context) :=
  (retaining_onState _).bind fun _ => (retaining_register _ _ _).bind fun _ =>
    (retaining_onState _).bind fun _ => Proc.Within.pure _

theorem recordAnalysis_retaining (context : ExecutionContext) (reply : Reply ρ) :
    Retaining (call.recordAnalysis context reply) := by
  unfold recordAnalysis
  cases context.executionMetadata with
  | none => exact Proc.Within.pure _
  | some metadata =>
      cases context.executionBlueprint with
      | none => exact Proc.Within.pure _
      | some blueprint =>
          refine (retaining_onState _).bind fun _ => (retaining_register _ _ _).bind fun _ =>
            (retaining_onState _).bind fun longTerm => (retaining_register _ _ _).bind fun _ => ?_
          refine (retaining_register _ _ _).bind fun _ => (retaining_register _ _ _).bind fun _ =>
            (retaining_register _ _ _).bind fun _ => (retaining_register _ _ _).bind fun _ => ?_
          exact (retaining_register _ _ _).bind fun _ => (retaining_register _ _ _).bind fun _ =>
            retaining_register _ _ _

theorem enforceGovernance_retaining : Retaining call.enforceGovernance := by
  unfold enforceGovernance
  refine (retaining_onState _).bind fun _ => (Proc.Within.ofExcept _).bind fun _ =>
    (retaining_register _ _ _).bind fun _ => ?_
  split
  · exact Proc.Within.pure _
  · exact Proc.Within.throw _

theorem governDeclared_retaining : Retaining call.governDeclared := by
  unfold governDeclared
  split
  · exact call.enforceGovernance_retaining.bind fun _ => Proc.Within.pure _
  · exact Proc.Within.pure _

/-- What the V2 runtime does once it has a context. -/
theorem executeContext_retaining (context : ExecutionContext) :
    Retaining (do
      let response ← executeChat call.env.L (call.env.clock.skip 10) publish call.dispatchChat
        context
      call.recordAnalysis context response
      return response) := by
  refine (executeChat_within publish_retaining call.dispatchChat_retaining _).bind fun _ => ?_
  exact (call.recordAnalysis_retaining _ _).bind fun _ => Proc.Within.pure _

theorem v2ExecuteChat_retaining : Retaining call.v2ExecuteChat :=
  (retaining_onState _).bind fun _ => call.governDeclared_retaining.bind fun _ =>
    (Proc.Within.ofExcept _).bind fun _ => call.executeContext_retaining _

theorem understand_retaining : Retaining call.understand := by
  unfold understand
  cases call.payload with
  | none => exact Proc.Within.pure _
  | some payload =>
      dsimp only
      split
      · have hcognitive : Retains (unregisterCognitiveAnalysis call.analysisId) :=
          retains_unregister (by decide) _
        have hplanning : Retains (unregisterPlanningRun call.planningId) :=
          retains_unregister (by decide) _
        refine (retaining_register _ _ _).bind fun _ => Proc.Within.tryFinally ?_ ?_
        · exact (Proc.Within.ofExcept _).bind fun _ => (retaining_register _ _ _).bind fun _ =>
            (Proc.Within.ofExcept _).bind fun _ => retaining_register _ _ _
        · exact (retaining_emit hcognitive).bind fun _ => retaining_emit hplanning
      · exact Proc.Within.pure _

theorem runtimeExecuteChat_retaining : Retaining call.runtimeExecuteChat := by
  unfold runtimeExecuteChat
  split
  · exact call.v2ExecuteChat_retaining
  · exact (retaining_onState _).bind fun _ => Proc.Within.pure _

/-- What the router does once it has analyzed the request. -/
theorem completeChat_retaining :
    Retaining (do
      let result ← call.runtimeExecuteChat
      emit (registerExecution call.executionId (.execution call.executionId call.version "chat"
        "COMPLETED"))
      return result) :=
  call.runtimeExecuteChat_retaining.bind fun _ => (retaining_register _ _ _).bind fun _ =>
    Proc.Within.pure _

theorem routerExecuteChat_retaining : Retaining call.routerExecuteChat := by
  have hexecution : Retains (unregisterExecution call.executionId) :=
    retains_unregister (by decide) _
  refine (retaining_register _ _ _).bind fun _ =>
    Proc.Within.tryFinally ?_ (retaining_emit hexecution)
  exact call.understand_retaining.bind fun _ => call.completeChat_retaining

theorem operations_retain : ∀ op ∈ call.operations, Retains op := by
  obtain ⟨later, hlater, hevery⟩ := call.routerExecuteChat_retaining ⟨⟨call.db, [], []⟩, []⟩
  unfold operations
  rw [hlater]
  exact hevery

/-! ## Calls that register no report -/

/-- The identifiers that the call gives itself, each in its map. -/
def own (place : DiagnosticsMap × String) : Prop :=
  place = (.executions, call.executionId) ∨ place = (.cognitiveAnalyses, call.analysisId) ∨
    place = (.planningRuns, call.planningId)

/-- The V2 runtime gets to its first report: the audit log ends, or, without governance, the
    context is built. -/
def Reports : Prop :=
  if call.received.declaredVersion = "AgentCorp V2" then call.audit = .ok ()
  else ∃ message, call.received.message = some message ∧
    call.engines.Understands message call.received.declaredVersion none

/-- The router's own analysis of the request raises. -/
def NotUnderstood : Prop :=
  ∃ payload, call.payload = some payload ∧
    ¬ call.engines.Understands (payload.message.getD "") call.version (some call.executionId)

/-- V1 answers the call, or it raises before the first report. -/
def Unreported : Prop :=
  resolvesToV2 call.runtimeVersion → call.NotUnderstood ∨ ¬ call.Reports

section Engines

variable {call} {engines : Engines} {requestText runtimeVersion : String}
  {requestId : Option String}

theorem understands_cases (engines : Engines) (requestText runtimeVersion : String)
    (requestId : Option String) :
    engines.Understands requestText runtimeVersion requestId ∨
    (∃ e, engines.analyze requestText runtimeVersion requestId = .error e) ∨
    ∃ cognitiveState e, engines.analyze requestText runtimeVersion requestId = .ok cognitiveState ∧
      engines.plan cognitiveState runtimeVersion requestId = .error e := by
  unfold Engines.Understands
  cases engines.analyze requestText runtimeVersion requestId with
  | error e => exact .inr (.inl ⟨e, rfl⟩)
  | ok cognitiveState =>
      cases hplan : engines.plan cognitiveState runtimeVersion requestId with
      | error e => exact .inr (.inr ⟨cognitiveState, e, rfl, hplan⟩)
      | ok blueprint => exact .inl ⟨cognitiveState, blueprint, rfl, hplan⟩

theorem buildExecutionContext_raises
    (h : ∀ message, call.received.message = some message →
      ¬ call.engines.Understands message call.received.declaredVersion none) :
    ∃ e, call.buildExecutionContext = .error e := by
  unfold buildExecutionContext
  cases hmessage : call.received.message with
  | none => exact ⟨_, rfl⟩
  | some message =>
      rcases understands_cases call.engines message call.received.declaredVersion none with
        hunderstands | ⟨e, hanalyze⟩ | ⟨cognitiveState, e, hanalyze, hplan⟩
      · exact absurd hunderstands (h message hmessage)
      · dsimp only
        rw [hanalyze]
        exact ⟨e, rfl⟩
      · dsimp only
        rw [hanalyze]
        show ∃ e, (call.engines.plan cognitiveState _ none >>= _) = _
        rw [hplan]
        exact ⟨e, rfl⟩

theorem buildExecutionContext_returns {message : String}
    (hmessage : call.received.message = some message)
    (h : call.engines.Understands message call.received.declaredVersion none) :
    ∃ context metadata blueprint, call.buildExecutionContext = .ok context ∧
      context.executionMetadata = some metadata ∧
      context.executionBlueprint = some blueprint := by
  obtain ⟨cognitiveState, blueprint, hanalyze, hplan⟩ := h
  unfold buildExecutionContext
  rw [hmessage]
  dsimp only
  rw [hanalyze]
  show ∃ context metadata blueprint, (call.engines.plan cognitiveState _ none >>= _) = _ ∧ _
  rw [hplan]
  exact ⟨_, _, blueprint, rfl, rfl, rfl⟩

theorem analyzeAndPlan_raises {payload : Payload}
    (h : ¬ call.engines.Understands (payload.message.getD "") call.version
      (some call.executionId)) (s : Diagnosed (World δ) ChatReport) :
    ∃ raised t, (call.analyzeAndPlan payload).run s = .error raised t := by
  unfold analyzeAndPlan
  rcases understands_cases call.engines (payload.message.getD "") call.version
    (some call.executionId) with hunderstands | ⟨e, hanalyze⟩ | ⟨cognitiveState, e, hanalyze, hplan⟩
  · exact absurd hunderstands h
  · rw [hanalyze]
    exact ⟨e, _, rfl⟩
  · rw [hanalyze, Proc.ofExcept_ok_bind, hplan]
    exact ⟨e, _, rfl⟩

theorem analyzeAndPlan_returns {payload : Payload}
    (h : call.engines.Understands (payload.message.getD "") call.version
      (some call.executionId)) (s : Diagnosed (World δ) ChatReport) :
    Proc.Succeeds (call.analyzeAndPlan payload) s := by
  obtain ⟨cognitiveState, blueprint, hanalyze, hplan⟩ := h
  unfold analyzeAndPlan
  rw [hanalyze, Proc.ofExcept_ok_bind, hplan]
  exact ⟨(), _, rfl⟩

end Engines

abbrev Settling (pending : DiagnosticsMap × String → Prop) {α : Type} (p : ChatPy δ α) : Prop :=
  Proc.Within (Adds (Settles call.own pending)) p

section Settling

variable {call} {pending : DiagnosticsMap × String → Prop}

/-- The analysis and the plan are unregistered, however the analysis ends. -/
theorem analyzeAndPlan_settling (payload : Payload) :
    call.Settling pending (call.analyzeAndPlan payload) := by
  have hanalysis : call.own (.cognitiveAnalyses, call.analysisId) := .inr (.inl rfl)
  have hplan : call.own (.planningRuns, call.planningId) := .inr (.inr rfl)
  intro s
  unfold analyzeAndPlan
  rw [Proc.after_bind, emit_run]
  dsimp only
  rw [Proc.after_tryFinally, Proc.after_bind, emit_run]
  dsimp only
  refine Settles.release (unregisterPlanningRun call.planningId) rfl hplan ?_
  refine Settles.release (unregisterCognitiveAnalysis call.analysisId) rfl hanalysis ?_
  -- Until then, both are pending.
  refine trans_of _ (Adds.emit (.singleton hanalysis (.inl rfl)) s) (Proc.Within.bind ?_ ?_ _)
  · exact Proc.Within.ofExcept _
  · intro cognitiveState
    refine (Adds.emit (.singleton hanalysis (.inl rfl))).bind fun _ => ?_
    exact (Proc.Within.ofExcept _).bind fun _ => Adds.emit (.singleton hplan (.inr (.inl rfl)))

theorem understand_settling : call.Settling pending call.understand := by
  unfold understand
  cases call.payload with
  | none => exact Proc.Within.pure _
  | some payload =>
      dsimp only
      split
      · exact analyzeAndPlan_settling payload
      · exact Proc.Within.pure _

/-- A runtime that does not get to a report registers nothing. -/
theorem runtimeExecuteChat_settling (h : resolvesToV2 call.runtimeVersion → ¬ call.Reports) :
    call.Settling pending call.runtimeExecuteChat := by
  unfold runtimeExecuteChat
  by_cases hv2 : resolvesToV2 call.runtimeVersion = true
  · have hreports := h hv2
    unfold Reports at hreports
    rw [if_pos hv2]
    unfold v2ExecuteChat governDeclared
    refine (Adds.onState .nil _).bind fun _ => ?_
    by_cases hdeclared : call.received.declaredVersion = "AgentCorp V2"
    · rw [if_pos hdeclared] at hreports
      rw [if_pos hdeclared]
      unfold enforceGovernance
      simp only [bind_assoc]
      refine (Adds.onState .nil _).bind fun _ => ?_
      cases haudit : call.audit with
      | ok u => exact absurd haudit hreports
      | error e => exact Proc.Within.throw e
    · rw [if_neg hdeclared] at hreports
      have hraises : ∀ message, call.received.message = some message →
          ¬ call.engines.Understands message call.received.declaredVersion none := by
        intro message hmessage hunderstands
        exact hreports ⟨message, hmessage, hunderstands⟩
      obtain ⟨e, hcontext⟩ := buildExecutionContext_raises hraises
      rw [if_neg hdeclared, pure_bind, hcontext, Proc.ofExcept_error_bind]
      exact Proc.Within.throw e
  · rw [if_neg hv2]
    exact (Adds.onState .nil _).bind fun _ => Proc.Within.pure _

theorem chat_settling (h : call.Unreported) (hpending : pending (.executions, call.executionId)) :
    call.Settling pending (do
      call.understand
      let result ← call.runtimeExecuteChat
      emit (registerExecution call.executionId (.execution call.executionId call.version "chat"
        "COMPLETED"))
      return result) := by
  by_cases hruntime : resolvesToV2 call.runtimeVersion → ¬ call.Reports
  · refine understand_settling.bind fun _ => (runtimeExecuteChat_settling hruntime).bind fun _ => ?_
    exact (Adds.emit (.singleton (.inl rfl) hpending)).bind fun _ => Proc.Within.pure _
  · -- The analysis raises, and what comes after it does not run.
    obtain ⟨hv2, hreports⟩ := Classical.not_imp.mp hruntime
    obtain ⟨payload, hpayload, hnot⟩ := (h hv2).resolve_right hreports
    have hunderstand : call.understand = call.analyzeAndPlan payload := by
      unfold understand
      rw [hpayload]
      exact if_pos hv2
    have hsettling : call.Settling pending (call.analyzeAndPlan payload) :=
      analyzeAndPlan_settling payload
    intro s
    obtain ⟨raised, t, hrun⟩ := analyzeAndPlan_raises hnot s
    have hafter := hsettling s
    rw [hunderstand, Proc.after_bind, hrun]
    rw [Proc.after_of_error hrun] at hafter
    exact hafter

/-- A call without a report leaves nothing pending. -/
theorem operations_settle (h : call.Unreported) :
    Settles call.own (fun _ => False) call.operations := by
  have hown : call.own (.executions, call.executionId) := .inl rfl
  have hrouter : call.Settling (fun _ => False) call.routerExecuteChat := by
    intro s
    unfold routerExecuteChat
    rw [Proc.after_bind, emit_run]
    dsimp only
    rw [Proc.after_tryFinally]
    refine Settles.release (unregisterExecution call.executionId) rfl hown ?_
    exact trans_of _ (Adds.emit (.singleton hown (.inl rfl)) s) (chat_settling h (.inl rfl) _)
  obtain ⟨later, hlater, hsettles⟩ := hrouter ⟨⟨call.db, [], []⟩, []⟩
  unfold operations
  rw [hlater]
  exact hsettles

end Settling

/-! ## Calls that register a report -/

/-- Wherever it starts, `p` leaves `op` among the operations. -/
def Registers (op : Operation ChatReport) {α : Type} (p : ChatPy δ α) : Prop :=
  ∀ s, op ∈ (Proc.after p s).operations

section Registers

variable {call} {op : Operation ChatReport} {α β : Type}

theorem mem_of_retaining {p : ChatPy δ α} (hp : Retaining p) {s : Diagnosed (World δ) ChatReport}
    (h : op ∈ s.operations) : op ∈ (Proc.after p s).operations := by
  obtain ⟨later, hlater, -⟩ := hp s
  rw [hlater]
  exact List.mem_append_left later h

theorem Registers.emit (op : Operation ChatReport) : Registers op (emit op : ChatPy δ Unit) :=
  fun _ => List.mem_append_right _ (List.mem_singleton_self op)

/-- A first part that registers, before one that only adds. -/
theorem Registers.bind {p : ChatPy δ α} {f : α → ChatPy δ β} (hp : Registers op p)
    (hf : ∀ a, Retaining (f a)) : Registers op (p >>= f) := by
  intro s
  have hfirst := hp s
  rw [Proc.after_bind]
  cases h : p.run s with
  | ok a t =>
      rw [Proc.after_of_ok h] at hfirst
      exact mem_of_retaining (hf a) hfirst
  | error raised t =>
      rw [Proc.after_of_error h] at hfirst
      exact hfirst

/-- A second part that registers, after one that returns. -/
theorem Registers.after {p : ChatPy δ α} {f : α → ChatPy δ β} (hp : ∀ s, Proc.Succeeds p s)
    (hf : ∀ a, Registers op (f a)) : Registers op (p >>= f) := by
  intro s
  obtain ⟨a, t, hrun⟩ := hp s
  rw [Proc.after_bind, hrun]
  exact hf a t

theorem Registers.tryFinally {p : ChatPy δ α} {last : ChatPy δ Unit} (hp : Registers op p)
    (hlast : Retaining last) : Registers op (tryFinally p last) := by
  intro s
  rw [Proc.after_tryFinally]
  exact mem_of_retaining hlast (hp s)

theorem succeeds_record (event : RuntimeEvent) (s : Diagnosed (World δ) ChatReport) :
    Proc.Succeeds (onState (record event)) s :=
  ⟨(), _, rfl⟩

theorem publish_registers (run : ExecutionRun) :
    Registers (registerExecutionEngine run.executionId (.executionEngine run))
      (publish run : ChatPy δ Unit) :=
  Registers.after (succeeds_record _) fun _ => Registers.emit _

/-- An engine that can initialize its run registers it. -/
theorem executeChat_registers {L : Lower} {clock : Clock} {context : ExecutionContext}
    {run : ExecutionRun} (hrun : initializeRun L clock context = .ok run) :
    Registers (registerExecutionEngine run.executionId (.executionEngine run))
      (executeChat L clock publish call.dispatchChat context) := by
  unfold executeChat
  rw [hrun, Py.ofResult_ok_bind]
  refine (publish_registers run).bind fun _ => (Proc.Within.ofExcept _).bind fun task =>
    (Proc.Within.ofExcept _).bind fun machine => (call.dispatchChat_retaining task _).bind fun _ =>
    (Proc.Within.ofExcept _).bind fun machine => ?_
  exact (publish_retaining _).bind fun _ => Proc.Within.pure _

theorem governDeclared_registers (hdeclared : call.received.declaredVersion = "AgentCorp V2")
    (haudit : call.audit = .ok ()) :
    ∃ report, Registers (registerRuntimeGovernance (toString call.organizationId)
      (.runtimeGovernance report)) call.governDeclared := by
  unfold governDeclared
  rw [if_pos hdeclared]
  unfold enforceGovernance
  simp only [haudit, Proc.ofExcept_ok_bind]
  refine ⟨_, Registers.bind (Registers.after (succeeds_record _) fun _ =>
    (Registers.emit _).bind fun _ => ?_) fun _ => Proc.Within.pure _⟩
  split
  · exact Proc.Within.pure _
  · exact Proc.Within.throw _

/-- A V2 runtime that gets to a report leaves one. -/
theorem v2ExecuteChat_registers (h : call.Reports) :
    ∃ map key metadata, map ∉ released ∧
      Registers (.register map key metadata) call.v2ExecuteChat := by
  have hstart : ∀ s : Diagnosed (World δ) ChatReport, Proc.Succeeds (onState startRun) s :=
    fun s => ⟨(), _, rfl⟩
  unfold Reports at h
  by_cases hdeclared : call.received.declaredVersion = "AgentCorp V2"
  · rw [if_pos hdeclared] at h
    obtain ⟨report, hregisters⟩ := governDeclared_registers hdeclared h
    refine ⟨.runtimeGovernance, toString call.organizationId, .runtimeGovernance report,
      by decide, ?_⟩
    refine Registers.after hstart fun _ => Registers.bind hregisters fun _ => ?_
    exact (Proc.Within.ofExcept _).bind fun _ => call.executeContext_retaining _
  · rw [if_neg hdeclared] at h
    obtain ⟨message, hmessage, hunderstands⟩ := h
    obtain ⟨context, metadata, blueprint, hcontext, hmetadata, hblueprint⟩ :=
      buildExecutionContext_returns hmessage hunderstands
    obtain ⟨run, hrun, -, -⟩ := initializeRun_prepared call.env.L (call.env.clock.skip 10) context
      hmetadata hblueprint
    refine ⟨.executionEngines, run.executionId, .executionEngine run, by decide, ?_⟩
    unfold v2ExecuteChat governDeclared
    rw [if_neg hdeclared, pure_bind, hcontext, Proc.ofExcept_ok_bind]
    refine Registers.after hstart fun _ => (executeChat_registers hrun).bind fun _ => ?_
    exact (call.recordAnalysis_retaining _ _).bind fun _ => Proc.Within.pure _

/-- A call that gets to a report leaves one in a map that nothing is unregistered from. -/
theorem exists_report (h : ¬ call.Unreported) :
    ∃ map key metadata, map ∉ released ∧ .register map key metadata ∈ call.operations := by
  obtain ⟨hv2, hno⟩ := Classical.not_imp.mp h
  rw [not_or, not_not] at hno
  obtain ⟨hunderstood, hreports⟩ := hno
  obtain ⟨map, key, metadata, hmap, hregisters⟩ := v2ExecuteChat_registers hreports
  refine ⟨map, key, metadata, hmap, ?_⟩
  have hunderstand : ∀ s, Proc.Succeeds call.understand s := by
    intro s
    unfold understand
    cases hpayload : call.payload with
    | none => exact Proc.succeeds_pure () s
    | some payload =>
        dsimp only
        rw [if_pos hv2]
        refine analyzeAndPlan_returns ?_ s
        by_contra hnot
        exact hunderstood ⟨payload, hpayload, hnot⟩
  have hruntime : Registers (.register map key metadata) call.runtimeExecuteChat := by
    unfold runtimeExecuteChat
    rw [if_pos hv2]
    exact hregisters
  have hexecution : Retains (unregisterExecution call.executionId) :=
    retains_unregister (by decide) _
  refine Registers.after (fun s => ⟨(), _, rfl⟩) (fun _ => Registers.tryFinally ?_
    (retaining_emit hexecution)) _
  refine Registers.after hunderstand fun _ => hruntime.bind fun _ => ?_
  exact (retaining_register _ _ _).bind fun _ => Proc.Within.pure _

end Registers

/-- The identifiers that the call gives itself are new to the registry. -/
def Fresh (registry : Registry ChatReport) : Prop :=
  ∀ place, call.own place → (registry place.1).lookup place.2 = none

end ChatCall

/-! ## Any calls, in any order -/

/-- **Balance.** Whatever the registry is and in whatever order concurrent calls take their
    steps, the registry is in the end what it was, exactly if every call is answered by V1 or
    raises before it gets to a report. -/
theorem registry_balanced_iff (calls : List (ChatCall δ ρ)) :
    (∀ registry, (∀ call ∈ calls, call.Fresh registry) → ∀ operations,
      Shuffle (calls.map ChatCall.operations) operations →
        registry.applyAll operations = registry) ↔
      ∀ call ∈ calls, call.Unreported := by
  constructor
  · intro h call hcall
    by_contra hreported
    obtain ⟨map, key, metadata, hmap, hreg⟩ := ChatCall.exists_report hreported
    have hempty : ∀ call ∈ calls, call.Fresh Registry.empty := fun _ _ _ _ => rfl
    have hsame := h Registry.empty hempty _ (shuffle_flatten (calls.map ChatCall.operations))
    refine lookup_of_registered Registry.empty _
      (List.mem_flatten_of_mem (List.mem_map_of_mem hcall) hreg) ?_ ?_
    · intro key' hunregister
      obtain ⟨own, hown, hop⟩ := List.mem_flatten.mp hunregister
      obtain ⟨other, -, rfl⟩ := List.mem_map.mp hown
      exact hmap (other.operations_retain _ hop rfl)
    · rw [hsame]
      rfl
  · intro h registry hfresh operations hshuffle
    refine applyAll_eq_self registry operations ?_ ?_
    · intro op hop
      obtain ⟨own, hown, hop'⟩ := hshuffle.mem_iff.mp hop
      obtain ⟨call, hcall, rfl⟩ := List.mem_map.mp hown
      exact hfresh call hcall _ ((ChatCall.operations_settle (h call hcall)).own op hop')
    · intro place metadata hlast
      obtain ⟨own, hown, hlast'⟩ := hshuffle.exists_getLast? _ hlast
      obtain ⟨call, hcall, rfl⟩ := List.mem_map.mp hown
      exact (ChatCall.operations_settle (h call hcall)).last place id metadata hlast'

/-- A V2 request for a new chat, which is answered. -/
def helloCall : ChatCall Unit Unit where
  runtimeVersion := some "AgentCorp V2"
  payload := some helloChat
  user := ⟨9, true, false⟩
  organizationId := 1
  conversationId := none
  executionId := "execution-id"
  analysisId := "analysis-id"
  planningId := "planning-id"
  env := quietRuntime
  engines := Engines.default Lower.asciiOnly
  audit := .ok ()
  services := quietServices
  analysis := unstored
  requestText := "Hello"
  db := ()

/-- The call leaves its run behind, and the decision about its organization. -/
theorem helloCall_unbalanced :
    Shuffle [helloCall.operations] helloCall.operations ∧
    ((Registry.empty.applyAll helloCall.operations) .executionEngines).map Prod.fst =
      ["execution"] ∧
    ((Registry.empty.applyAll helloCall.operations) .runtimeGovernance).map Prod.fst = ["1"] ∧
    ¬ ∀ registry, helloCall.Fresh registry → ∀ operations,
      Shuffle [helloCall.operations] operations → registry.applyAll operations = registry := by
  have hshuffle : Shuffle [helloCall.operations] helloCall.operations := by
    have hflatten := shuffle_flatten [helloCall.operations]
    rwa [List.flatten_singleton] at hflatten
  have hengines : ((Registry.empty.applyAll helloCall.operations) .executionEngines).map Prod.fst =
      ["execution"] := by
    decide +kernel
  have hgovernance : ((Registry.empty.applyAll helloCall.operations) .runtimeGovernance).map
      Prod.fst = ["1"] := by
    decide +kernel
  refine ⟨hshuffle, hengines, hgovernance, ?_⟩
  intro h
  have hsame := h Registry.empty (fun _ _ => rfl) _ hshuffle
  rw [hsame] at hengines
  cases hengines

end AgentCorp.Runtime
