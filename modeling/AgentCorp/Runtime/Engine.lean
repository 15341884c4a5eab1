/-
  The execution engine: one chat or stream run, from the prepared context to its publications.

  The engine is parametrised by what it calls: `publish` (the diagnostics registry) and the
  dispatcher. `recordRun` and `recordDispatch` are the ones that only keep a log, with any
  outcome of the dispatcher; the theorems about the engine alone are read off that log.

  * `executeChat_eq`: what a chat run with at least one task does, in order.
  * `executeChat_ordered_iff`: exactly when the dispatched task waits for its dependencies and
    a COMPLETED run has only COMPLETED tasks.
  * `engine_lifecycle_never`: no chat or stream run publishes a path of its own state
    machine up to a terminal state.
-/
import AgentCorp.Python.Effects
import AgentCorp.Runtime.Execution
import Mathlib.Data.List.Chain

namespace AgentCorp.Runtime

open AgentCorp.Python

variable {σ ρ : Type}

/-! ## The engine -/

/-- `ExecutionEngine._select_dispatch_task`: the first task of the preferred capability, or
    the first one. -/
def selectDispatchTask (tasks : List ExecutionTask) (preferredCapability : String) :
    Except Exn ExecutionTask :=
  match tasks with
  | [] => .error (.valueError "No execution tasks available.")
  | first :: _ => .ok ((tasks.find? (·.requiredCapability = preferredCapability)).getD first)

/-- `ExecutionEngine._with_task_state`. -/
def withTaskState (task : ExecutionTask) (state : ExecutionState) : ExecutionTask :=
  { task with currentState := state }

/-- A lifecycle entry that names the request it belongs to. -/
def requestEntry (context : ExecutionContext) (entry : RuntimeLifecycleEntry) :
    RuntimeLifecycleEntry :=
  { entry with
    requestId := context.executionMetadata.map ExecutionMetadata.requestId
    traceId := context.executionMetadata.map ExecutionMetadata.traceId
    runtimeVersion := some context.runtimeVersion }

/-- `ExecutionEngine._initialize_run`. -/
def initializeRun (L : Lower) (clock : Clock) (context : ExecutionContext) :
    Except Exn ExecutionRun := do
  let some metadata := context.executionMetadata
    | throw (.valueError "Execution metadata is required.")
  let some blueprint := context.executionBlueprint
    | throw (.valueError "Execution blueprint is required.")
  let tasks := buildExecutionTasks L blueprint
  let machine ← (ExecutionStateMachine.start (clock 0) .initialized).transitionTo (clock 1) .ready
    none "Execution tasks prepared."
  let entry := buildLifecycleEntry "Execution Initialized" (clock 2) (clock 3)
    ExecutionState.ready.value (toString tasks.length ++ " tasks ready.")
  return {
    executionId := metadata.executionId
    state := .ready
    tasks := tasks
    results := []
    transitions := machine.transitions
    timeline := context.executionTrace ++
      [{ requestEntry context entry with
         outputSnapshot := some [("task_count", .int tasks.length)] }] }

/-- The run that `execute_chat` publishes after the dispatch. -/
def completedRun (context : ExecutionContext) (run : ExecutionRun) (task : ExecutionTask)
    (result : ExecutionResult) (transitions : List ExecutionStateTransition) : ExecutionRun :=
  let entry := buildLifecycleEntry "Capability Dispatch" result.startedAt result.completedAt
    result.status.value ("Dispatched " ++ task.taskId ++ " via Runtime V1 adapter.")
  { executionId := run.executionId
    state := .completed
    tasks := run.tasks.map fun item =>
      if item.taskId = task.taskId then withTaskState task .completed else item
    results := [result]
    transitions := transitions
    timeline := run.timeline ++
      [{ requestEntry context entry with
         outputSnapshot :=
           some [("task_id", .str result.taskId), ("status", .str result.status.value)]
         errors := result.errors }] }

/-- The context that the dispatcher is given. -/
def runningContext (context : ExecutionContext) : ExecutionContext :=
  { context with executionState := some ExecutionState.running.value }

/-- `ExecutionEngine.execute_chat`. -/
def executeChat (L : Lower) (clock : Clock) (publish : ExecutionRun → Py σ Unit)
    (dispatchChat : ExecutionTask → ExecutionContext → Py σ (ρ × ExecutionResult))
    (context : ExecutionContext) : Py σ ρ := do
  let run ← Py.ofResult (initializeRun L clock context)
  publish run
  let task ← Py.ofResult (selectDispatchTask run.tasks "provider")
  -- A machine that starts at READY, to which the transitions of the first one are appended.
  let started := ExecutionStateMachine.start (clock 4) run.state
  let machine := { started with transitions := started.transitions ++ run.transitions.drop 1 }
  let machine ← Py.ofResult
    (machine.transitionTo (clock 5) .running (some task.taskId) "Dispatching task.")
  let (response, result) ← dispatchChat task (runningContext context)
  let machine ← Py.ofResult
    (machine.transitionTo (clock 6) .completed (some task.taskId) "Execution completed.")
  publish (completedRun context run task result machine.transitions)
  return response

/-- `ExecutionEngine.execute_stream`, consumed to its end: it forwards the events of the
    dispatcher. -/
def executeStream (L : Lower) (clock : Clock) (publish : ExecutionRun → Py σ Unit)
    (dispatchStream : ExecutionTask → ExecutionContext → Py σ Unit)
    (context : ExecutionContext) : Py σ Unit := do
  let run ← Py.ofResult (initializeRun L clock context)
  let task ← Py.ofResult (selectDispatchTask run.tasks "streaming")
  publish run
  dispatchStream task (runningContext context)

/-! ## One run, in order -/

theorem initializeRun_ok {L : Lower} {clock : Clock} {context : ExecutionContext}
    {run : ExecutionRun} (h : initializeRun L clock context = .ok run) :
    run.state = .ready ∧ ∃ blueprint, context.executionBlueprint = some blueprint ∧
      run.tasks = buildExecutionTasks L blueprint := by
  unfold initializeRun at h
  cases hm : context.executionMetadata with
  | none => simp [hm, throw, throwThe, MonadExceptOf.throw] at h
  | some metadata =>
      cases hb : context.executionBlueprint with
      | none => simp [hm, hb, throw, throwThe, MonadExceptOf.throw] at h
      | some blueprint =>
          simp only [hm, hb] at h
          obtain rfl := Except.ok.inj h
          exact ⟨rfl, blueprint, rfl, rfl⟩

/-- A prepared context is always initialized. -/
theorem initializeRun_prepared (L : Lower) (clock : Clock) (context : ExecutionContext)
    {metadata : ExecutionMetadata} {blueprint : ExecutionBlueprint}
    (hm : context.executionMetadata = some metadata)
    (hb : context.executionBlueprint = some blueprint) :
    ∃ run, initializeRun L clock context = .ok run ∧ run.state = .ready ∧
      run.tasks = buildExecutionTasks L blueprint := by
  unfold initializeRun
  simp only [hm, hb]
  exact ⟨_, rfl, rfl, rfl⟩

/-- The transitions of the run that `execute_chat` publishes last. -/
def chatTransitions (clock : Clock) (run : ExecutionRun) (task : ExecutionTask) :
    List ExecutionStateTransition :=
  [⟨none, run.state, (clock 4).isoformat, none, "Execution initialized."⟩] ++
    run.transitions.drop 1 ++
    [⟨some .ready, .running, (clock 5).isoformat, some task.taskId, "Dispatching task."⟩] ++
    [⟨some .running, .completed, (clock 6).isoformat, some task.taskId, "Execution completed."⟩]

theorem executeChat_eq {L : Lower} {clock : Clock} {context : ExecutionContext}
    {run : ExecutionRun} {task : ExecutionTask} (hrun : initializeRun L clock context = .ok run)
    (htask : selectDispatchTask run.tasks "provider" = .ok task)
    (publish : ExecutionRun → Py σ Unit)
    (dispatchChat : ExecutionTask → ExecutionContext → Py σ (ρ × ExecutionResult)) :
    executeChat L clock publish dispatchChat context = (do
      publish run
      let reply ← dispatchChat task (runningContext context)
      publish (completedRun context run task reply.2 (chatTransitions clock run task))
      return reply.1) := by
  obtain ⟨hstate, -⟩ := initializeRun_ok hrun
  have hdispatch : Allowed .ready .running := by decide
  have hcomplete : Allowed .running .completed := by decide
  unfold executeChat chatTransitions
  simp only [hrun, htask, hstate, ExecutionStateMachine.start, Py.ofResult_ok_bind,
    transitionTo_of_allowed hdispatch, transitionTo_of_allowed hcomplete]

/-- Without tasks a chat run ends right after its first publication. -/
theorem executeChat_nil {L : Lower} {clock : Clock} {context : ExecutionContext}
    {run : ExecutionRun} (hrun : initializeRun L clock context = .ok run) (hnil : run.tasks = [])
    (publish : ExecutionRun → Py σ Unit)
    (dispatchChat : ExecutionTask → ExecutionContext → Py σ (ρ × ExecutionResult)) :
    executeChat L clock publish dispatchChat context = (do
      publish run
      Py.raise (.valueError "No execution tasks available.")) := by
  unfold executeChat
  simp only [hrun, hnil, selectDispatchTask, Py.ofResult_ok_bind, Py.ofResult_error_bind]

/-- A chat run returns what its dispatch of the selected task returned. -/
theorem executeChat_returns {P : ρ → Prop} {L : Lower} {clock : Clock}
    {context : ExecutionContext} {publish : ExecutionRun → Py σ Unit}
    {dispatchChat : ExecutionTask → ExecutionContext → Py σ (ρ × ExecutionResult)}
    (h : ∀ run task, initializeRun L clock context = .ok run →
      selectDispatchTask run.tasks "provider" = .ok task →
      Proc.Returns (fun reply => P reply.1) (dispatchChat task (runningContext context))) :
    Proc.Returns P (executeChat L clock publish dispatchChat context) := by
  cases hrun : initializeRun L clock context with
  | error exc =>
      unfold executeChat
      rw [hrun, Py.ofResult_error_bind]
      exact Proc.Returns.throw _
  | ok run =>
      cases htasks : run.tasks with
      | nil =>
          rw [executeChat_nil hrun htasks]
          exact Proc.Returns.after fun _ => Proc.Returns.throw _
      | cons first rest =>
          obtain ⟨task, htask⟩ : ∃ task, selectDispatchTask run.tasks "provider" = .ok task :=
            ⟨_, by rw [htasks]; rfl⟩
          rw [executeChat_eq hrun htask]
          refine Proc.Returns.after fun _ => Proc.Returns.bind (h run task hrun htask)
            fun reply hP => ?_
          exact Proc.Returns.after fun _ => Proc.Returns.pure hP

theorem executeStream_eq {L : Lower} {clock : Clock} {context : ExecutionContext}
    {run : ExecutionRun} {task : ExecutionTask} (hrun : initializeRun L clock context = .ok run)
    (htask : selectDispatchTask run.tasks "streaming" = .ok task)
    (publish : ExecutionRun → Py σ Unit)
    (dispatchStream : ExecutionTask → ExecutionContext → Py σ Unit) :
    executeStream L clock publish dispatchStream context = (do
      publish run
      dispatchStream task (runningContext context)) := by
  unfold executeStream
  simp only [hrun, htask, Py.ofResult_ok_bind]

/-! ## The log of a run -/

/-- What the engine does that its callers can see. -/
inductive EngineEvent where
  | published (run : ExecutionRun)
  | dispatched (task : ExecutionTask)
  deriving DecidableEq, Repr

def recordRun (run : ExecutionRun) : Py (List EngineEvent) Unit :=
  modify (· ++ [.published run])

/-- A dispatcher that ends in a given way. -/
def recordDispatch (outcome : Except BaseExn ρ) (task : ExecutionTask)
    (_context : ExecutionContext) : Py (List EngineEvent) ρ := do
  modify (· ++ [.dispatched task])
  Proc.ofExcept outcome

/-- A chat run whose dispatcher ends in a given way. -/
def recordChat (L : Lower) (clock : Clock) (context : ExecutionContext)
    (outcome : Except BaseExn (ρ × ExecutionResult)) : Py (List EngineEvent) ρ :=
  executeChat L clock recordRun (recordDispatch outcome) context

/-- A stream run whose dispatcher is exhausted or raises. -/
def recordStream (L : Lower) (clock : Clock) (context : ExecutionContext)
    (outcome : Except BaseExn Unit) : Py (List EngineEvent) Unit :=
  executeStream L clock recordRun (recordDispatch outcome) context

/-- The runs handed to `_publish`. -/
def publishedRuns (events : List EngineEvent) : List ExecutionRun :=
  events.filterMap fun
    | .published run => some run
    | .dispatched _ => none

theorem recordChat_run {L : Lower} {clock : Clock} {context : ExecutionContext}
    {run : ExecutionRun} {task : ExecutionTask} (hrun : initializeRun L clock context = .ok run)
    (htask : selectDispatchTask run.tasks "provider" = .ok task)
    (outcome : Except BaseExn (ρ × ExecutionResult)) :
    (recordChat L clock context outcome).run [] =
      match outcome with
      | .ok (response, result) => .ok response
          [.published run, .dispatched task,
            .published (completedRun context run task result (chatTransitions clock run task))]
      | .error raised => .error raised [.published run, .dispatched task] := by
  rw [recordChat, executeChat_eq hrun htask]
  cases outcome <;> rfl

theorem recordChat_nil {L : Lower} {clock : Clock} {context : ExecutionContext}
    {run : ExecutionRun} (hrun : initializeRun L clock context = .ok run) (hnil : run.tasks = [])
    (outcome : Except BaseExn (ρ × ExecutionResult)) :
    (recordChat L clock context outcome).run [] =
      .error (.exception (.valueError "No execution tasks available.")) [.published run] := by
  rw [recordChat, executeChat_nil hrun hnil]
  rfl

/-! ## Dependencies -/

/-- A task is dispatched when every task of the run that it depends on is COMPLETED, and a run
    published as COMPLETED has only COMPLETED tasks. -/
structure DependencyOrdered (events : List EngineEvent) : Prop where
  dispatched : ∀ earlier task later, events = earlier ++ .dispatched task :: later →
    ∃ run, (publishedRuns earlier).getLast? = some run ∧
      ∀ other ∈ run.tasks, other.taskId ∈ task.dependencies → other.currentState = .completed
  completed : ∀ run ∈ publishedRuns events, run.state = .completed →
    ∀ task ∈ run.tasks, task.currentState = .completed

/-- The only dispatch of a log that publishes, dispatches and then only publishes. -/
theorem dispatched_split {run : ExecutionRun} {task other : ExecutionTask}
    {tail earlier later : List EngineEvent} (htail : ∀ t, .dispatched t ∉ tail)
    (h : .published run :: .dispatched task :: tail = earlier ++ .dispatched other :: later) :
    earlier = [.published run] ∧ other = task := by
  match earlier, h with
  | [], h => simp at h
  | [first], h =>
      simp only [List.cons_append, List.nil_append, List.cons.injEq, EngineEvent.dispatched.injEq]
        at h
      exact ⟨by rw [h.1], h.2.1.symm⟩
  | first :: second :: rest, h =>
      simp only [List.cons_append, List.cons.injEq] at h
      exact absurd (h.2.2 ▸ List.mem_append_right rest List.mem_cons_self) (htail other)

/-- A run of READY tasks is completed by the dispatch of one if all share its identifier. -/
theorem completedRun_completed_iff {run : ExecutionRun}
    (hready : ∀ other ∈ run.tasks, other.currentState = .ready) (context : ExecutionContext)
    (task : ExecutionTask) (result : ExecutionResult)
    (transitions : List ExecutionStateTransition) :
    (∀ item ∈ (completedRun context run task result transitions).tasks,
      item.currentState = .completed) ↔ ∀ other ∈ run.tasks, other.taskId = task.taskId := by
  simp only [completedRun, List.forall_mem_map]
  refine forall₂_congr fun other hother => ?_
  split
  · next heq => simp [heq, withTaskState]
  · next hne => simp [hne, hready other hother]

/-- A task dispatched while all tasks are READY must depend on none of them. -/
theorem dispatched_ordered_iff {run : ExecutionRun}
    (hready : ∀ other ∈ run.tasks, other.currentState = .ready) (task : ExecutionTask)
    (tail : List EngineEvent) (htail : ∀ t, .dispatched t ∉ tail) :
    (∀ earlier other later,
      .published run :: .dispatched task :: tail = earlier ++ .dispatched other :: later →
      ∃ r, (publishedRuns earlier).getLast? = some r ∧
        ∀ t ∈ r.tasks, t.taskId ∈ other.dependencies → t.currentState = .completed) ↔
    ∀ other ∈ run.tasks, other.taskId ∉ task.dependencies := by
  constructor
  · intro h other hother hdep
    obtain ⟨r, hlast, hall⟩ := h [.published run] task tail rfl
    obtain rfl : run = r := by simpa [publishedRuns] using hlast
    have hcompleted : other.currentState = .completed := hall other hother hdep
    rw [hready other hother] at hcompleted
    exact absurd hcompleted (by decide)
  · intro h earlier other later heq
    obtain ⟨rfl, rfl⟩ := dispatched_split htail heq
    exact ⟨run, rfl, fun t ht hdep => absurd hdep (h t ht)⟩

/-- For a run whose tasks are READY, the log of a chat run is ordered when the dispatched task
    depends on no task of the run and, if the dispatcher returns, shares its identifier with
    every task. -/
theorem recordChat_ordered_iff {L : Lower} {clock : Clock} {context : ExecutionContext}
    {run : ExecutionRun} {task : ExecutionTask} (hrun : initializeRun L clock context = .ok run)
    (hready : ∀ other ∈ run.tasks, other.currentState = .ready)
    (htask : selectDispatchTask run.tasks "provider" = .ok task)
    (outcome : Except BaseExn (ρ × ExecutionResult)) :
    DependencyOrdered (Proc.after (recordChat L clock context outcome) []) ↔
      (∀ other ∈ run.tasks, other.taskId ∉ task.dependencies) ∧
      (outcome.isOk → ∀ other ∈ run.tasks, other.taskId = task.taskId) := by
  obtain ⟨hstate, -⟩ := initializeRun_ok hrun
  have hlog := recordChat_run hrun htask outcome
  cases outcome with
  | error raised =>
      have hordered := dispatched_ordered_iff hready task [] fun _ => List.not_mem_nil
      rw [Proc.after_of_error hlog]
      constructor
      · intro h
        exact ⟨hordered.mp h.dispatched, by simp [Except.isOk, Except.toBool]⟩
      · rintro ⟨hdeps, -⟩
        refine ⟨hordered.mpr hdeps, ?_⟩
        simp [publishedRuns, hstate]
  | ok reply =>
      obtain ⟨response, result⟩ := reply
      let last := completedRun context run task result (chatTransitions clock run task)
      have hordered := dispatched_ordered_iff hready task [.published last] (by simp)
      have hcompleted := completedRun_completed_iff hready context task result
        (chatTransitions clock run task)
      rw [Proc.after_of_ok hlog]
      constructor
      · intro h
        refine ⟨hordered.mp h.dispatched, fun _ => hcompleted.mp ?_⟩
        exact h.completed last (by simp [publishedRuns, last]) rfl
      · rintro ⟨hdeps, hall⟩
        refine ⟨hordered.mpr hdeps, ?_⟩
        intro r hr
        simp only [publishedRuns, List.filterMap_cons, List.filterMap_nil, List.mem_cons,
          List.not_mem_nil, or_false] at hr
        rcases hr with rfl | rfl
        · simp [hstate]
        · exact fun _ => hcompleted.mpr (hall rfl)

/-- A prepared context: with metadata and a blueprint. -/
def ExecutionContext.prepare (context : ExecutionContext) (metadata : ExecutionMetadata)
    (blueprint : ExecutionBlueprint) : ExecutionContext :=
  { context with
    executionMetadata := some metadata
    executionBlueprint := some blueprint }

/-- The planned task that a chat run dispatches when no capability is required. -/
def dispatchedPlan (blueprint : ExecutionBlueprint) : Option PlannedTask :=
  (((plannedOrder blueprint).find? (·.1.capability = "provider")).or
    (plannedOrder blueprint).head?).map Prod.fst

/-- The blueprints whose chat runs respect the dependencies. With required capabilities, the
    provider comes first, and alone if the dispatcher returns. With a task graph, the task
    that is dispatched has no prerequisite in the graph, and is the only one if the
    dispatcher returns. -/
def OrderedBlueprint (L : Lower) (blueprint : ExecutionBlueprint) (returns : Bool) : Prop :=
  match blueprint.requiredRuntimeCapabilities with
  | name :: rest => L.lower name = "provider" ∧ (returns → rest = [])
  | [] => ∀ planned, dispatchedPlan blueprint = some planned →
      (∀ other ∈ blueprint.taskGraph,
        other.identifier ∉ dependenciesOf blueprint planned.identifier) ∧
      (returns → ∀ other ∈ blueprint.taskGraph, other.identifier = planned.identifier)

/-- With a task graph, the task of the dispatched plan is dispatched. -/
theorem selectDispatchTask_planned (blueprint : ExecutionBlueprint)
    (horder : plannedOrder blueprint ≠ []) :
    ∃ entry, dispatchedPlan blueprint = some entry.1 ∧
      selectDispatchTask ((plannedOrder blueprint).map (graphTask blueprint)) "provider" =
        .ok (graphTask blueprint entry) := by
  obtain ⟨first, rest, hcons⟩ := List.exists_cons_of_ne_nil horder
  refine ⟨((first :: rest).find? (·.1.capability = "provider")).getD first, ?_, ?_⟩
  · simp only [dispatchedPlan, hcons, List.head?_cons]
    cases (first :: rest).find? (·.1.capability = "provider") <;> rfl
  · have hfind : ((first :: rest).map (graphTask blueprint)).find?
        (·.requiredCapability = "provider") =
        ((first :: rest).find? (·.1.capability = "provider")).map (graphTask blueprint) :=
      List.find?_map
    rw [hcons]
    unfold selectDispatchTask
    rw [List.map_cons] at hfind ⊢
    simp only [hfind]
    cases (first :: rest).find? (·.1.capability = "provider") <;> rfl

/-- A provider task is dispatched wherever there is one. -/
theorem selectDispatchTask_provider (L : Lower) (blueprint : ExecutionBlueprint) :
    ∃ task ∈ capabilityTasks L blueprint, task.requiredCapability = "provider" ∧
      selectDispatchTask (capabilityTasks L blueprint) "provider" = .ok task := by
  obtain ⟨provider, hmem, hprovider⟩ := exists_provider L blueprint
  cases hfind : (capabilityTasks L blueprint).find? (·.requiredCapability = "provider") with
  | none =>
      have := List.find?_eq_none.mp hfind provider hmem
      exact absurd hprovider (by simpa using this)
  | some task =>
      refine ⟨task, List.mem_of_find?_eq_some hfind, ?_, ?_⟩
      · simpa using List.find?_some hfind
      · cases htasks : capabilityTasks L blueprint with
        | nil => simp [htasks] at hmem
        | cons first rest => simp only [selectDispatchTask, ← htasks, hfind, Option.getD_some]

/-- A provider that comes first is dispatched, and no task is appended. -/
theorem selectDispatchTask_first {L : Lower} {blueprint : ExecutionBlueprint} {name : String}
    {rest : List String} (hcaps : blueprint.requiredRuntimeCapabilities = name :: rest)
    (hfirst : L.lower name = "provider") :
    capabilityTasks L blueprint = ((name :: rest).zipIdx.map fun (name, index) =>
      capabilityTask L blueprint name index) ∧
    selectDispatchTask (capabilityTasks L blueprint) "provider" =
      .ok (capabilityTask L blueprint name 0) := by
  have hcap : (capabilityTask L blueprint name 0).requiredCapability = "provider" := hfirst
  have htasks : capabilityTasks L blueprint = ((name :: rest).zipIdx.map fun (name, index) =>
      capabilityTask L blueprint name index) := by
    simp only [capabilityTasks, hcaps, List.zipIdx_cons, List.map_cons, List.any_cons, hcap]
    rfl
  refine ⟨htasks, ?_⟩
  simp only [htasks, List.zipIdx_cons, List.map_cons, selectDispatchTask]
  rw [List.find?_cons_of_pos (by simpa using hcap)]
  rfl

/-- A blueprint that only requires capabilities. -/
def requiring (capabilities : List String) : ExecutionBlueprint :=
  { requiredRuntimeCapabilities := capabilities }

def sampleClock : Clock :=
  fun _ => ⟨0, "2026-01-01T00:00:00+00:00"⟩

def sampleContext (blueprint : ExecutionBlueprint) : ExecutionContext where
  runtimeVersion := "AgentCorp V2"
  executionMetadata := some ⟨"AgentCorp V2", "request", "trace", "execution",
    "2026-01-01T00:00:00+00:00"⟩
  executionBlueprint := some blueprint

/-- A dispatch of the second capability task that returns. -/
def sampleReply : Unit × ExecutionResult :=
  ((), ⟨"capability_2", .completed, [], sampleClock 0, sampleClock 0⟩)

/-- With the capabilities Memory and Provider, the provider task is dispatched although the
    task it depends on is READY, and that task is still READY in the COMPLETED run. -/
theorem memory_provider_not_ordered :
    ¬ DependencyOrdered (Proc.after (recordChat Lower.asciiOnly sampleClock
      (sampleContext (requiring ["Memory", "Provider"])) (.ok sampleReply)) []) := by
  intro h
  have hpending : ∃ run ∈ publishedRuns (Proc.after (recordChat Lower.asciiOnly sampleClock
      (sampleContext (requiring ["Memory", "Provider"])) (.ok sampleReply)) []),
      run.state = .completed ∧ ∃ task ∈ run.tasks, task.currentState ≠ .completed := by
    decide
  obtain ⟨run, hrun, hstate, task, htask, hne⟩ := hpending
  exact hne (h.completed run hrun hstate task htask)

section Ordered

variable (L : Lower) (clock : Clock) (context : ExecutionContext) (metadata : ExecutionMetadata)
  {blueprint : ExecutionBlueprint} (outcome : Except BaseExn (ρ × ExecutionResult))

/-- Without tasks nothing is dispatched and nothing completed. -/
theorem empty_ordered (hcaps : blueprint.requiredRuntimeCapabilities = [])
    (horder : plannedOrder blueprint = []) :
    DependencyOrdered
      (Proc.after (recordChat L clock (context.prepare metadata blueprint) outcome) []) := by
  obtain ⟨run, hrun, hstate, htasks⟩ := initializeRun_prepared L clock
    (context.prepare metadata blueprint) rfl rfl
  have hnil : run.tasks = [] := by
    rw [htasks, buildExecutionTasks, if_neg (by simp [hcaps]), graphTasks_eq, horder, List.map_nil]
  rw [Proc.after_of_error (recordChat_nil hrun hnil outcome)]
  refine ⟨fun earlier task later h => ?_, by simp [publishedRuns, hstate]⟩
  match earlier, h with
  | [], h => simp at h
  | first :: rest, h => simp at h

/-- With a task graph, the planned task that is dispatched decides. -/
theorem graph_ordered_iff (hcaps : blueprint.requiredRuntimeCapabilities = [])
    (horder : plannedOrder blueprint ≠ []) :
    ∃ planned, dispatchedPlan blueprint = some planned ∧
      (DependencyOrdered
        (Proc.after (recordChat L clock (context.prepare metadata blueprint) outcome) []) ↔
      (∀ other ∈ blueprint.taskGraph,
        other.identifier ∉ dependenciesOf blueprint planned.identifier) ∧
      (outcome.isOk → ∀ other ∈ blueprint.taskGraph, other.identifier = planned.identifier)) := by
  obtain ⟨run, hrun, -, htasks⟩ := initializeRun_prepared L clock
    (context.prepare metadata blueprint) rfl rfl
  have hready : ∀ other ∈ run.tasks, other.currentState = .ready := fun other h =>
    mem_buildExecutionTasks_ready L blueprint (htasks ▸ h)
  have htasks' : run.tasks = (plannedOrder blueprint).map (graphTask blueprint) := by
    rw [htasks, buildExecutionTasks, if_neg (by simp [hcaps]), graphTasks_eq]
  -- The tasks of the run have the identifiers of the graph.
  have hall : ∀ p : String → Prop, (∀ other ∈ run.tasks, p other.taskId) ↔
      ∀ other ∈ blueprint.taskGraph, p other.identifier := by
    intro p
    simp only [htasks', List.forall_mem_map, graphTask, Prod.forall]
    refine ⟨fun h other hother => ?_, fun h other index hin => ?_⟩
    · obtain ⟨index, hin⟩ := mem_plannedOrder.mpr hother
      exact h other index hin
    · exact h other (mem_plannedOrder.mp ⟨index, hin⟩)
  obtain ⟨entry, hplan, hselect⟩ := selectDispatchTask_planned blueprint horder
  refine ⟨entry.1, hplan, ?_⟩
  rw [recordChat_ordered_iff hrun hready (by rw [htasks', hselect])]
  exact and_congr (hall fun id => id ∉ dependenciesOf blueprint entry.1.identifier)
    (imp_congr_right fun _ => hall fun id => id = entry.1.identifier)

/-- With required capabilities, the provider comes first, and alone if the dispatcher returns. -/
theorem capabilities_ordered_iff {name : String} {rest : List String}
    (hcaps : blueprint.requiredRuntimeCapabilities = name :: rest) :
    DependencyOrdered
      (Proc.after (recordChat L clock (context.prepare metadata blueprint) outcome) []) ↔
    L.lower name = "provider" ∧ (outcome.isOk → rest = []) := by
  obtain ⟨run, hrun, -, htasks⟩ := initializeRun_prepared L clock
    (context.prepare metadata blueprint) rfl rfl
  have hready : ∀ other ∈ run.tasks, other.currentState = .ready := fun other h =>
    mem_buildExecutionTasks_ready L blueprint (htasks ▸ h)
  have htasks' : run.tasks = capabilityTasks L blueprint := by
    rw [htasks, buildExecutionTasks, if_pos (by simp [hcaps])]
  by_cases hfirst : L.lower name = "provider"
  · obtain ⟨hall, hselect⟩ := selectDispatchTask_first hcaps hfirst
    rw [recordChat_ordered_iff hrun hready (by rw [htasks', hselect]), htasks', hall]
    simp only [hfirst, true_and]
    refine ⟨fun h hok => ?_, fun h => ⟨by simp [capabilityTask], fun hok => ?_⟩⟩
    · -- A second capability would be a task of another identifier.
      cases rest with
      | nil => rfl
      | cons second rest =>
          have hid : capabilityId 2 = capabilityId 1 :=
            h.2 hok (capabilityTask L blueprint second 1) (by simp)
          exact absurd (capabilityId_injective hid) (by decide)
    · simp [h hok]
  · obtain ⟨task, hmem, hprovider, hselect⟩ := selectDispatchTask_provider L blueprint
    obtain ⟨earlier, hearlier, hdep⟩ := provider_depends L blueprint hcaps hfirst hmem hprovider
    rw [recordChat_ordered_iff hrun hready (by rw [htasks', hselect]), htasks']
    simp only [hfirst, false_and, iff_false]
    exact fun h => h.1 earlier hearlier hdep

end Ordered

/-- **Dependencies.** A chat run of a prepared context dispatches in order and completes only
    complete runs exactly for the blueprints of `OrderedBlueprint`. -/
theorem executeChat_ordered_iff (L : Lower) (clock : Clock) (context : ExecutionContext)
    (metadata : ExecutionMetadata) (blueprint : ExecutionBlueprint)
    (outcome : Except BaseExn (ρ × ExecutionResult)) :
    DependencyOrdered
      (Proc.after (recordChat L clock (context.prepare metadata blueprint) outcome) []) ↔
    OrderedBlueprint L blueprint outcome.isOk := by
  unfold OrderedBlueprint
  cases hcaps : blueprint.requiredRuntimeCapabilities with
  | nil =>
      by_cases horder : plannedOrder blueprint = []
      · have hplan : dispatchedPlan blueprint = none := by simp [dispatchedPlan, horder]
        simp only [hplan, reduceCtorEq, false_implies, implies_true, iff_true]
        exact empty_ordered L clock context metadata outcome hcaps horder
      · obtain ⟨planned, hplan, hordered⟩ :=
          graph_ordered_iff L clock context metadata outcome hcaps horder
        rw [hordered]
        simp only [hplan, Option.some.injEq, forall_eq']
  | cons name rest => exact capabilities_ordered_iff L clock context metadata outcome hcaps

/-! ## The lifecycle -/

/-- The transitions of a run start at INITIALIZED, and each one continues the one before
    along the table. -/
def Contiguous (transitions : List ExecutionStateTransition) : Prop :=
  transitions.head?.map ExecutionStateTransition.toState = some .initialized ∧
  transitions.IsChain fun a b => b.fromState = some a.toState ∧ Allowed a.toState b.toState

/-- What a run should publish: a path of the state machine whose last state is terminal and
    matches the outcome, with contiguous transitions throughout. -/
structure LifecycleOk {α : Type} (events : List EngineEvent) (result : Except BaseExn α) :
    Prop where
  path : ((publishedRuns events).map ExecutionRun.state).IsChain Allowed
  terminal : ∃ run, (publishedRuns events).getLast? = some run ∧
    match result with
    | .ok _ => run.state = .completed
    | .error _ => run.state = .failed ∨ run.state = .cancelled
  contiguous : ∀ run ∈ publishedRuns events, Contiguous run.transitions

/-- No run that ends at READY or earlier reaches a terminal state. -/
theorem not_lifecycleOk_of_ready {α : Type} {events : List EngineEvent}
    {result : Except BaseExn α}
    (h : ∀ run, (publishedRuns events).getLast? = some run → run.state = .ready) :
    ¬ LifecycleOk events result := by
  rintro ⟨-, ⟨run, hlast, hmatch⟩, -⟩
  rw [h run hlast] at hmatch
  cases result <;> simp at hmatch

/-- A run that raises before it is initialized publishes nothing. -/
theorem recordChat_error {L : Lower} {clock : Clock} {context : ExecutionContext} {exc : Exn}
    (h : initializeRun L clock context = .error exc)
    (outcome : Except BaseExn (ρ × ExecutionResult)) :
    (recordChat L clock context outcome).run [] = .error (.exception exc) [] := by
  unfold recordChat executeChat
  rw [h]
  rfl

theorem recordStream_run (L : Lower) (clock : Clock) (context : ExecutionContext)
    (outcome : Except BaseExn Unit) :
    ∀ run ∈ publishedRuns (Proc.after (recordStream L clock context outcome) []),
      run.state = .ready := by
  unfold recordStream executeStream
  cases hrun : initializeRun L clock context with
  | error exc => simp [Py.raise, Proc.after, publishedRuns]
  | ok run =>
      obtain ⟨hstate, -⟩ := initializeRun_ok hrun
      rw [Py.ofResult_ok_bind]
      cases htask : selectDispatchTask run.tasks "streaming" with
      | error exc => simp [Py.raise, Proc.after, publishedRuns]
      | ok task =>
          rw [Py.ofResult_ok_bind]
          have hafter : Proc.after (do recordRun run
                                       recordDispatch outcome task (runningContext context)) [] =
              [.published run, .dispatched task] := by
            cases outcome <;> rfl
          rw [hafter]
          simpa [publishedRuns] using hstate

/-- Even a chat run of the provider alone goes from READY to COMPLETED. -/
theorem provider_run_not_lifecycleOk :
    ¬ LifecycleOk
      (Proc.after (recordChat Lower.asciiOnly sampleClock
        (sampleContext (requiring ["Provider"])) (.ok sampleReply)) [])
      (Proc.outcome (recordChat Lower.asciiOnly sampleClock
        (sampleContext (requiring ["Provider"])) (.ok sampleReply)) []) := by
  intro h
  have hstates : (publishedRuns (Proc.after (recordChat Lower.asciiOnly sampleClock
      (sampleContext (requiring ["Provider"])) (.ok sampleReply)) [])).map ExecutionRun.state =
      [.ready, .completed] := by decide
  have hpath := h.path
  rw [hstates] at hpath
  exact absurd hpath (by decide)

/-- **Lifecycle.** No chat run and no stream run publishes the lifecycle its state machine
    describes: a chat run that returns goes from READY to COMPLETED, which is no transition,
    and every other run is last published as READY. -/
theorem engine_lifecycle_never (L : Lower) (clock : Clock) (context : ExecutionContext) :
    (∀ outcome : Except BaseExn (ρ × ExecutionResult),
      ¬ LifecycleOk (Proc.after (recordChat L clock context outcome) [])
        (Proc.outcome (recordChat L clock context outcome) [])) ∧
    (∀ outcome : Except BaseExn Unit,
      ¬ LifecycleOk (Proc.after (recordStream L clock context outcome) [])
        (Proc.outcome (recordStream L clock context outcome) [])) := by
  refine ⟨fun outcome => ?_, fun outcome => not_lifecycleOk_of_ready fun run hlast =>
    recordStream_run L clock context outcome run (List.mem_of_getLast? hlast)⟩
  cases hrun : initializeRun L clock context with
  | error exc =>
      refine not_lifecycleOk_of_ready fun run hlast => ?_
      rw [Proc.after_of_error (recordChat_error hrun outcome)] at hlast
      simp [publishedRuns] at hlast
  | ok run =>
      obtain ⟨hstate, -⟩ := initializeRun_ok hrun
      have hfirst : ∀ events : List EngineEvent, publishedRuns events = [run] →
          ∀ last, (publishedRuns events).getLast? = some last → last.state = .ready := by
        intro events hevents last hlast
        rw [hevents] at hlast
        obtain rfl : run = last := by simpa using hlast
        exact hstate
      cases htasks : run.tasks with
      | nil =>
          rw [Proc.after_of_error (recordChat_nil hrun htasks outcome)]
          exact not_lifecycleOk_of_ready (hfirst _ rfl)
      | cons first rest =>
          have hlog := recordChat_run hrun (by rw [htasks]; rfl) outcome
          cases outcome with
          | error raised =>
              rw [Proc.after_of_error hlog]
              exact not_lifecycleOk_of_ready (hfirst _ rfl)
          | ok reply =>
              obtain ⟨response, result⟩ := reply
              rw [Proc.after_of_ok hlog]
              -- READY is followed by COMPLETED: the RUNNING state is never published.
              intro h
              have hpath := h.path
              simp [publishedRuns, completedRun, hstate, Allowed, allowedTransitions] at hpath

end AgentCorp.Runtime
