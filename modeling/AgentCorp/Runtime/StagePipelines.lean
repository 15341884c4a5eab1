/-
  The stage pipelines of the cognitive and the planning engine, with their whole traces.

  Both engines run their stages one after the other. A stage, the summary of its state and the
  look-up of its confidence stand in one guarded block, after which an `Exception` takes the
  state back. Here a stage may raise anything, a state has the metadata of its engine, and an
  entry of the trace the clock and the snapshots.

  * `runStages_spec`: the stages, by what their guarded blocks do.
  * `runStages_lift`: stages that raise exceptions only and leave the metadata alone run as in
    `Cognitive` and `Planning`.
  * `unfailing_iff`: the runs that end at the fold of the stages that return.
  * `pipelines_unfailing_iff`: the lists of stages of both engines that run so.
-/
import AgentCorp.Runtime.AdaptivePlanning

namespace AgentCorp.Runtime

open AgentCorp.Python

/-! ## Stages that may raise anything -/

structure PipelineStage (σ : Type) where
  stageName : String
  apply : σ → Except BaseExn σ

/-- An entry of the trace, with the snapshots of the state before and after the stage. -/
structure PipelineEntry (κ : Type) extends StageEntry where
  startedAt : String
  completedAt : String
  duration : Rat
  inputSnapshot : κ
  outputSnapshot : κ

/-- What an engine reads off a state: a summary, a confidence, and a snapshot for the trace. -/
structure Pipeline (σ κ : Type) where
  summarize : String → σ → String
  confidence : String → σ → Except Exn Rat
  snapshot : σ → κ

namespace Pipeline

variable {σ κ : Type} (P : Pipeline σ κ)

/-- The guarded block of a stage. -/
def guarded (stage : PipelineStage σ) (before : σ) : Except BaseExn (σ × String × Rat) := do
  let state ← stage.apply before
  let confidence ← (P.confidence stage.stageName state).mapError .exception
  return (state, P.summarize stage.stageName state, confidence)

/-- One pass of the loop over the stages. Only an `Exception` is caught. -/
def runStage (clock : Clock) (stage : PipelineStage σ) (before : σ) :
    Except BaseExn (σ × PipelineEntry κ) :=
  let entry (status summary : String) (confidence : Rat) (errors : List String) (after : σ) :
      PipelineEntry κ :=
    { stageName := stage.stageName
      status := status
      summary := summary
      confidence := confidence
      errors := errors
      startedAt := (clock 0).isoformat
      completedAt := (clock 1).isoformat
      duration := ((clock 1).micros - (clock 0).micros : Int) / 1000000
      inputSnapshot := P.snapshot before
      outputSnapshot := P.snapshot after }
  match P.guarded stage before with
  | .ok (state, summary, confidence) =>
      .ok (state, entry "COMPLETED" summary confidence [] state)
  | .error (.exception exc) => .ok (before, entry "FAILED" exc.text 0 [exc.text] before)
  | .error raised => .error raised

def runStages : (Nat → Clock) → List (PipelineStage σ) → σ →
    Except BaseExn (σ × List (PipelineEntry κ))
  | _, [], state => .ok (state, [])
  | clock, stage :: stages, state => do
      let (next, entry) ← P.runStage (clock 0) stage state
      let (last, entries) ← runStages (fun i => clock (i + 1)) stages next
      return (last, entry :: entries)

/-- The state that the guarded block of a stage leaves. -/
def attempt (stage : PipelineStage σ) (state : σ) : Except BaseExn σ :=
  (P.guarded stage state).map Prod.fst

end Pipeline

/-! ## Attempts, one after the other -/

section Attempts

variable {σ κ : Type} (attempt : PipelineStage σ → σ → Except BaseExn σ)

/-- The state after an attempt: an `Exception` leaves it as it was. -/
def settled (state : σ) (stage : PipelineStage σ) : Except BaseExn σ :=
  match attempt stage state with
  | .ok next => .ok next
  | .error (.exception _) => .ok state
  | .error raised => .error raised

/-- Which attempts complete, each on the state that the ones before it leave. -/
def stageStatuses : List (PipelineStage σ) → σ → List String
  | [], _ => []
  | stage :: stages, state =>
      match attempt stage state with
      | .ok next => "COMPLETED" :: stageStatuses stages next
      | .error _ => "FAILED" :: stageStatuses stages state

/-- One entry for each stage, in order, with its status, and snapshots that form a chain. -/
structure Traced (snapshot : σ → κ) (stages : List (PipelineStage σ)) (init : σ)
    (trace : List (PipelineEntry κ)) : Prop where
  names : trace.map (·.stageName) = stages.map PipelineStage.stageName
  statuses : trace.map (·.status) = stageStatuses attempt stages init
  first : ∀ entry ∈ trace.head?, entry.inputSnapshot = snapshot init
  chained : trace.IsChain fun a b => b.inputSnapshot = a.outputSnapshot

/-- A run follows its attempts: it raises what is no `Exception`, and otherwise ends at the fold
    of the attempts, with a trace of all stages. -/
def FailSoft (snapshot : σ → κ) (stages : List (PipelineStage σ)) (init : σ)
    (run : Except BaseExn (σ × List (PipelineEntry κ))) : Prop :=
  match stages.foldlM (settled attempt) init with
  | .error raised => run = .error raised
  | .ok last => ∃ trace, run = .ok (last, trace) ∧ Traced attempt snapshot stages init trace

theorem Traced.cons {snapshot : σ → κ} {stage : PipelineStage σ} {stages : List (PipelineStage σ)}
    {init next : σ} {entry : PipelineEntry κ} {trace : List (PipelineEntry κ)} {status : String}
    (h : Traced attempt snapshot stages next trace) (hname : entry.stageName = stage.stageName)
    (hstatus : entry.status = status)
    (hstatuses : stageStatuses attempt (stage :: stages) init =
      status :: stageStatuses attempt stages next)
    (hinput : entry.inputSnapshot = snapshot init)
    (houtput : entry.outputSnapshot = snapshot next) :
    Traced attempt snapshot (stage :: stages) init (entry :: trace) where
  names := by rw [List.map_cons, List.map_cons, hname, h.names]
  statuses := by rw [List.map_cons, hstatus, hstatuses, h.statuses]
  first := by
    intro e he
    obtain rfl : entry = e := by simpa using he
    exact hinput
  chained := by
    refine List.isChain_cons.mpr ⟨fun e he => ?_, h.chained⟩
    rw [h.first e he, houtput]

end Attempts

namespace Pipeline

variable {σ κ : Type} (P : Pipeline σ κ)

/-- A stage whose attempt leaves `next`, and how the other stages go on from it. -/
theorem runStages_cons {clock : Nat → Clock} {stage : PipelineStage σ}
    {stages : List (PipelineStage σ)} {init next : σ} {entry : PipelineEntry κ} {status : String}
    (hrest : FailSoft P.attempt P.snapshot stages next
      (P.runStages (fun i => clock (i + 1)) stages next))
    (hsettled : settled P.attempt init stage = .ok next)
    (hstatuses : stageStatuses P.attempt (stage :: stages) init =
      status :: stageStatuses P.attempt stages next)
    (hrun : P.runStage (clock 0) stage init = .ok (next, entry))
    (hname : entry.stageName = stage.stageName) (hstatus : entry.status = status)
    (hinput : entry.inputSnapshot = P.snapshot init)
    (houtput : entry.outputSnapshot = P.snapshot next) :
    FailSoft P.attempt P.snapshot (stage :: stages) init
      (P.runStages clock (stage :: stages) init) := by
  unfold FailSoft at hrest ⊢
  rw [List.foldlM_cons, hsettled]
  simp only [bind, Except.bind, runStages, hrun]
  cases hfold : stages.foldlM (settled P.attempt) next with
  | error raised =>
      rw [hfold] at hrest
      simp only [hrest]
  | ok last =>
      rw [hfold] at hrest
      obtain ⟨trace, htrace, htraced⟩ := hrest
      refine ⟨entry :: trace, ?_, ?_⟩
      · simp only [htrace, pure, Except.pure]
      · exact htraced.cons P.attempt hname hstatus hstatuses hinput houtput

/-- One stage, by its attempt. -/
theorem runStage_spec (clock : Clock) (stage : PipelineStage σ) (before : σ) :
    match P.attempt stage before with
    | .ok next => ∃ entry, P.runStage clock stage before = .ok (next, entry) ∧
        entry.stageName = stage.stageName ∧ entry.status = "COMPLETED" ∧
        entry.inputSnapshot = P.snapshot before ∧ entry.outputSnapshot = P.snapshot next
    | .error (.exception _) => ∃ entry, P.runStage clock stage before = .ok (before, entry) ∧
        entry.stageName = stage.stageName ∧ entry.status = "FAILED" ∧
        entry.inputSnapshot = P.snapshot before ∧ entry.outputSnapshot = P.snapshot before
    | .error raised => P.runStage clock stage before = .error raised := by
  unfold attempt runStage
  cases P.guarded stage before with
  | ok outcome => exact ⟨_, rfl, rfl, rfl, rfl, rfl⟩
  | error raised =>
      cases raised with
      | exception exc => exact ⟨_, rfl, rfl, rfl, rfl, rfl⟩
      | cancelledError => rfl
      | generatorExit => rfl

/-- The loop follows the attempts of the stages. -/
theorem runStages_spec (clock : Nat → Clock) (stages : List (PipelineStage σ)) (init : σ) :
    FailSoft P.attempt P.snapshot stages init (P.runStages clock stages init) := by
  induction stages generalizing clock init with
  | nil => exact ⟨[], rfl, rfl, rfl, by simp, List.isChain_nil⟩
  | cons stage stages ih =>
      have hstage := P.runStage_spec (clock 0) stage init
      cases hattempt : P.attempt stage init with
      | ok next =>
          rw [hattempt] at hstage
          obtain ⟨entry, hrun, hname, hstatus, hinput, houtput⟩ := hstage
          exact P.runStages_cons (ih _ next) (by simp only [settled, hattempt])
            (by simp only [stageStatuses, hattempt]) hrun hname hstatus hinput houtput
      | error raised =>
          rw [hattempt] at hstage
          cases raised with
          | exception exc =>
              obtain ⟨entry, hrun, hname, hstatus, hinput, houtput⟩ := hstage
              exact P.runStages_cons (ih _ init) (by simp only [settled, hattempt])
                (by simp only [stageStatuses, hattempt]) hrun hname hstatus hinput houtput
          | cancelledError =>
              simp only [FailSoft, List.foldlM_cons, settled, hattempt, bind, Except.bind,
                runStages, hstage]
          | generatorExit =>
              simp only [FailSoft, List.foldlM_cons, settled, hattempt, bind, Except.bind,
                runStages, hstage]

end Pipeline

/-! ## CognitiveEngine -/

structure CognitiveProcessingMetadata where
  runtimeVersion : String
  analysisVersion : String
  requestId : String
  traceId : String
  createdAt : String
  analysisDuration : Rat := 0
  deriving DecidableEq, Repr

/-- A cognitive state with its metadata. -/
structure AnalysisState extends CognitiveState where
  processingMetadata : Option CognitiveProcessingMetadata := none
  deriving DecidableEq, Repr

/-- `CognitiveEngine._safe_snapshot`. -/
structure CognitiveSnapshot where
  normalizedGoal : Option String
  intents : List CognitiveIntent
  constraints : List String
  capabilities : List String
  complexity : Option CognitiveComplexityAssessment
  deriving DecidableEq, Repr

def cognitiveSnapshot (state : AnalysisState) : CognitiveSnapshot where
  normalizedGoal := state.normalizedGoal
  intents := state.intentCollection
  constraints := state.constraintCollection
  capabilities := state.requiredRuntimeCapabilities
  complexity := state.complexityAssessment

def cognitivePipeline (L : Lower) : Pipeline AnalysisState CognitiveSnapshot where
  summarize stageName state := summarizeState stageName state.toCognitiveState
  confidence stageName state := stageConfidence L stageName state.toCognitiveState
  snapshot := cognitiveSnapshot

/-- What an engine reads from its surroundings in one run: the clock before, during and after the
    stages, and two fresh UUIDs. -/
structure EngineEnv where
  startedAt : Instant
  stageClock : Nat → Clock
  endedAt : Instant
  requestUuid : String
  traceUuid : String

/-- `(end - start).total_seconds()`. -/
def EngineEnv.duration (env : EngineEnv) : Rat :=
  (env.endedAt.micros - env.startedAt.micros : Int) / 1000000

/-- The state that `CognitiveEngine.analyze` starts from. -/
def analysisStart (env : EngineEnv) (analysisVersion requestText runtimeVersion : String)
    (requestId : Option String) : AnalysisState where
  rawRequest := requestText
  processingMetadata := some
    { runtimeVersion := runtimeVersion
      analysisVersion := analysisVersion
      requestId := orText requestId env.requestUuid
      traceId := env.traceUuid
      createdAt := env.startedAt.isoformat }

/-- `CognitiveEngine.analyze`: the state and its `analysis_trace`, of which the field of the state
    keeps the entries without times and snapshots. The duration is written into the metadata that
    the stages leave. -/
def analyzeRequest (L : Lower) (env : EngineEnv) (analysisVersion : String)
    (stages : List (PipelineStage AnalysisState)) (requestText runtimeVersion : String)
    (requestId : Option String) :
    Except BaseExn (AnalysisState × List (PipelineEntry CognitiveSnapshot)) := do
  let (state, trace) ← (cognitivePipeline L).runStages env.stageClock stages
    (analysisStart env analysisVersion requestText runtimeVersion requestId)
  return ({ state with
    processingMetadata := state.processingMetadata.map fun metadata =>
      { metadata with analysisDuration := env.duration }
    analysisTrace := trace.map PipelineEntry.toStageEntry }, trace)

/-! ## PlanningEngine -/

structure PlanningMetadata where
  runtimeVersion : String
  planningVersion : String
  requestId : String
  traceId : String
  createdAt : String
  planningDuration : Rat := 0
  deriving DecidableEq, Repr

/-- An execution blueprint with all its fields. -/
structure PlanningState extends ExecutionBlueprint where
  planningMetadata : Option PlanningMetadata := none
  rawCognitiveState : Option AnalysisState := none
  revisionNumber : Nat := 0
  blueprintHistory : List BlueprintRevision := []
  supersededTasks : List String := []
  insertedTasks : List String := []
  removedTasks : List String := []
  planningRationale : Option String := none
  deriving DecidableEq, Repr

/-- `PlanningEngine._safe_snapshot`. -/
structure PlanningSnapshot where
  objective : Option String
  tasks : List PlannedTask
  dependencies : List DependencyEdge
  milestones : List PlannedMilestone
  risks : List RiskAssessmentItem
  deriving DecidableEq, Repr

def planningSnapshot (blueprint : PlanningState) : PlanningSnapshot where
  objective := blueprint.executionObjective.bind ExecutionObjective.primaryObjective
  tasks := blueprint.taskGraph
  dependencies := blueprint.dependencyGraph
  milestones := blueprint.milestones
  risks := blueprint.estimatedRisks

def planningPipeline : Pipeline PlanningState PlanningSnapshot where
  summarize stageName blueprint := summarizeStage stageName blueprint.toExecutionBlueprint
  confidence stageName blueprint := planConfidence stageName blueprint.toExecutionBlueprint
  snapshot := planningSnapshot

/-- The metadata that `PlanningEngine.plan` makes. -/
def planMetadata (env : EngineEnv) (planningVersion : String) (cognitiveState : AnalysisState)
    (runtimeVersion : String) (requestId : Option String) : PlanningMetadata where
  runtimeVersion := runtimeVersion
  planningVersion := planningVersion
  requestId := orText requestId
    ((cognitiveState.processingMetadata.map (·.requestId)).getD env.requestUuid)
  traceId := env.traceUuid
  createdAt := env.startedAt.isoformat

/-- The blueprint that `PlanningEngine.plan` starts from. -/
def planStart (env : EngineEnv) (planningVersion : String) (cognitiveState : AnalysisState)
    (runtimeVersion : String) (requestId : Option String) : PlanningState where
  planningMetadata := some
    (planMetadata env planningVersion cognitiveState runtimeVersion requestId)
  rawCognitiveState := some cognitiveState

/-- `PlanningEngine.plan`: the blueprint and its `planning_trace`, of which the field of the
    blueprint keeps the entries without times and snapshots. The metadata are those of the start,
    whatever the stages made of them. -/
def planRequest (env : EngineEnv) (planningVersion : String)
    (stages : List (PipelineStage PlanningState)) (cognitiveState : AnalysisState)
    (runtimeVersion : String) (requestId : Option String) :
    Except BaseExn (PlanningState × List (PipelineEntry PlanningSnapshot)) := do
  let metadata := planMetadata env planningVersion cognitiveState runtimeVersion requestId
  let (blueprint, trace) ← planningPipeline.runStages env.stageClock stages
    (planStart env planningVersion cognitiveState runtimeVersion requestId)
  return ({ blueprint with
    planningMetadata := some { metadata with planningDuration := env.duration }
    planningTrace := trace.map PipelineEntry.toStageEntry }, trace)

/-! ## Stages without metadata -/

section Lift

variable {σ τ κ : Type} (get : σ → τ) (set : σ → τ → σ)

/-- A stage on a part of the state. -/
def Stage.lift (stage : Stage τ) : PipelineStage σ where
  stageName := stage.stageName
  apply state :=
    match stage.apply (get state) with
    | .ok next => .ok (set state next)
    | .error exc => .error (.exception exc)

variable (P : Pipeline σ κ) (summarize : String → τ → String)
  (confidence : String → τ → Except Exn Rat)

theorem runStage_lift (hget : ∀ state part, get (set state part) = part)
    (hsummarize : ∀ name state, P.summarize name state = summarize name (get state))
    (hconfidence : ∀ name state, P.confidence name state = confidence name (get state))
    (clock : Clock) (stage : Stage τ) (before : σ) :
    ∃ next entry, P.runStage clock (stage.lift get set) before = .ok (next, entry) ∧
      get next = (runStage summarize confidence stage (get before)).1 ∧
      entry.toStageEntry = (runStage summarize confidence stage (get before)).2 := by
  simp only [Pipeline.runStage, Pipeline.guarded, runStage, Stage.lift]
  cases stage.apply (get before) with
  | error exc =>
      refine ⟨_, _, rfl, ?_, ?_⟩
      · rfl
      · rfl
  | ok part =>
      simp only [bind, Except.bind, hsummarize, hconfidence, hget]
      cases confidence stage.stageName part with
      | error exc =>
          refine ⟨_, _, rfl, ?_, ?_⟩
          · rfl
          · rfl
      | ok conf =>
          refine ⟨_, _, rfl, ?_, ?_⟩
          · exact hget before part
          · rfl

/-- Such stages run as they do on the part alone, and never escape. -/
theorem runStages_lift (hget : ∀ state part, get (set state part) = part)
    (hsummarize : ∀ name state, P.summarize name state = summarize name (get state))
    (hconfidence : ∀ name state, P.confidence name state = confidence name (get state))
    (clock : Nat → Clock) (stages : List (Stage τ)) (init : σ) :
    ∃ last trace, P.runStages clock (stages.map (Stage.lift get set)) init = .ok (last, trace) ∧
      get last = (runStages summarize confidence stages (get init)).1 ∧
      trace.map PipelineEntry.toStageEntry =
        (runStages summarize confidence stages (get init)).2 := by
  induction stages generalizing clock init with
  | nil => exact ⟨init, [], rfl, rfl, rfl⟩
  | cons stage stages ih =>
      obtain ⟨next, entry, hrun, hnext, hentry⟩ :=
        runStage_lift get set P summarize confidence hget hsummarize hconfidence (clock 0) stage
          init
      obtain ⟨last, trace, hrest, hlast, htrace⟩ := ih (fun i => clock (i + 1)) next
      rw [hnext] at hlast htrace
      refine ⟨last, entry :: trace, ?_, hlast, ?_⟩
      · rw [List.map_cons, Pipeline.runStages, hrun]
        simp only [bind, Except.bind, hrest, pure, Except.pure]
      · rw [List.map_cons, htrace, hentry]
        rfl

end Lift

/-- The analysis with metadata is the one of `Cognitive`, for the stages that it is about. -/
theorem analyzeRequest_lift (L : Lower) (env : EngineEnv) (analysisVersion : String)
    (stages : List (Stage CognitiveState)) (requestText runtimeVersion : String)
    (requestId : Option String) :
    ∃ state trace,
      analyzeRequest L env analysisVersion
        (stages.map (Stage.lift AnalysisState.toCognitiveState
          fun state part => { state with toCognitiveState := part }))
        requestText runtimeVersion requestId = .ok (state, trace) ∧
      state.toCognitiveState = analyze L stages requestText := by
  obtain ⟨last, trace, hrun, hlast, htrace⟩ := runStages_lift AnalysisState.toCognitiveState
    (fun state part => { state with toCognitiveState := part }) (cognitivePipeline L)
    summarizeState (stageConfidence L) (fun _ _ => rfl) (fun _ _ => rfl) (fun _ _ => rfl)
    env.stageClock stages (analysisStart env analysisVersion requestText runtimeVersion requestId)
  refine ⟨_, _, by rw [analyzeRequest, hrun]; rfl, ?_⟩
  show { last.toCognitiveState with analysisTrace := trace.map PipelineEntry.toStageEntry } = _
  rw [hlast, htrace]
  rfl

/-- The same for the planning. -/
theorem planRequest_lift (env : EngineEnv) (planningVersion : String)
    (stages : List (Stage ExecutionBlueprint)) (cognitiveState : AnalysisState)
    (runtimeVersion : String) (requestId : Option String) :
    ∃ blueprint trace,
      planRequest env planningVersion
        (stages.map (Stage.lift PlanningState.toExecutionBlueprint
          fun blueprint part => { blueprint with toExecutionBlueprint := part }))
        cognitiveState runtimeVersion requestId = .ok (blueprint, trace) ∧
      blueprint.toExecutionBlueprint = plan stages := by
  obtain ⟨last, trace, hrun, hlast, htrace⟩ := runStages_lift PlanningState.toExecutionBlueprint
    (fun blueprint part => { blueprint with toExecutionBlueprint := part }) planningPipeline
    summarizeStage planConfidence (fun _ _ => rfl) (fun _ _ => rfl) (fun _ _ => rfl)
    env.stageClock stages (planStart env planningVersion cognitiveState runtimeVersion requestId)
  refine ⟨_, _, by rw [planRequest, hrun]; rfl, ?_⟩
  show { last.toExecutionBlueprint with
    planningTrace := trace.map PipelineEntry.toStageEntry } = _
  rw [hlast, htrace]
  rfl

/-! ## What a stage comes to -/

/-- A stage of the analysis. Where there are confidences, its name has to have a word: the first
    one is looked up in them, inside the guarded block. -/
def analysisAttempt (L : Lower) (stage : PipelineStage AnalysisState) (state : AnalysisState) :
    Except BaseExn AnalysisState := do
  let next ← stage.apply state
  if next.confidenceAssessments ≠ [] ∧ split (L.lower stage.stageName) = [] then
    .error (.exception (.other "IndexError" "list index out of range"))
  else return next

theorem attempt_cognitivePipeline (L : Lower) :
    (cognitivePipeline L).attempt = analysisAttempt L := by
  funext stage state
  unfold Pipeline.attempt Pipeline.guarded analysisAttempt
  cases stage.apply state with
  | error raised => rfl
  | ok next =>
      simp only [cognitivePipeline, stageConfidence, bind, Except.bind, pure, Except.pure]
      by_cases hnone : next.confidenceAssessments = []
      · simp [hnone, Except.mapError, Except.map]
      · cases hsplit : split (L.lower stage.stageName) with
        | nil => simp [hnone, Except.mapError, Except.map]
        | cons key rest => simp [hnone, Except.mapError, Except.map]

/-- A stage of the planning: what follows it in the guarded block never raises. -/
theorem attempt_planningPipeline : planningPipeline.attempt = PipelineStage.apply := by
  funext stage state
  unfold Pipeline.attempt Pipeline.guarded
  cases stage.apply state with
  | error raised => rfl
  | ok next => rfl

/-! ## Runs that end at the fold of the stages that return -/

section Unfailing

variable {σ κ τ : Type}

/-- The state after a stage, whatever it raises. -/
def PipelineStage.completed (state : σ) (stage : PipelineStage σ) : σ :=
  match stage.apply state with
  | .ok next => next
  | .error _ => state

/-- The run raises nothing. It ends at the fold of the stages that return, as far as `erase`
    tells states apart, and the entries of the state it returns are those of a trace of all
    stages. -/
def Unfailing (erase : σ → τ) (entries : σ → List StageEntry) (snapshot : σ → κ)
    (stages : List (PipelineStage σ)) (init : σ)
    (run : Except BaseExn (σ × List (PipelineEntry κ))) : Prop :=
  ∃ final trace, run = .ok (final, trace) ∧
    erase final = erase (stages.foldl PipelineStage.completed init) ∧
    entries final = trace.map PipelineEntry.toStageEntry ∧
    Traced PipelineStage.apply snapshot stages init trace

/-- Every stage fits the state that the ones before it leave, where those that raise are
    skipped. -/
def Along (fits : PipelineStage σ → σ → Prop) : List (PipelineStage σ) → σ → Prop
  | [], _ => True
  | stage :: stages, state => fits stage state ∧ Along fits stages (stage.completed state)

theorem Along.congr {fits fits' : PipelineStage σ → σ → Prop}
    (h : ∀ stage state, fits stage state ↔ fits' stage state) (stages : List (PipelineStage σ))
    (init : σ) : Along fits stages init ↔ Along fits' stages init := by
  induction stages generalizing init with
  | nil => exact Iff.rfl
  | cons stage stages ih => exact and_congr (h stage init) (ih (stage.completed init))

/-- The stage raises nothing but exceptions. -/
def OnlyExceptions (stage : PipelineStage σ) (state : σ) : Prop :=
  ∀ raised, stage.apply state = .error raised → ∃ exc, raised = .exception exc

variable (attempt : PipelineStage σ → σ → Except BaseExn σ)

/-- The attempt of a stage is the stage. -/
def Agrees (stage : PipelineStage σ) (state : σ) : Prop :=
  OnlyExceptions stage state ∧ attempt stage state = stage.apply state

/-- A stage settles if it raises nothing but exceptions, and then as it completes. -/
theorem settled_apply_iff {stage : PipelineStage σ} {state next : σ} :
    settled PipelineStage.apply state stage = .ok next ↔
      OnlyExceptions stage state ∧ stage.completed state = next := by
  unfold settled OnlyExceptions PipelineStage.completed
  cases stage.apply state with
  | ok returned => simp
  | error raised => cases raised <;> simp

/-- An attempt that is the stage has its status, and leaves the other stages its state. -/
theorem stageStatuses_cons {attempt : PipelineStage σ → σ → Except BaseExn σ}
    {stage : PipelineStage σ} {state : σ} (h : attempt stage state = stage.apply state) :
    ∃ status, ∀ stages,
      stageStatuses attempt (stage :: stages) state =
        status :: stageStatuses attempt stages (stage.completed state) ∧
      stageStatuses PipelineStage.apply (stage :: stages) state =
        status :: stageStatuses PipelineStage.apply stages (stage.completed state) := by
  unfold PipelineStage.completed
  cases happly : stage.apply state with
  | ok next => exact ⟨"COMPLETED", fun stages => by simp only [stageStatuses, h, happly, and_self]⟩
  | error raised =>
      exact ⟨"FAILED", fun stages => by simp only [stageStatuses, h, happly, and_self]⟩

/-- Where the attempts are the stages, they settle and complete as the stages do. -/
theorem completed_of_along {stages : List (PipelineStage σ)} {init : σ}
    (h : Along (Agrees attempt) stages init) :
    stages.foldlM (settled attempt) init = .ok (stages.foldl PipelineStage.completed init) ∧
      stageStatuses attempt stages init = stageStatuses PipelineStage.apply stages init := by
  induction stages generalizing init with
  | nil => exact ⟨rfl, rfl⟩
  | cons stage stages ih =>
      obtain ⟨⟨honly, hattempt⟩, hrest⟩ := h
      obtain ⟨hfold, hstatuses⟩ := ih hrest
      constructor
      · have hsettled : settled attempt init stage = .ok (stage.completed init) := by
          unfold settled
          rw [hattempt]
          exact settled_apply_iff.mpr ⟨honly, rfl⟩
        rw [List.foldlM_cons, hsettled]
        exact hfold
      · obtain ⟨status, hcons⟩ := stageStatuses_cons hattempt
        rw [(hcons stages).1, (hcons stages).2, hstatuses]

/-- Where the attempts settle and complete as the stages do, they are the stages, if an attempt
    can only turn a return into an exception. -/
theorem along_of_statuses
    (hweak : ∀ stage state, attempt stage state = stage.apply state ∨
      ∃ next exc, stage.apply state = .ok next ∧ attempt stage state = .error (.exception exc))
    {stages : List (PipelineStage σ)} {init last : σ}
    (hfold : stages.foldlM (settled attempt) init = .ok last)
    (hstatuses :
      stageStatuses attempt stages init = stageStatuses PipelineStage.apply stages init) :
    Along (Agrees attempt) stages init := by
  induction stages generalizing init with
  | nil => trivial
  | cons stage stages ih =>
      rw [List.foldlM_cons] at hfold
      obtain ⟨next, hsettled, hfold⟩ := Proc.bind_ok hfold
      rcases hweak stage init with hattempt | ⟨returned, exc, happly, hattempt⟩
      · unfold settled at hsettled
        rw [hattempt] at hsettled
        obtain ⟨honly, rfl⟩ := settled_apply_iff.mp hsettled
        obtain ⟨status, hcons⟩ := stageStatuses_cons hattempt
        rw [(hcons stages).1, (hcons stages).2] at hstatuses
        exact ⟨⟨honly, hattempt⟩, ih hfold (List.cons.inj hstatuses).2⟩
      · -- an attempt that fails where the stage returns has another status
        simp only [stageStatuses, hattempt, happly] at hstatuses
        exact absurd (List.cons.inj hstatuses).1 (by decide)

/-- Runs that follow their attempts, and write something into the state at the end, end at the
    fold of the stages exactly if the attempts are the stages, and what is written does not
    show. -/
theorem unfailing_iff
    (hweak : ∀ stage state, attempt stage state = stage.apply state ∨
      ∃ next exc, stage.apply state = .ok next ∧ attempt stage state = .error (.exception exc))
    {erase : σ → τ} {entries : σ → List StageEntry} {snapshot : σ → κ}
    {stages : List (PipelineStage σ)} {init : σ}
    {run : Except BaseExn (σ × List (PipelineEntry κ))}
    (hrun : FailSoft attempt snapshot stages init run)
    (write : σ → List (PipelineEntry κ) → σ)
    (hentries : ∀ state trace, entries (write state trace) = trace.map PipelineEntry.toStageEntry)
    (herase : ∀ state trace, erase (write state trace) = erase (write state [])) :
    Unfailing erase entries snapshot stages init (do
        let (state, trace) ← run
        return (write state trace, trace)) ↔
      Along (Agrees attempt) stages init ∧
        erase (write (stages.foldl PipelineStage.completed init) []) =
          erase (stages.foldl PipelineStage.completed init) := by
  unfold FailSoft at hrun
  constructor
  · rintro ⟨final, trace, hfinal, hsame, -, htraced⟩
    obtain ⟨⟨last, trace'⟩, hok, hwritten⟩ := Proc.bind_ok hfinal
    obtain ⟨rfl, rfl⟩ := Prod.mk.inj (Except.ok.inj hwritten)
    cases hfold : stages.foldlM (settled attempt) init with
    | error raised =>
        rw [hfold] at hrun
        rw [hrun] at hok
        cases hok
    | ok last' =>
        rw [hfold] at hrun
        obtain ⟨trace, htrace, htraced'⟩ := hrun
        rw [htrace] at hok
        obtain ⟨rfl, rfl⟩ := Prod.mk.inj (Except.ok.inj hok)
        have halong := along_of_statuses attempt hweak hfold
          (htraced'.statuses.symm.trans htraced.statuses)
        obtain rfl := Except.ok.inj (hfold.symm.trans (completed_of_along attempt halong).1)
        exact ⟨halong, (herase _ trace).symm.trans hsame⟩
  · rintro ⟨halong, hsame⟩
    obtain ⟨hfold, hstatuses⟩ := completed_of_along attempt halong
    rw [hfold] at hrun
    obtain ⟨trace, rfl, htraced⟩ := hrun
    refine ⟨_, trace, rfl, (herase _ trace).trans hsame, hentries _ _, ?_⟩
    exact { htraced with statuses := htraced.statuses.trans hstatuses }

end Unfailing

/-! ## Both engines -/

/-- The state without its trace, and without the duration in its metadata. -/
def AnalysisState.untimed (state : AnalysisState) : AnalysisState :=
  { state with
    processingMetadata := state.processingMetadata.map fun metadata =>
      { metadata with analysisDuration := 0 }
    analysisTrace := [] }

/-- The metadata without their times. -/
def PlanningMetadata.untimed (metadata : PlanningMetadata) : PlanningMetadata :=
  { metadata with createdAt := "", planningDuration := 0 }

/-- The blueprint without its trace, and without the times in its metadata. -/
def PlanningState.untimed (blueprint : PlanningState) : PlanningState :=
  { blueprint with
    planningMetadata := blueprint.planningMetadata.map PlanningMetadata.untimed
    planningTrace := [] }

/-- The analysis runs as its stages do. -/
def UnfailingAnalysis (L : Lower) (env : EngineEnv) (version runtimeVersion : String)
    (requestId : Option String) (stages : List (PipelineStage AnalysisState))
    (requestText : String) : Prop :=
  Unfailing AnalysisState.untimed (fun state => state.analysisTrace) cognitiveSnapshot stages
    (analysisStart env version requestText runtimeVersion requestId)
    (analyzeRequest L env version stages requestText runtimeVersion requestId)

/-- The planning runs as its stages do. -/
def UnfailingPlanning (env : EngineEnv) (version runtimeVersion : String)
    (requestId : Option String) (stages : List (PipelineStage PlanningState))
    (cognitiveState : AnalysisState) : Prop :=
  Unfailing PlanningState.untimed (fun blueprint => blueprint.planningTrace) planningSnapshot
    stages (planStart env version cognitiveState runtimeVersion requestId)
    (planRequest env version stages cognitiveState runtimeVersion requestId)

/-! ### Where a stage does not fail softly -/

def stillEnv : EngineEnv where
  startedAt := ⟨0, "2026-01-01T00:00:00+00:00"⟩
  stageClock := fun _ _ => ⟨0, "2026-01-01T00:00:00+00:00"⟩
  endedAt := ⟨0, "2026-01-01T00:00:00+00:00"⟩
  requestUuid := "5f0c954e-4a47-4b0c-9a3a-0d1a7d7f9a01"
  traceUuid := "5f0c954e-4a47-4b0c-9a3a-0d1a7d7f9a02"

/-- A stage that is cancelled. -/
def cancelledStage : PipelineStage AnalysisState where
  stageName := "Goal Understanding"
  apply _ := .error .cancelledError

/-- A stage without a name, which returns. -/
def unnamedStage : PipelineStage AnalysisState where
  stageName := ""
  apply state := .ok { state with confidenceAssessments := [("goal", 1 / 2)] }

/-- A stage that writes a version of its own into the metadata. -/
def versionStage : PipelineStage PlanningState where
  stageName := "Version"
  apply blueprint := .ok { blueprint with
    planningMetadata := blueprint.planningMetadata.map fun metadata =>
      { metadata with planningVersion := "2.0" } }

/-- An unnamed stage counts as failed although it returns, what a stage of the planning writes
    into the metadata is lost, and a cancelled stage ends the analysis. -/
theorem not_unfailing_stages :
    ¬ UnfailingAnalysis Lower.asciiOnly stillEnv "1.0" "AgentCorp V2" none [unnamedStage]
        "Plan the release" ∧
      ¬ UnfailingPlanning stillEnv "1.0" "AgentCorp V2" none [versionStage] {} ∧
      ¬ UnfailingAnalysis Lower.asciiOnly stillEnv "1.0" "AgentCorp V2" none [cancelledStage]
        "Plan the release" := by
  refine ⟨?_, ?_, ?_⟩
  · rintro ⟨final, trace, hrun, -, -, htraced⟩
    obtain ⟨-, rfl⟩ := Prod.mk.inj (Except.ok.inj hrun)
    exact absurd htraced.statuses (by decide)
  · rintro ⟨final, trace, hrun, herase, -⟩
    obtain ⟨rfl, -⟩ := Prod.mk.inj (Except.ok.inj hrun)
    have hversion := congrArg (fun blueprint : PlanningState =>
      blueprint.planningMetadata.map PlanningMetadata.planningVersion) herase
    exact absurd hversion (by decide)
  · rintro ⟨final, trace, hrun, -⟩
    have hraised : Except.error BaseExn.cancelledError = Except.ok (final, trace) := hrun
    cases hraised

/-- A stage of the analysis raises nothing but exceptions, and has a name with a word in it if it
    returns confidences. -/
def FitsAnalysis (L : Lower) (stage : PipelineStage AnalysisState) (state : AnalysisState) :
    Prop :=
  OnlyExceptions stage state ∧
    ∀ next, stage.apply state = .ok next → next.confidenceAssessments ≠ [] →
      split (L.lower stage.stageName) ≠ []

theorem analysisAttempt_weak (L : Lower) (stage : PipelineStage AnalysisState)
    (state : AnalysisState) :
    analysisAttempt L stage state = stage.apply state ∨
      ∃ next exc, stage.apply state = .ok next ∧
        analysisAttempt L stage state = .error (.exception exc) := by
  unfold analysisAttempt
  cases stage.apply state with
  | error raised => exact .inl rfl
  | ok next =>
      by_cases hblank : next.confidenceAssessments ≠ [] ∧ split (L.lower stage.stageName) = []
      · exact .inr ⟨next, _, rfl, if_pos hblank⟩
      · exact .inl (if_neg hblank)

theorem agrees_analysisAttempt_iff (L : Lower) (stage : PipelineStage AnalysisState)
    (state : AnalysisState) :
    Agrees (analysisAttempt L) stage state ↔ FitsAnalysis L stage state := by
  refine and_congr_right fun _ => ?_
  unfold analysisAttempt
  cases stage.apply state with
  | error raised => exact ⟨fun _ => nofun, fun _ => rfl⟩
  | ok next =>
      constructor
      · intro h returned hreturned hsome hblank
        obtain rfl := Except.ok.inj hreturned
        have hraised := h.symm.trans (if_pos ⟨hsome, hblank⟩)
        cases hraised
      · intro h
        exact if_neg fun ⟨hsome, hblank⟩ => h next rfl hsome hblank

/-- **Fail-soft pipelines.** The analysis runs as its stages do exactly if each of them fits the
    state it meets. The planning does exactly if its stages raise nothing but exceptions, and
    those that return leave the metadata, apart from the times, as the engine made them. -/
theorem pipelines_unfailing_iff (L : Lower) (env : EngineEnv) (version runtimeVersion : String)
    (requestId : Option String) :
    (∀ stages requestText,
      UnfailingAnalysis L env version runtimeVersion requestId stages requestText ↔
        Along (FitsAnalysis L) stages
          (analysisStart env version requestText runtimeVersion requestId)) ∧
    ∀ stages cognitiveState,
      UnfailingPlanning env version runtimeVersion requestId stages cognitiveState ↔
        Along OnlyExceptions stages
            (planStart env version cognitiveState runtimeVersion requestId) ∧
          (stages.foldl PipelineStage.completed
            (planStart env version cognitiveState runtimeVersion requestId)).planningMetadata.map
              PlanningMetadata.untimed =
            some (planMetadata env version cognitiveState runtimeVersion requestId).untimed := by
  constructor
  · intro stages requestText
    have hrun := (cognitivePipeline L).runStages_spec env.stageClock stages
      (analysisStart env version requestText runtimeVersion requestId)
    rw [attempt_cognitivePipeline] at hrun
    refine (unfailing_iff (analysisAttempt L) (analysisAttempt_weak L) hrun (fun state trace =>
      { state with
        processingMetadata := state.processingMetadata.map fun metadata =>
          { metadata with analysisDuration := env.duration }
        analysisTrace := trace.map PipelineEntry.toStageEntry }) (fun _ _ => rfl)
      fun _ _ => rfl).trans ?_
    rw [Along.congr (agrees_analysisAttempt_iff L)]
    refine and_iff_left ?_
    simp [AnalysisState.untimed, Option.map_map, Function.comp_def]
  · intro stages cognitiveState
    have hrun := planningPipeline.runStages_spec env.stageClock stages
      (planStart env version cognitiveState runtimeVersion requestId)
    rw [attempt_planningPipeline] at hrun
    refine (unfailing_iff PipelineStage.apply (fun _ _ => .inl rfl) hrun (fun blueprint trace =>
      { blueprint with
        planningMetadata := some { planMetadata env version cognitiveState runtimeVersion
          requestId with planningDuration := env.duration }
        planningTrace := trace.map PipelineEntry.toStageEntry }) (fun _ _ => rfl)
      fun _ _ => rfl).trans ?_
    refine and_congr (Along.congr (fun _ _ => and_iff_left rfl) _ _) ?_
    constructor
    · intro h
      exact (congrArg PlanningState.planningMetadata h).symm
    · intro h
      simp only [PlanningState.untimed, h]
      rfl

end AgentCorp.Runtime
