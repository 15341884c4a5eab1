/-
  Cognitive analysis: what the runtime reads off the text of a request.

  Both the cognitive and the planning engine run a list of stages over an immutable state and
  keep the state of before where a stage raises; `runStages` is that loop.

  * `analyze_capabilities`: the capabilities that `CognitiveEngine.analyze` derives are those
    of the keyword table, and the Provider alone where no keyword occurs.
-/
import AgentCorp.Python.Text
import AgentCorp.Python.Values

namespace AgentCorp.Runtime

open AgentCorp.Python

/-! ## Stages -/

/-- A stage: its name, and what it makes of the state or raises. -/
structure Stage (σ : Type) where
  stageName : String
  apply : σ → Except Exn σ

/-- What a trace keeps of one stage. The planning trace leaves out the errors. -/
structure StageEntry where
  stageName : String
  status : String
  summary : String
  confidence : Rat
  errors : List String
  deriving DecidableEq, Repr

variable {σ : Type}

/-- One stage. Where it, or the confidence looked up after it, raises, the state stays. -/
def runStage (summarize : String → σ → String) (confidence : String → σ → Except Exn Rat)
    (stage : Stage σ) (before : σ) : σ × StageEntry :=
  let attempt : Except Exn (σ × Rat) := do
    let state ← stage.apply before
    let conf ← confidence stage.stageName state
    return (state, conf)
  match attempt with
  | .ok (state, conf) =>
      (state, ⟨stage.stageName, "COMPLETED", summarize stage.stageName state, conf, []⟩)
  | .error exc => (before, ⟨stage.stageName, "FAILED", exc.text, 0, [exc.text]⟩)

/-- The stages in order, with the entries they leave. -/
def runStages (summarize : String → σ → String) (confidence : String → σ → Except Exn Rat) :
    List (Stage σ) → σ → σ × List StageEntry
  | [], state => (state, [])
  | stage :: stages, state =>
      let (next, entry) := runStage summarize confidence stage state
      let (last, entries) := runStages summarize confidence stages next
      (last, entry :: entries)

/-- The state after a stage: a stage that raises leaves it as it was. -/
def Stage.applied (state : σ) (stage : Stage σ) : σ :=
  match stage.apply state with
  | .ok next => next
  | .error _ => state

/-- Where no confidence look-up raises, the stages are applied in order, each one that raises
    being skipped. -/
theorem runStages_fst (summarize : String → σ → String)
    (confidence : String → σ → Except Exn Rat) (stages : List (Stage σ)) (state : σ)
    (hconf : ∀ stage ∈ stages, ∀ s, ∃ conf, confidence stage.stageName s = .ok conf) :
    (runStages summarize confidence stages state).1 = stages.foldl Stage.applied state := by
  induction stages generalizing state with
  | nil => rfl
  | cons stage stages ih =>
      have hfirst : (runStage summarize confidence stage state).1 = stage.applied state := by
        unfold runStage Stage.applied
        cases happly : stage.apply state with
        | error exc => rfl
        | ok next =>
            obtain ⟨conf, hc⟩ := hconf stage List.mem_cons_self next
            simp only [bind, Except.bind, hc, pure, Except.pure]
      rw [List.foldl_cons, ← hfirst]
      exact ih _ fun s hs => hconf s (List.mem_cons_of_mem _ hs)

/-! ## The cognitive state -/

structure CognitiveIntent where
  category : String
  confidence : Rat
  evidence : Option String
  deriving DecidableEq, Repr

structure CognitiveComplexityAssessment where
  reasoningComplexity : String
  executionComplexity : String
  dependencyComplexity : String
  externalDependencyLikelihood : String
  planningDepth : String
  confidence : Rat
  deriving DecidableEq, Repr

structure CognitiveState where
  normalizedGoal : Option String := none
  intentCollection : List CognitiveIntent := []
  constraintCollection : List String := []
  contextRequirements : List String := []
  requiredRuntimeCapabilities : List String := []
  complexityAssessment : Option CognitiveComplexityAssessment := none
  confidenceAssessments : Dict Rat := []
  analysisTrace : List StageEntry := []
  rawRequest : String := ""
  deriving DecidableEq, Repr

/-- `_normalize_text`. -/
def normalizeText (L : Lower) (text : String) : String :=
  String.ofList (squeeze (L.lower (String.ofList (strip text.toList))).toList)

/-- `_extract_primary_objective`: the text, whatever prefix it has. -/
def extractPrimaryObjective (text : String) : Option String :=
  if text = "" then none else some text

/-- `_confidence_from_text`. -/
def confidenceFromText (text : String) : Rat :=
  if 40 < (split text).length then 8 / 10
  else if 10 < (split text).length then 65 / 100
  else 4 / 10

/-- `any(needle in text for needle in needles)`. -/
def containsAny (text : String) (needles : List String) : Bool :=
  needles.any fun needle => contains text needle

/-! ## The analyzers -/

def goalUnderstandingAnalyzer (L : Lower) : Stage CognitiveState where
  stageName := "Goal Understanding"
  apply state :=
    let text := normalizeText L state.rawRequest
    let summary := (extractPrimaryObjective text).getD (String.ofList (text.toList.take 120))
    .ok { state with
      normalizedGoal := some summary
      confidenceAssessments := state.confidenceAssessments.set "goal" (confidenceFromText text) }

/-- The keyword table of `IntentAnalyzer`. -/
def intentKeywords : List (String × List String) :=
  [("research", ["research", "find", "look up", "investigate"]),
    ("coding", ["code", "implement", "fix", "build", "write"]),
    ("writing", ["write", "draft", "compose", "summarize"]),
    ("planning", ["plan", "strategy", "roadmap"]),
    ("workflow", ["workflow", "pipeline", "process"]),
    ("tool usage", ["tool", "tooling", "execute"]),
    ("automation", ["automate", "automation", "scheduler"]),
    ("explanation", ["explain", "how does", "what is"]),
    ("summarization", ["summarize", "summary", "brief"])]

/-- `max` of the confidences of the intents. -/
def maxConfidence (intents : List CognitiveIntent) : Rat :=
  intents.foldl (fun m intent => max m intent.confidence) 0

def intentAnalyzer (L : Lower) : Stage CognitiveState where
  stageName := "Intent Analysis"
  apply state :=
    let text := normalizeText L state.rawRequest
    let found := intentKeywords.filterMap fun (category, needles) =>
      (needles.find? (contains text)).map fun needle => ⟨category, 65 / 100, some needle⟩
    let intents := if found = [] then [⟨"explanation", 35 / 100, none⟩] else found
    .ok { state with
      intentCollection := intents
      confidenceAssessments := state.confidenceAssessments.set "intent" (maxConfidence intents) }

def constraintAnalyzer (L : Lower) : Stage CognitiveState where
  stageName := "Constraint Analysis"
  apply state :=
    let text := normalizeText L state.rawRequest
    let tokens := ["python", "fastapi", "sqlite", "postgres", "security", "organization",
      "compliance", "streaming", "frontend"].filter (contains text)
    let restricted :=
      if containsAny text ["without changing", "do not"] then tokens ++ ["explicit_restrictions"]
      else tokens
    -- The list is never empty after this line, so the confidence below is always 0.6.
    let constraints := if restricted = [] then ["unknown"] else restricted
    .ok { state with
      constraintCollection := constraints
      confidenceAssessments := state.confidenceAssessments.set "constraints"
        (if constraints = [] then 2 / 10 else 6 / 10) }

/-- The keyword table of `CapabilityAnalyzer`. -/
def capabilityKeywords : List (String × List String) :=
  [("Memory", ["memory"]),
    ("Knowledge", ["knowledge"]),
    ("RAG", ["rag", "retrieval"]),
    ("Workflow", ["workflow"]),
    ("Tool Runtime", ["tool"]),
    ("Multi-Agent", ["multi-agent", "collaborative"]),
    ("Provider", ["provider", "model"]),
    ("Streaming", ["stream", "sse"])]

/-- The capabilities of a normalized text. -/
def capabilitiesOf (text : String) : List String :=
  let caps := (capabilityKeywords.filter fun entry => containsAny text entry.2).map Prod.fst
  if caps = [] then ["Provider"] else caps

def capabilityAnalyzer (L : Lower) : Stage CognitiveState where
  stageName := "Capability Analysis"
  apply state :=
    .ok { state with
      requiredRuntimeCapabilities := capabilitiesOf (normalizeText L state.rawRequest)
      confidenceAssessments := state.confidenceAssessments.set "capabilities" (7 / 10) }

def complexityAnalyzer (L : Lower) : Stage CognitiveState where
  stageName := "Complexity Analysis"
  apply state :=
    let text := normalizeText L state.rawRequest
    let grade (needles : List String) (otherwise : String) : String :=
      if containsAny text needles then "high" else otherwise
    let assessment : CognitiveComplexityAssessment :=
      { reasoningComplexity := grade ["architecture", "integration"]
          (if 20 < (split text).length then "medium" else "low")
        executionComplexity := grade ["backend", "frontend", "runtime", "observatory"] "medium"
        dependencyComplexity := grade ["database", "provider", "streaming", "multi-agent"] "low"
        externalDependencyLikelihood := grade ["frontend", "database", "provider"] "medium"
        planningDepth := grade ["phase", "architecture"] "medium"
        confidence := 66 / 100 }
    .ok { state with
      complexityAssessment := some assessment
      confidenceAssessments :=
        state.confidenceAssessments.set "complexity" assessment.confidence }

/-! ## CognitiveEngine -/

/-- The analyzers of `CognitiveEngine.__init__`. -/
def defaultAnalyzers (L : Lower) : List (Stage CognitiveState) :=
  [goalUnderstandingAnalyzer L, intentAnalyzer L, constraintAnalyzer L, capabilityAnalyzer L,
    complexityAnalyzer L]

/-- `CognitiveEngine._summarize_state`. -/
def summarizeState (stageName : String) (state : CognitiveState) : String :=
  if stageName = "Goal Understanding" then
    match state.normalizedGoal with
    | some goal => if goal = "" then "No goal identified." else goal
    | none => "No goal identified."
  else if stageName = "Intent Analysis" then
    ", ".intercalate (state.intentCollection.map CognitiveIntent.category)
  else if stageName = "Constraint Analysis" then ", ".intercalate state.constraintCollection
  else if stageName = "Capability Analysis" then
    ", ".intercalate state.requiredRuntimeCapabilities
  else if stageName = "Complexity Analysis" then
    match state.complexityAssessment with
    | some a => a.reasoningComplexity ++ "/" ++ a.executionComplexity
    | none => "No assessment."
  else "Completed."

/-- `confidence_assessments.get(stage_name.lower().split()[0], 0.5)`: the first word of the
    stage's name is the key. -/
def stageConfidence (L : Lower) (stageName : String) (state : CognitiveState) :
    Except Exn Rat :=
  if state.confidenceAssessments = [] then .ok (1 / 2)
  else
    match split (L.lower stageName) with
    | key :: _ => .ok ((state.confidenceAssessments.lookup key).getD (1 / 2))
    | [] => .error (.other "IndexError" "list index out of range")

/-- `CognitiveEngine.analyze`. -/
def analyze (L : Lower) (analyzers : List (Stage CognitiveState)) (requestText : String) :
    CognitiveState :=
  let run := runStages summarizeState (stageConfidence L) analyzers { rawRequest := requestText }
  { run.1 with analysisTrace := run.2 }

/-- Every name of a default analyzer has a first word, so no confidence look-up raises. -/
theorem stageConfidence_ok (L : Lower) {stage : Stage CognitiveState}
    (h : stage ∈ defaultAnalyzers L) (state : CognitiveState) :
    ∃ conf, stageConfidence L stage.stageName state = .ok conf := by
  have hnames : ∀ name ∈ ["Goal Understanding", "Intent Analysis", "Constraint Analysis",
      "Capability Analysis", "Complexity Analysis"],
      isAscii name ∧ split (asciiLower name) ≠ [] := by decide
  have hmem : stage.stageName ∈ (defaultAnalyzers L).map Stage.stageName :=
    List.mem_map.mpr ⟨stage, h, rfl⟩
  obtain ⟨hascii, hsplit⟩ := hnames _ hmem
  unfold stageConfidence
  rw [L.ascii _ hascii]
  split
  · exact ⟨_, rfl⟩
  · split
    · exact ⟨_, rfl⟩
    · next hnil => exact absurd hnil hsplit

/-- No analyzer changes the request. -/
theorem applied_rawRequest (L : Lower) {stage : Stage CognitiveState}
    (h : stage ∈ defaultAnalyzers L) (state : CognitiveState) :
    (stage.applied state).rawRequest = state.rawRequest := by
  simp only [defaultAnalyzers, List.mem_cons, List.not_mem_nil, or_false] at h
  rcases h with rfl | rfl | rfl | rfl | rfl
  all_goals simp only [Stage.applied, goalUnderstandingAnalyzer, intentAnalyzer,
    constraintAnalyzer, capabilityAnalyzer, complexityAnalyzer]

/-- The analysis reads the capabilities off the normalized text: the analyzers before the
    capability analyzer keep the request, the one after it keeps the capabilities. -/
theorem analyze_capabilities (L : Lower) (requestText : String) :
    (analyze L (defaultAnalyzers L) requestText).requiredRuntimeCapabilities =
      capabilitiesOf (normalizeText L requestText) := by
  have hrun := runStages_fst summarizeState (stageConfidence L) (defaultAnalyzers L)
    { rawRequest := requestText } fun _ => stageConfidence_ok L
  have hcap : ∀ state : CognitiveState,
      ((complexityAnalyzer L).applied
        ((capabilityAnalyzer L).applied state)).requiredRuntimeCapabilities =
      capabilitiesOf (normalizeText L state.rawRequest) := fun _ => by
    simp only [Stage.applied, capabilityAnalyzer, complexityAnalyzer]
  unfold analyze
  dsimp only
  rw [hrun]
  simp only [defaultAnalyzers, List.foldl_cons, List.foldl_nil]
  rw [hcap, applied_rawRequest L (by simp [defaultAnalyzers]),
    applied_rawRequest L (by simp [defaultAnalyzers]),
    applied_rawRequest L (by simp [defaultAnalyzers])]

end AgentCorp.Runtime
