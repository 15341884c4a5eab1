/-
  Optimization: recommendations from histories of statistics.

  A history maps names to statistics, which are dictionaries of floats, here exact rationals.
  The five recommendations are one function of their texts and of a score; `_recommend_*` and
  `_*_score` give each its own.

  * `recommend_spec`: a recommendation names an entry of the history with the highest score, or
    keeps what there is where the history is empty.
-/
import AgentCorp.Runtime.LongTermIntelligence

namespace AgentCorp.Runtime

open AgentCorp.Python

inductive OptimizationPolicy where
  | latency | cost | quality | balanced
  deriving DecidableEq, Repr

abbrev Stats := Dict Rat

/-- `stats.get(key, default)`. -/
def Stats.get (stats : Stats) (key : String) (default : Rat) : Rat :=
  (stats.lookup key).getD default

structure OptimizationRecommendation where
  target : String
  recommendation : String
  reason : String
  confidence : Rat
  estimatedImprovement : Rat
  evidence : Stats
  deriving DecidableEq, Repr

/-! ## Scores -/

/-- `1 - min(x / scale, 1)`. -/
def shortfall (x scale : Rat) : Rat :=
  1 - min (x / scale) 1

/-- `_provider_score`. -/
def providerScore (stats : Stats) (policy : OptimizationPolicy) : Rat :=
  let success := stats.get "success_rate" 0
  let latency := stats.get "average_latency" 1
  let quality := stats.get "confidence" 0
  match policy with
  | .latency => shortfall latency 10 * (6 / 10) + success * (3 / 10) + quality * (1 / 10)
  | .cost => success * (45 / 100) + quality * (2 / 10) + shortfall latency 10 * (35 / 100)
  | .quality => quality * (55 / 100) + success * (35 / 100) + shortfall latency 10 * (1 / 10)
  | .balanced => success * (4 / 10) + quality * (35 / 100) + shortfall latency 10 * (25 / 100)

/-- `_workflow_score`. -/
def workflowScore (stats : Stats) (policy : OptimizationPolicy) : Rat :=
  let success := stats.get "success_rate" 0
  let duration := stats.get "average_duration" 1
  let failureRate := stats.get "failure_rate" 0
  match policy with
  | .latency =>
      success * (35 / 100) + shortfall duration 60 * (5 / 10) + (1 - failureRate) * (15 / 100)
  | .cost =>
      success * (4 / 10) + (1 - failureRate) * (35 / 100) + shortfall duration 60 * (25 / 100)
  | .quality =>
      success * (5 / 10) + (1 - failureRate) * (35 / 100) + shortfall duration 60 * (15 / 100)
  | .balanced =>
      success * (45 / 100) + (1 - failureRate) * (3 / 10) + shortfall duration 60 * (25 / 100)

/-- `_tool_score`. -/
def toolScore (stats : Stats) (policy : OptimizationPolicy) : Rat :=
  let success := stats.get "success_rate" 0
  let latency := stats.get "latency" (stats.get "average_latency" 1)
  let reliability := stats.get "reliability" (stats.get "confidence" 0)
  let usage := stats.get "usage_frequency" (stats.get "historical_usage" 0)
  let base := success * (4 / 10) + reliability * (35 / 100) + min (usage / 10) 1 * (25 / 100)
  match policy with
  | .latency => base + shortfall latency 10 * (2 / 10)
  | .cost => base + shortfall latency 10 * (15 / 100)
  | .quality => base + reliability * (15 / 100)
  | .balanced => base

/-- `_prompt_score`. -/
def promptScore (stats : Stats) (policy : OptimizationPolicy) : Rat :=
  let effectiveness := stats.get "effectiveness" (stats.get "confidence" 0)
  let latency := stats.get "latency" 0
  let cost := stats.get "cost" 0
  match policy with
  | .latency =>
      effectiveness * (55 / 100) + shortfall latency 10 * (35 / 100) + shortfall cost 10 * (1 / 10)
  | .cost =>
      effectiveness * (45 / 100) + shortfall cost 10 * (45 / 100) + shortfall latency 10 * (1 / 10)
  | .quality =>
      effectiveness * (7 / 10) + shortfall latency 10 * (1 / 10) + shortfall cost 10 * (2 / 10)
  | .balanced =>
      effectiveness * (55 / 100) + shortfall latency 10 * (2 / 10) + shortfall cost 10 * (25 / 100)

/-- `_capability_score`. -/
def capabilityScore (stats : Stats) (policy : OptimizationPolicy) : Rat :=
  let success := stats.get "success_rate" 0
  let latency := stats.get "average_latency" 1
  let failureFrequency := stats.get "failure_frequency" 0
  match policy with
  | .latency =>
      success * (35 / 100) + shortfall latency 10 * (5 / 10) + (1 - failureFrequency) * (15 / 100)
  | .cost =>
      success * (4 / 10) + (1 - failureFrequency) * (35 / 100) + shortfall latency 10 * (25 / 100)
  | .quality =>
      success * (55 / 100) + (1 - failureFrequency) * (35 / 100) + shortfall latency 10 * (1 / 10)
  | .balanced =>
      success * (45 / 100) + (1 - failureFrequency) * (3 / 10) + shortfall latency 10 * (25 / 100)

/-- `_improvement_from_stats`. -/
def improvementFromStats (stats : Stats) : Rat :=
  min (35 / 100) (max 0 (stats.get "success_rate" 0 * (1 / 10) +
    shortfall (stats.get "average_latency" (stats.get "latency" 1)) 10 * (15 / 100)))

/-! ## Recommendations -/

/-- The texts of a recommendation: what is kept without a history and why, and what is said
    around the name of the best entry. -/
structure RecommendationTexts where
  target : String
  retained : String
  noHistory : String
  before : String
  after : String

/-- `sorted(history.items(), key=score, reverse=True)`: equal scores keep their order. -/
def ranked (history : Dict Stats) (score : Stats → Rat) : Dict Stats :=
  history.insertionSort fun a b => score b.2 ≤ score a.2

/-- A recommendation: the best entry of the history, or what there is. -/
def recommend (texts : RecommendationTexts) (score : Stats → Rat) (history : Dict Stats) :
    OptimizationRecommendation :=
  match ranked history score with
  | [] => ⟨texts.target, texts.retained, texts.noHistory, 25 / 100, 0, []⟩
  | (name, stats) :: _ =>
      { target := texts.target
        recommendation := name
        reason := texts.before ++ name ++ texts.after
        confidence := roundDigits (score stats) 2
        estimatedImprovement := roundDigits (improvementFromStats stats) 2
        evidence := stats }

/-- `_recommend_provider`. -/
def recommendProvider (history : Dict Stats) (policy : OptimizationPolicy) :
    OptimizationRecommendation :=
  recommend ⟨"provider", "retain default provider", "No historical provider data available.",
    "Provider ", " selected from historical success, latency, and quality data."⟩
    (providerScore · policy) history

/-- `_recommend_workflow`. -/
def recommendWorkflow (history : Dict Stats) (policy : OptimizationPolicy) :
    OptimizationRecommendation :=
  recommend ⟨"workflow", "retain current workflow order", "No workflow statistics available.",
    "Workflow ", " has the best historical execution profile."⟩ (workflowScore · policy) history

/-- `_recommend_tool`. -/
def recommendTool (history : Dict Stats) (policy : OptimizationPolicy) :
    OptimizationRecommendation :=
  recommend ⟨"tool", "retain current tool selection", "No tool telemetry available.", "Tool ",
    " has the strongest reliability profile."⟩ (toolScore · policy) history

/-- `_recommend_prompt`. -/
def recommendPrompt (history : Dict Stats) (policy : OptimizationPolicy) :
    OptimizationRecommendation :=
  recommend ⟨"prompt", "retain current prompt strategy", "No prompt strategy telemetry available.",
    "Prompt strategy ", " is the most effective historical strategy."⟩ (promptScore · policy)
    history

/-- `_recommend_capability`. -/
def recommendCapability (scores : Dict Stats) (policy : OptimizationPolicy) :
    OptimizationRecommendation :=
  recommend ⟨"capability", "retain current capability ordering",
    "No capability scores available.", "Capability ",
    " should be ordered earlier in the execution path."⟩ (capabilityScore · policy) scores

/-- Names sorted by a first number and then, downwards, by a second one. -/
def orderBy (first second : Stats → Rat) (history : Dict Stats) : List String :=
  (history.insertionSort fun a b =>
    first a.2 < first b.2 ∨ (first a.2 = first b.2 ∧ second b.2 ≤ second a.2)).map Prod.fst

/-- `_order_execution`. -/
def orderExecution (capabilityScores workflowHistory : Dict Stats) : List String :=
  let ordering :=
    (orderBy (Stats.get · "failure_frequency" 1) (Stats.get · "success_rate" 0)
      capabilityScores).map ("capability:" ++ ·) ++
    (orderBy (Stats.get · "failure_rate" 1) (Stats.get · "average_duration" 0)
      workflowHistory).map ("workflow:" ++ ·)
  if ordering = [] then ["capability:provider", "workflow:default"] else ordering

/-! ## RuntimeOptimizationEngine -/

structure RuntimeOptimizationReport where
  policy : OptimizationPolicy
  providerRecommendation : OptimizationRecommendation
  workflowRecommendation : OptimizationRecommendation
  toolRecommendation : OptimizationRecommendation
  capabilityRecommendation : OptimizationRecommendation
  promptRecommendation : OptimizationRecommendation
  executionOrdering : List String
  estimatedImprovement : Rat
  deriving DecidableEq, Repr

/-- The histories that `optimize` is given; an empty one falls back to the report's scores, or
    stays empty. -/
structure OptimizationHistories where
  provider : Dict Stats := []
  workflow : Dict Stats := []
  tool : Dict Stats := []
  prompt : Dict Stats := []
  capability : Dict Stats := []

/-- `history or fallback`. -/
def orHistory (history fallback : Dict Stats) : Dict Stats :=
  if history = [] then fallback else history

/-- `RuntimeOptimizationEngine.optimize`. -/
def optimize (report : LongTermIntelligenceReport) (policy : OptimizationPolicy)
    (histories : OptimizationHistories) : RuntimeOptimizationReport :=
  let capabilityScores := orHistory histories.capability report.capabilityScores
  let provider := recommendProvider (orHistory histories.provider report.capabilityScores) policy
  let workflow := recommendWorkflow histories.workflow policy
  let tool := recommendTool histories.tool policy
  let prompt := recommendPrompt histories.prompt policy
  let capability := recommendCapability capabilityScores policy
  { policy := policy
    providerRecommendation := provider
    workflowRecommendation := workflow
    toolRecommendation := tool
    capabilityRecommendation := capability
    promptRecommendation := prompt
    executionOrdering := orderExecution capabilityScores histories.workflow
    estimatedImprovement := roundDigits (min (99 / 100)
      ((provider.estimatedImprovement + workflow.estimatedImprovement +
        tool.estimatedImprovement + prompt.estimatedImprovement +
        capability.estimatedImprovement) / 5)) 2 }

/-! ## What is recommended -/

/-- With a history, an entry of it is recommended that no other one beats. -/
theorem recommend_spec (texts : RecommendationTexts) (score : Stats → Rat) {history : Dict Stats}
    (h : history ≠ []) :
    ∃ name stats, (name, stats) ∈ history ∧ (∀ entry ∈ history, score entry.2 ≤ score stats) ∧
      (recommend texts score history).recommendation = name ∧
      (recommend texts score history).evidence = stats := by
  have hsorted : (ranked history score).Pairwise fun a b => score b.2 ≤ score a.2 := by
    have : Std.Total fun a b : String × Stats => score b.2 ≤ score a.2 :=
      ⟨fun a b => le_total (score b.2) (score a.2)⟩
    have : IsTrans (String × Stats) fun a b => score b.2 ≤ score a.2 :=
      ⟨fun a b c hab hbc => le_trans hbc hab⟩
    exact List.pairwise_insertionSort _ _
  have hmem : ∀ entry, entry ∈ ranked history score ↔ entry ∈ history :=
    fun entry => List.mem_insertionSort _
  cases hranked : ranked history score with
  | nil =>
      obtain ⟨entry, hentry⟩ := List.exists_mem_of_ne_nil history h
      rw [← hmem entry, hranked] at hentry
      exact absurd hentry List.not_mem_nil
  | cons best rest =>
      obtain ⟨name, stats⟩ := best
      rw [hranked] at hsorted hmem
      refine ⟨name, stats, (hmem _).mp List.mem_cons_self, fun entry hentry => ?_, ?_, ?_⟩
      · rcases List.mem_cons.mp ((hmem entry).mpr hentry) with rfl | hrest
        · exact le_refl _
        · exact (List.pairwise_cons.mp hsorted).1 entry hrest
      · simp only [recommend, hranked]
      · simp only [recommend, hranked]

end AgentCorp.Runtime
