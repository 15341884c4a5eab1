/-
  Which confidences stay between 0 and 1.

  The scores of providers, workflows, prompts and capabilities are averages, and the improvements
  are clamped. The score of a tool is an average plus a bonus of the policy, and a preference
  gains 0.05 with every memory of its title; neither is clamped.

  * `recommend_inRange`: a recommendation by an average.
  * `toolRecommendation_inRange_iff`: how large the bonus of a tool may be.
  * `evolvedInRange_iff`: how confident a memory may be, by the number of those that follow.
-/
import AgentCorp.Python.Rounding
import AgentCorp.Runtime.Optimization
import Mathlib.Order.Interval.Set.Defs
import Mathlib.Tactic.Linarith
import Mathlib.Tactic.NormNum

namespace AgentCorp.Runtime

open AgentCorp.Python Rounding

/-- Between 0 and 1. -/
abbrev InUnit (x : ℚ) : Prop :=
  0 ≤ x ∧ x ≤ 1

theorem zero_inUnit : InUnit 0 :=
  ⟨le_refl 0, zero_le_one⟩

/-! ## Statistics on their scales -/

/-- The rates, confidences and reliabilities among the keys. -/
def unitKeys : List String :=
  ["success_rate", "failure_rate", "failure_frequency", "confidence", "reliability",
    "effectiveness"]

/-- The latencies, durations, costs and counts. -/
def amountKeys : List String :=
  ["latency", "average_latency", "average_duration", "cost", "usage_frequency",
    "historical_usage"]

/-- Each statistic is on its scale. -/
structure OnScale (stats : Stats) : Prop where
  unit : ∀ key ∈ unitKeys, ∀ value, stats.lookup key = some value → InUnit value
  amount : ∀ key ∈ amountKeys, ∀ value, stats.lookup key = some value → 0 ≤ value

/-- So is each one of a history. -/
def HistoryOnScale (history : Dict Stats) : Prop :=
  ∀ entry ∈ history, OnScale entry.2

structure OptimizationHistories.OnScale (histories : OptimizationHistories) : Prop where
  provider : HistoryOnScale histories.provider
  workflow : HistoryOnScale histories.workflow
  tool : HistoryOnScale histories.tool
  prompt : HistoryOnScale histories.prompt
  capability : HistoryOnScale histories.capability

/-- It is enough to look at the entries. -/
theorem onScale_of_mem {stats : Stats}
    (h : ∀ entry ∈ stats, (entry.1 ∈ unitKeys → InUnit entry.2) ∧
      (entry.1 ∈ amountKeys → 0 ≤ entry.2)) : OnScale stats := by
  have hmem : ∀ key value, stats.lookup key = some value → (key, value) ∈ stats := by
    intro key value hvalue
    obtain ⟨before, after, hsplit, -⟩ := List.lookup_eq_some_iff.mp hvalue
    rw [hsplit]
    exact List.mem_append_right _ List.mem_cons_self
  exact ⟨fun key hkey value hvalue => (h _ (hmem key value hvalue)).1 hkey,
    fun key hkey value hvalue => (h _ (hmem key value hvalue)).2 hkey⟩

section Scales

variable {stats : Stats} (h : OnScale stats)
include h

theorem OnScale.get_unit {key : String} (hkey : key ∈ unitKeys) {default : ℚ}
    (hdefault : InUnit default) : InUnit (stats.get key default) := by
  unfold Stats.get
  cases hvalue : stats.lookup key with
  | none => exact hdefault
  | some value => exact h.unit key hkey value hvalue

theorem OnScale.get_amount {key : String} (hkey : key ∈ amountKeys) {default : ℚ}
    (hdefault : 0 ≤ default) : 0 ≤ stats.get key default := by
  unfold Stats.get
  cases hvalue : stats.lookup key with
  | none => exact hdefault
  | some value => exact h.amount key hkey value hvalue

end Scales

theorem shortfall_inUnit {x scale : ℚ} (hx : 0 ≤ x) (hscale : 0 < scale) :
    InUnit (shortfall x scale) := by
  have hquotient : 0 ≤ x / scale := div_nonneg hx hscale.le
  unfold shortfall
  refine ⟨sub_nonneg.mpr (min_le_right _ _), ?_⟩
  rw [sub_le_self_iff]
  exact le_min hquotient zero_le_one

/-! ## Averages -/

/-- A weighted average of three numbers between 0 and 1. -/
theorem average_inUnit {a b c u v w : ℚ} (ha : InUnit a) (hb : InUnit b) (hc : InUnit c)
    (hu : 0 ≤ u) (hv : 0 ≤ v) (hw : 0 ≤ w) (hsum : u + v + w = 1) :
    InUnit (a * u + b * v + c * w) := by
  have hau := mul_le_of_le_one_left hu ha.2
  have hbv := mul_le_of_le_one_left hv hb.2
  have hcw := mul_le_of_le_one_left hw hc.2
  have hau' := mul_nonneg ha.1 hu
  have hbv' := mul_nonneg hb.1 hv
  have hcw' := mul_nonneg hc.1 hw
  exact ⟨by linarith, by linarith⟩

theorem one_sub_inUnit {x : ℚ} (hx : InUnit x) : InUnit (1 - x) :=
  ⟨sub_nonneg.mpr hx.2, sub_le_self 1 hx.1⟩

section Scores

variable {stats : Stats} (h : OnScale stats) (policy : OptimizationPolicy)
include h

theorem providerScore_inUnit : InUnit (providerScore stats policy) := by
  have hsuccess : InUnit (stats.get "success_rate" 0) := h.get_unit (by decide) zero_inUnit
  have hquality : InUnit (stats.get "confidence" 0) := h.get_unit (by decide) zero_inUnit
  have hlatency : InUnit (shortfall (stats.get "average_latency" 1) 10) :=
    shortfall_inUnit (h.get_amount (by decide) zero_le_one) (by norm_num)
  cases policy with
  | latency => refine average_inUnit hlatency hsuccess hquality ?_ ?_ ?_ ?_ <;> norm_num
  | cost => refine average_inUnit hsuccess hquality hlatency ?_ ?_ ?_ ?_ <;> norm_num
  | quality => refine average_inUnit hquality hsuccess hlatency ?_ ?_ ?_ ?_ <;> norm_num
  | balanced => refine average_inUnit hsuccess hquality hlatency ?_ ?_ ?_ ?_ <;> norm_num

theorem workflowScore_inUnit : InUnit (workflowScore stats policy) := by
  have hsuccess : InUnit (stats.get "success_rate" 0) := h.get_unit (by decide) zero_inUnit
  have hduration : InUnit (shortfall (stats.get "average_duration" 1) 60) :=
    shortfall_inUnit (h.get_amount (by decide) zero_le_one) (by norm_num)
  have hfailure : InUnit (1 - stats.get "failure_rate" 0) :=
    one_sub_inUnit (h.get_unit (by decide) zero_inUnit)
  cases policy with
  | latency => refine average_inUnit hsuccess hduration hfailure ?_ ?_ ?_ ?_ <;> norm_num
  | cost => refine average_inUnit hsuccess hfailure hduration ?_ ?_ ?_ ?_ <;> norm_num
  | quality => refine average_inUnit hsuccess hfailure hduration ?_ ?_ ?_ ?_ <;> norm_num
  | balanced => refine average_inUnit hsuccess hfailure hduration ?_ ?_ ?_ ?_ <;> norm_num

theorem promptScore_inUnit : InUnit (promptScore stats policy) := by
  have heffectiveness : InUnit (stats.get "effectiveness" (stats.get "confidence" 0)) :=
    h.get_unit (by decide) (h.get_unit (by decide) zero_inUnit)
  have hlatency : InUnit (shortfall (stats.get "latency" 0) 10) :=
    shortfall_inUnit (h.get_amount (by decide) le_rfl) (by norm_num)
  have hcost : InUnit (shortfall (stats.get "cost" 0) 10) :=
    shortfall_inUnit (h.get_amount (by decide) le_rfl) (by norm_num)
  cases policy with
  | latency => refine average_inUnit heffectiveness hlatency hcost ?_ ?_ ?_ ?_ <;> norm_num
  | cost => refine average_inUnit heffectiveness hcost hlatency ?_ ?_ ?_ ?_ <;> norm_num
  | quality => refine average_inUnit heffectiveness hlatency hcost ?_ ?_ ?_ ?_ <;> norm_num
  | balanced => refine average_inUnit heffectiveness hlatency hcost ?_ ?_ ?_ ?_ <;> norm_num

theorem capabilityScore_inUnit : InUnit (capabilityScore stats policy) := by
  have hsuccess : InUnit (stats.get "success_rate" 0) := h.get_unit (by decide) zero_inUnit
  have hlatency : InUnit (shortfall (stats.get "average_latency" 1) 10) :=
    shortfall_inUnit (h.get_amount (by decide) zero_le_one) (by norm_num)
  have hfailure : InUnit (1 - stats.get "failure_frequency" 0) :=
    one_sub_inUnit (h.get_unit (by decide) zero_inUnit)
  cases policy with
  | latency => refine average_inUnit hsuccess hlatency hfailure ?_ ?_ ?_ ?_ <;> norm_num
  | cost => refine average_inUnit hsuccess hfailure hlatency ?_ ?_ ?_ ?_ <;> norm_num
  | quality => refine average_inUnit hsuccess hfailure hlatency ?_ ?_ ?_ ?_ <;> norm_num
  | balanced => refine average_inUnit hsuccess hfailure hlatency ?_ ?_ ?_ ?_ <;> norm_num

end Scores

theorem improvementFromStats_inUnit (stats : Stats) : InUnit (improvementFromStats stats) := by
  unfold improvementFromStats
  refine ⟨le_min (by norm_num) (le_max_left _ _), (min_le_left _ _).trans (by norm_num)⟩

/-! ## Tools -/

/-- What the score of a tool lacks of 1 without the bonus of the policy. -/
def toolMargin (stats : Stats) : ℚ :=
  (1 - stats.get "success_rate" 0) * (4 / 10) +
    (1 - stats.get "reliability" (stats.get "confidence" 0)) * (35 / 100) +
    shortfall (stats.get "usage_frequency" (stats.get "historical_usage" 0)) 10 * (25 / 100)

/-- The bonus of the policy. -/
def toolBonus (stats : Stats) : OptimizationPolicy → ℚ
  | .latency => shortfall (stats.get "latency" (stats.get "average_latency" 1)) 10 * (2 / 10)
  | .cost => shortfall (stats.get "latency" (stats.get "average_latency" 1)) 10 * (15 / 100)
  | .quality => stats.get "reliability" (stats.get "confidence" 0) * (15 / 100)
  | .balanced => 0

/-- The bonus fits into the margin, up to rounding. -/
def BonusFits (policy : OptimizationPolicy) (stats : Stats) : Prop :=
  toolBonus stats policy ≤ toolMargin stats + 5 / 1000

theorem toolScore_eq (stats : Stats) (policy : OptimizationPolicy) :
    toolScore stats policy = 1 - toolMargin stats + toolBonus stats policy := by
  unfold toolMargin shortfall
  cases policy <;> simp only [toolScore, toolBonus, shortfall] <;> ring

theorem toolScore_le_iff (stats : Stats) (policy : OptimizationPolicy) :
    toolScore stats policy ≤ 1005 / 1000 ↔ BonusFits policy stats := by
  rw [toolScore_eq, BonusFits]
  constructor <;> intro h <;> linarith

theorem OnScale.toolScore_nonneg {stats : Stats} (h : OnScale stats)
    (policy : OptimizationPolicy) : 0 ≤ toolScore stats policy := by
  have hsuccess : InUnit (stats.get "success_rate" 0) := h.get_unit (by decide) zero_inUnit
  have hreliability : InUnit (stats.get "reliability" (stats.get "confidence" 0)) :=
    h.get_unit (by decide) (h.get_unit (by decide) zero_inUnit)
  have husage :
      InUnit (shortfall (stats.get "usage_frequency" (stats.get "historical_usage" 0)) 10) :=
    shortfall_inUnit (h.get_amount (by decide) (h.get_amount (by decide) le_rfl)) (by norm_num)
  have hlatency : InUnit (shortfall (stats.get "latency" (stats.get "average_latency" 1)) 10) :=
    shortfall_inUnit (h.get_amount (by decide) (h.get_amount (by decide) zero_le_one))
      (by norm_num)
  have hmargin : toolMargin stats ≤ 1 := by
    refine (average_inUnit (one_sub_inUnit hsuccess) (one_sub_inUnit hreliability) husage
      ?_ ?_ ?_ ?_).2 <;> norm_num
  have hbonus : 0 ≤ toolBonus stats policy := by
    cases policy with
    | latency => exact mul_nonneg hlatency.1 (by norm_num)
    | cost => exact mul_nonneg hlatency.1 (by norm_num)
    | quality => exact mul_nonneg hreliability.1 (by norm_num)
    | balanced => exact le_rfl
  rw [toolScore_eq]
  linarith

/-! ## Recommendations -/

theorem roundDigits_le_one_iff (x : ℚ) : roundDigits x 2 ≤ 1 ↔ x ≤ 1005 / 1000 := by
  have hle := roundDigits_le_iff 2 x 100
  norm_num at hle
  rw [hle, ← le_iff_lt_or_eq]
  constructor <;> intro h <;> linarith

theorem roundDigits_inUnit {x : ℚ} (hx : InUnit x) : InUnit (roundDigits x 2) :=
  ⟨roundDigits_nonneg 2 hx.1, (roundDigits_le_one_iff x).mpr (hx.2.trans (by norm_num))⟩

/-- The confidence and the improvement of a recommendation are between 0 and 1. -/
def OptimizationRecommendation.InRange (recommendation : OptimizationRecommendation) : Prop :=
  InUnit recommendation.confidence ∧ InUnit recommendation.estimatedImprovement

section Recommend

variable (texts : RecommendationTexts) (score : Stats → ℚ)

/-- The numbers of a recommendation are those of its evidence. -/
theorem recommend_confidence {history : Dict Stats} (h : history ≠ []) :
    (recommend texts score history).confidence =
      roundDigits (score (recommend texts score history).evidence) 2 := by
  have hlength : (ranked history score).length = history.length := List.length_insertionSort _ _
  cases hranked : ranked history score with
  | nil =>
      rw [hranked] at hlength
      exact absurd (List.length_eq_zero_iff.mp hlength.symm) h
  | cons best rest => simp only [recommend, hranked]

theorem recommend_improvement_inUnit (history : Dict Stats) :
    InUnit (recommend texts score history).estimatedImprovement := by
  unfold recommend
  cases ranked history score with
  | nil => exact zero_inUnit
  | cons best rest => exact roundDigits_inUnit (improvementFromStats_inUnit best.2)

/-- The best entry is rounded to at most 1 exactly if all are below 1.005, or equal to it. -/
theorem recommend_le_one_iff (history : Dict Stats) :
    (recommend texts score history).confidence ≤ 1 ↔
      ∀ entry ∈ history, score entry.2 ≤ 1005 / 1000 := by
  by_cases h : history = []
  · subst h
    refine iff_of_true ?_ fun _ hentry => absurd hentry List.not_mem_nil
    show (25 / 100 : ℚ) ≤ 1
    norm_num
  · obtain ⟨name, stats, hmem, hbest, -, hevidence⟩ := recommend_spec texts score h
    rw [recommend_confidence texts score h, hevidence, roundDigits_le_one_iff]
    exact ⟨fun hle entry hentry => (hbest entry hentry).trans hle, fun hall => hall _ hmem⟩

theorem recommend_nonneg {history : Dict Stats}
    (hscore : ∀ entry ∈ history, 0 ≤ score entry.2) :
    0 ≤ (recommend texts score history).confidence := by
  by_cases h : history = []
  · subst h
    show (0 : ℚ) ≤ 25 / 100
    norm_num
  · obtain ⟨name, stats, hmem, -, -, hevidence⟩ := recommend_spec texts score h
    rw [recommend_confidence texts score h, hevidence]
    exact roundDigits_nonneg 2 (hscore _ hmem)

/-- A recommendation by an average is in range. -/
theorem recommend_inRange {history : Dict Stats}
    (hscore : ∀ entry ∈ history, InUnit (score entry.2)) :
    (recommend texts score history).InRange := by
  refine ⟨⟨recommend_nonneg texts score fun entry hentry => (hscore entry hentry).1, ?_⟩,
    recommend_improvement_inUnit texts score history⟩
  rw [recommend_le_one_iff]
  exact fun entry hentry => (hscore entry hentry).2.trans (by norm_num)

end Recommend

/-- The recommendation of a tool is in range exactly if the bonus fits for all tools. -/
theorem toolRecommendation_inRange_iff {history : Dict Stats} (h : HistoryOnScale history)
    (policy : OptimizationPolicy) :
    InUnit (recommendTool history policy).confidence ↔
      ∀ entry ∈ history, BonusFits policy entry.2 := by
  unfold recommendTool
  rw [InUnit, and_iff_right (recommend_nonneg _ _ fun entry hentry =>
    (h entry hentry).toolScore_nonneg policy), recommend_le_one_iff]
  exact forall₂_congr fun entry _ => toolScore_le_iff entry.2 policy

/-- The five recommendations of a report. -/
def RuntimeOptimizationReport.recommendations (report : RuntimeOptimizationReport) :
    List OptimizationRecommendation :=
  [report.providerRecommendation, report.workflowRecommendation, report.toolRecommendation,
    report.promptRecommendation, report.capabilityRecommendation]

/-- Every confidence and improvement of the report is between 0 and 1. -/
def OptimizedInRange (report : RuntimeOptimizationReport) : Prop :=
  (∀ recommendation ∈ report.recommendations, recommendation.InRange) ∧
    InUnit report.estimatedImprovement

theorem HistoryOnScale.orHistory {history fallback : Dict Stats} (h : HistoryOnScale history)
    (hfallback : HistoryOnScale fallback) : HistoryOnScale (orHistory history fallback) := by
  unfold Runtime.orHistory
  split
  · exact hfallback
  · exact h

theorem optimizedInRange_iff {report : LongTermIntelligenceReport}
    (hreport : HistoryOnScale report.capabilityScores) (policy : OptimizationPolicy)
    {histories : OptimizationHistories} (h : histories.OnScale) :
    OptimizedInRange (optimize report policy histories) ↔
      ∀ entry ∈ histories.tool, BonusFits policy entry.2 := by
  have hprovider : (optimize report policy histories).providerRecommendation.InRange :=
    recommend_inRange _ _ fun entry hentry =>
      providerScore_inUnit (h.provider.orHistory hreport entry hentry) policy
  have hworkflow : (optimize report policy histories).workflowRecommendation.InRange :=
    recommend_inRange _ _ fun entry hentry => workflowScore_inUnit (h.workflow entry hentry) policy
  have hprompt : (optimize report policy histories).promptRecommendation.InRange :=
    recommend_inRange _ _ fun entry hentry => promptScore_inUnit (h.prompt entry hentry) policy
  have hcapability : (optimize report policy histories).capabilityRecommendation.InRange :=
    recommend_inRange _ _ fun entry hentry =>
      capabilityScore_inUnit (h.capability.orHistory hreport entry hentry) policy
  have htool : InUnit (recommendTool histories.tool policy).estimatedImprovement :=
    recommend_improvement_inUnit _ _ _
  have htotal : InUnit (optimize report policy histories).estimatedImprovement := by
    refine roundDigits_inUnit ⟨le_min (by norm_num) ?_, (min_le_left _ _).trans (by norm_num)⟩
    refine div_nonneg ?_ (by norm_num)
    exact add_nonneg (add_nonneg (add_nonneg (add_nonneg hprovider.2.1 hworkflow.2.1) htool.1)
      hprompt.2.1) hcapability.2.1
  rw [← toolRecommendation_inRange_iff h.tool policy]
  constructor
  · rintro ⟨hall, -⟩
    exact (hall (recommendTool histories.tool policy)
      (by simp [RuntimeOptimizationReport.recommendations, optimize])).1
  · intro hconfidence
    refine ⟨?_, htotal⟩
    simp only [RuntimeOptimizationReport.recommendations, List.forall_mem_cons]
    exact ⟨hprovider, hworkflow, ⟨hconfidence, htool⟩, hprompt, hcapability,
      fun _ hnone => absurd hnone List.not_mem_nil⟩

/-! ## Preferences -/

/-- A memory that `later` others of its title follow leaves room for their gains. Each gains 0.05,
    and a sum that lies halfway is rounded to the even hundredth. -/
def LeavesRoom (confidence : ℚ) (later : ℕ) : Prop :=
  confidence < 955 / 1000 - later * (5 / 100) ∨
    (confidence = 955 / 1000 - later * (5 / 100) ∧ later % 2 = 0)

/-- Each memory of a title leaves room for those that follow. -/
def RoomForLater : List MemoryRecord → Prop
  | [] => True
  | memory :: rest => LeavesRoom memory.confidence rest.length ∧ RoomForLater rest

theorem leavesRoom_iff (confidence : ℚ) (later : ℕ) :
    roundDigits (confidence + 5 / 100) 2 ≤ 1 - later * (5 / 100) ↔
      LeavesRoom confidence later := by
  have hle := roundDigits_le_iff 2 (confidence + 5 / 100) (100 - 5 * later)
  have hbound : ((100 - 5 * later : ℤ) : ℚ) / 10 ^ 2 = 1 - later * (5 / 100) := by
    push_cast
    ring
  have heven : (100 - 5 * (later : ℤ)) % 2 = 0 ↔ later % 2 = 0 := by omega
  rw [hbound, heven] at hle
  rw [hle, LeavesRoom]
  push_cast
  refine or_congr ⟨fun h => ?_, fun h => ?_⟩ (and_congr_left' ⟨fun h => ?_, fun h => ?_⟩) <;>
    linarith

/-- The confidence of a bucket has two digits. -/
theorem exists_hundredths (bucket memory : MemoryRecord) :
    ∃ n : ℤ, (evolveMemory bucket memory).confidence = n / 10 ^ 2 :=
  ⟨_, roundDigits_eq 2 _⟩

/-- The confidence after one memory more: the old one has two digits, so only the new one is
    rounded. -/
theorem confidence_evolveMemory {bucket : MemoryRecord} {n : ℤ}
    (h : bucket.confidence = n / 10 ^ 2) (memory : MemoryRecord) :
    (evolveMemory bucket memory).confidence =
      max (bucket.confidence + 5 / 100) (roundDigits (memory.confidence + 5 / 100) 2) := by
  have hsum : bucket.confidence + 5 / 100 = ((n + 5 : ℤ) : ℚ) / 10 ^ 2 := by
    rw [h]
    push_cast
    ring
  show roundDigits (max bucket.confidence memory.confidence + 5 / 100) 2 = _
  rw [← max_add_add_right, roundDigits_max, hsum, roundDigits_intCast_div]

/-- **Gains.** The confidence of a bucket stays at most 1 exactly if it has room for the gains
    to come, and so has each memory. -/
theorem foldl_evolveMemory_le_one_iff {bucket : MemoryRecord} {n : ℤ}
    (h : bucket.confidence = n / 10 ^ 2) (rest : List MemoryRecord) :
    (rest.foldl evolveMemory bucket).confidence ≤ 1 ↔
      bucket.confidence ≤ 1 - rest.length * (5 / 100) ∧ RoomForLater rest := by
  induction rest generalizing bucket n with
  | nil => simp [RoomForLater]
  | cons memory rest ih =>
      obtain ⟨m, hnext⟩ := exists_hundredths bucket memory
      rw [List.foldl_cons, ih hnext, confidence_evolveMemory h, max_le_iff, leavesRoom_iff,
        RoomForLater, and_assoc, List.length_cons]
      refine and_congr_left fun _ => ?_
      push_cast
      constructor <;> intro hle <;> linarith

theorem evolveMemory_self (memory : MemoryRecord) :
    (evolveMemory memory memory).confidence = roundDigits (memory.confidence + 5 / 100) 2 := by
  show roundDigits (max memory.confidence memory.confidence + 5 / 100) 2 = _
  rw [max_self]

/-- A confidence does not fall below 0. -/
theorem foldl_evolveMemory_nonneg {bucket : MemoryRecord} (h : 0 ≤ bucket.confidence)
    (rest : List MemoryRecord) : 0 ≤ (rest.foldl evolveMemory bucket).confidence := by
  induction rest generalizing bucket with
  | nil => exact h
  | cons memory rest ih =>
      refine ih (roundDigits_nonneg 2 ?_)
      have hmax := le_max_left bucket.confidence memory.confidence
      linarith

section Evolution

variable (L : Lower)

/-- The semantic memories of a title. -/
def semanticGroup (memories : List MemoryRecord) (title : String) : List MemoryRecord :=
  (semanticTitled L memories).filter fun memory => memory.normalizedTitle L = title

/-- Every preference has a confidence between 0 and 1. -/
def EvolvedInRange (memories : List MemoryRecord) : Prop :=
  ∀ memory ∈ (evolve L memories).1, InUnit memory.confidence

theorem mem_evolve {memories : List MemoryRecord} {memory : MemoryRecord} :
    memory ∈ (evolve L memories).1 ↔
      ∃ title first rest, semanticGroup L memories title = first :: rest ∧
        memory = rest.foldl evolveMemory (evolveMemory first first) := by
  rw [evolve_fst, List.mem_map]
  constructor
  · rintro ⟨⟨title, m⟩, hmem, rfl⟩
    obtain ⟨first, rest, hgroup, hm⟩ := (Grouping.mem_group _ _ _).mp hmem
    exact ⟨title, first, rest, hgroup, hm⟩
  · rintro ⟨title, first, rest, hgroup, rfl⟩
    exact ⟨(title, _), (Grouping.mem_group _ _ _).mpr ⟨first, rest, hgroup, rfl⟩, rfl⟩

theorem evolvedInRange_iff {memories : List MemoryRecord}
    (h : ∀ memory ∈ memories, InUnit memory.confidence) :
    EvolvedInRange L memories ↔ ∀ title, RoomForLater (semanticGroup L memories title) := by
  have hone : ∀ title first rest, semanticGroup L memories title = first :: rest →
      (InUnit (rest.foldl evolveMemory (evolveMemory first first)).confidence ↔
        RoomForLater (first :: rest)) := by
    intro title first rest hgroup
    have hfirst : first ∈ memories := by
      have hmem : first ∈ semanticGroup L memories title := hgroup ▸ List.mem_cons_self
      exact List.mem_of_mem_filter (List.mem_of_mem_filter hmem)
    have hstart : 0 ≤ (evolveMemory first first).confidence := by
      rw [evolveMemory_self]
      exact roundDigits_nonneg 2 (by linarith [(h first hfirst).1])
    obtain ⟨n, hdigits⟩ := exists_hundredths first first
    rw [InUnit, and_iff_right (foldl_evolveMemory_nonneg hstart rest),
      foldl_evolveMemory_le_one_iff hdigits rest, evolveMemory_self, leavesRoom_iff]
    rfl
  constructor
  · intro hrange title
    cases hgroup : semanticGroup L memories title with
    | nil => trivial
    | cons first rest =>
        exact (hone title first rest hgroup).mp
          (hrange _ ((mem_evolve L).mpr ⟨title, first, rest, hgroup, rfl⟩))
  · intro hroom memory hmemory
    obtain ⟨title, first, rest, hgroup, rfl⟩ := (mem_evolve L).mp hmemory
    exact (hone title first rest hgroup).mpr (hgroup ▸ hroom title)

end Evolution

/-! ## Scored capabilities -/

/-- The statistics of a category are on their scales. -/
theorem capabilityStats_onScale (related : ℕ) : OnScale (capabilityStats related) := by
  have hrelated : (0 : ℚ) ≤ related := Nat.cast_nonneg related
  have hsuccess : InUnit (roundDigits (min 1 (35 / 100 + 1 / 10 * related)) 2) :=
    roundDigits_inUnit ⟨le_min zero_le_one (by linarith), min_le_left _ _⟩
  have hconfidence : InUnit (roundDigits (min (99 / 100) (4 / 10 + 8 / 100 * related)) 2) :=
    roundDigits_inUnit ⟨le_min (by norm_num) (by linarith), (min_le_left _ _).trans (by norm_num)⟩
  have hfailure : InUnit (roundDigits
      (max 0 (1 - roundDigits (min 1 (35 / 100 + 1 / 10 * related)) 2)) 2) :=
    roundDigits_inUnit ⟨le_max_left _ _, max_le zero_le_one (sub_le_self 1 hsuccess.1)⟩
  have hlatency : 0 ≤ roundDigits (max (5 / 100) (3 / 2 - 5 / 100 * related)) 2 :=
    roundDigits_nonneg 2 ((by norm_num : (0 : ℚ) ≤ 5 / 100).trans (le_max_left _ _))
  refine onScale_of_mem ?_
  simp only [capabilityStats, List.forall_mem_cons]
  exact ⟨⟨fun _ => hsuccess, fun h => absurd h (by decide)⟩,
    ⟨fun h => absurd h (by decide), fun _ => hlatency⟩,
    ⟨fun _ => hconfidence, fun h => absurd h (by decide)⟩,
    ⟨fun h => absurd h (by decide), fun _ => hrelated⟩,
    ⟨fun _ => hfailure, fun h => absurd h (by decide)⟩, fun _ h => absurd h List.not_mem_nil⟩

theorem scoreCapabilities_onScale (L : Lower) (memories : List MemoryRecord) :
    HistoryOnScale (scoreCapabilities L memories) := by
  intro entry hentry
  obtain ⟨category, -, rfl⟩ := List.mem_map.mp hentry
  exact capabilityStats_onScale _

/-- Every rate and confidence of a category is between 0 and 1. -/
def ScoredInRange (L : Lower) (memories : List MemoryRecord) : Prop :=
  ∀ entry ∈ scoreCapabilities L memories, ∀ key ∈ unitKeys, ∀ value,
    entry.2.lookup key = some value → InUnit value

theorem scoredInRange (L : Lower) (memories : List MemoryRecord) : ScoredInRange L memories :=
  fun entry hentry => (scoreCapabilities_onScale L memories entry hentry).unit

/-! ## All of them -/

/-- Every confidence of the three engines is between 0 and 1. -/
def ConfidencesInRange (L : Lower) (memories : List MemoryRecord)
    (report : LongTermIntelligenceReport) (policy : OptimizationPolicy)
    (histories : OptimizationHistories) : Prop :=
  EvolvedInRange L memories ∧ ScoredInRange L memories ∧
    OptimizedInRange (optimize report policy histories)

/-- A certain preference. -/
def certainPreference : MemoryRecord where
  title := some "Tone"
  memoryType := some "semantic"
  confidenceScore := some 1
  importanceScore := some 1

/-- A reliable tool that is used often and answers at once. -/
def instantTool : Stats :=
  [("success_rate", 1), ("reliability", 1), ("latency", 0), ("usage_frequency", 10)]

def instantHistories : OptimizationHistories where
  tool := [("search", instantTool)]

theorem instantTool_onScale : OnScale instantTool := by
  refine onScale_of_mem ?_
  simp only [instantTool, List.forall_mem_cons]
  exact ⟨⟨fun _ => ⟨zero_le_one, le_rfl⟩, fun h => absurd h (by decide)⟩,
    ⟨fun _ => ⟨zero_le_one, le_rfl⟩, fun h => absurd h (by decide)⟩,
    ⟨fun h => absurd h (by decide), fun _ => le_rfl⟩,
    ⟨fun h => absurd h (by decide), fun _ => by norm_num⟩, fun _ h => absurd h List.not_mem_nil⟩

theorem historyOnScale_nil : HistoryOnScale [] :=
  fun _ h => absurd h List.not_mem_nil

theorem instantHistories_onScale : instantHistories.OnScale where
  provider := historyOnScale_nil
  workflow := historyOnScale_nil
  tool := List.forall_mem_singleton.mpr instantTool_onScale
  prompt := historyOnScale_nil
  capability := historyOnScale_nil

theorem certainPreference_inUnit : ∀ memory ∈ [certainPreference],
    InUnit memory.confidence ∧ InUnit memory.importance :=
  List.forall_mem_singleton.mpr ⟨⟨zero_le_one, le_rfl⟩, ⟨zero_le_one, le_rfl⟩⟩

/-- A certain preference becomes more than certain, and an instant tool is recommended with more
    than certainty where latency counts. -/
theorem not_inRange_certain :
    ¬ EvolvedInRange .asciiOnly [certainPreference] ∧
      ¬ OptimizedInRange (optimize unavailableReport .latency instantHistories) := by
  constructor
  · rw [evolvedInRange_iff .asciiOnly fun memory h => (certainPreference_inUnit memory h).1]
    intro hroom
    have hgroup : semanticGroup .asciiOnly [certainPreference] "tone" = [certainPreference] := by
      decide
    have htone := hroom "tone"
    rw [hgroup] at htone
    have hconfidence : LeavesRoom 1 0 := htone.1
    norm_num [LeavesRoom] at hconfidence
  · rw [optimizedInRange_iff historyOnScale_nil .latency instantHistories_onScale]
    intro hfits
    have hbonus := hfits _ (List.mem_singleton_self ("search", instantTool))
    have hsuccess : instantTool.get "success_rate" 0 = 1 := rfl
    have hreliability : ∀ default, instantTool.get "reliability" default = 1 := fun _ => rfl
    have hlatency : ∀ default, instantTool.get "latency" default = 0 := fun _ => rfl
    have husage : ∀ default, instantTool.get "usage_frequency" default = 10 := fun _ => rfl
    simp only [BonusFits, toolBonus, toolMargin, hsuccess, hreliability, hlatency,
      husage] at hbonus
    norm_num [shortfall] at hbonus

/-- **Confidences.** For memories with scores between 0 and 1 and histories on their scales,
    under every policy: all confidences and improvements are between 0 and 1 exactly if
    every semantic memory leaves room for those that follow under its title, and the bonus of the
    policy fits for every tool. -/
theorem confidencesInRange_iff (L : Lower) {memories : List MemoryRecord}
    (hmemories : ∀ memory ∈ memories, InUnit memory.confidence ∧ InUnit memory.importance)
    {report : LongTermIntelligenceReport} (hreport : HistoryOnScale report.capabilityScores)
    (policy : OptimizationPolicy) {histories : OptimizationHistories}
    (hhistories : histories.OnScale) :
    ConfidencesInRange L memories report policy histories ↔
      (∀ title, RoomForLater (semanticGroup L memories title)) ∧
        ∀ entry ∈ histories.tool, BonusFits policy entry.2 := by
  rw [ConfidencesInRange, evolvedInRange_iff L fun memory hmem => (hmemories memory hmem).1,
    optimizedInRange_iff hreport policy hhistories, and_iff_right (scoredInRange L memories)]

theorem confidencesInRange_certain :
    ConfidencesInRange .asciiOnly [certainPreference] unavailableReport .balanced
        instantHistories ↔
      (∀ title, RoomForLater (semanticGroup .asciiOnly [certainPreference] title)) ∧
        ∀ entry ∈ instantHistories.tool, BonusFits .balanced entry.2 :=
  confidencesInRange_iff .asciiOnly certainPreference_inUnit historyOnScale_nil .balanced
    instantHistories_onScale

end AgentCorp.Runtime
