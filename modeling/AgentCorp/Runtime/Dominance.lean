/-
  Dominance: an entry of a history that is at least as good as another on everything that is read
  of it, and better on something.

  * `capabilityScore_mono`, `workflowScore_mono`: a dominating entry has no lower score, so that
    a dominated one is recommended only at an equal score.
  * `before_orderBy_iff`: which of two entries is ordered first.
  * `before_capabilities_iff`, `before_workflows_iff`: for the two histories of an ordering.
  * `respectsDominance_iff`: when the ordering puts the dominating entries first. The order of the
    workflows prefers the long ones.
-/
import AgentCorp.Lib.StableOrder
import AgentCorp.Runtime.Optimization
import Mathlib.Tactic.Linarith

namespace AgentCorp.Runtime

open AgentCorp.Python
open StableOrder (Before)

/-! ## Statistics that are read -/

/-- One read of the statistics: a key with the default that stands in for it. -/
structure StatRead where
  key : String
  default : Rat
  higherIsBetter : Bool
  deriving DecidableEq, Repr

/-- What `_capability_score` and `_order_execution` read of a capability. -/
def capabilityReads : List StatRead :=
  [⟨"success_rate", 0, true⟩, ⟨"average_latency", 1, false⟩, ⟨"failure_frequency", 0, false⟩,
    ⟨"failure_frequency", 1, false⟩]

/-- What `_workflow_score` and `_order_execution` read of a workflow. -/
def workflowReads : List StatRead :=
  [⟨"success_rate", 0, true⟩, ⟨"average_duration", 1, false⟩, ⟨"average_duration", 0, false⟩,
    ⟨"failure_rate", 0, false⟩, ⟨"failure_rate", 1, false⟩]

/-- `a` is at least as good as `b` on one read. -/
def StatRead.AtLeast (read : StatRead) (a b : Stats) : Prop :=
  if read.higherIsBetter then b.get read.key read.default ≤ a.get read.key read.default
  else a.get read.key read.default ≤ b.get read.key read.default

/-- `a` is at least as good as `b` on every read, and strictly better on one. -/
def Dominates (reads : List StatRead) (a b : Stats) : Prop :=
  (∀ read ∈ reads, read.AtLeast a b) ∧ ∃ read ∈ reads, ¬ read.AtLeast b a

/-- The histories of capabilities that `optimize` works with. -/
def capabilityHistory (report : LongTermIntelligenceReport) (histories : OptimizationHistories) :
    Dict Stats :=
  orHistory histories.capability report.capabilityScores

/-- A dominating entry comes first in the ordering, and a dominated one is recommended only at an
    equal score. -/
structure RespectsDominance (report : LongTermIntelligenceReport) (policy : OptimizationPolicy)
    (histories : OptimizationHistories) : Prop where
  capabilityOrder : ∀ a ∈ capabilityHistory report histories,
    ∀ b ∈ capabilityHistory report histories, Dominates capabilityReads a.2 b.2 →
      Before (optimize report policy histories).executionOrdering ("capability:" ++ a.1)
        ("capability:" ++ b.1)
  capabilityRecommended : ∀ a ∈ capabilityHistory report histories,
    ∀ b ∈ capabilityHistory report histories, Dominates capabilityReads a.2 b.2 →
      (optimize report policy histories).capabilityRecommendation.recommendation = b.1 →
      capabilityScore a.2 policy = capabilityScore b.2 policy
  workflowOrder : ∀ a ∈ histories.workflow, ∀ b ∈ histories.workflow,
    Dominates workflowReads a.2 b.2 →
      Before (optimize report policy histories).executionOrdering ("workflow:" ++ a.1)
        ("workflow:" ++ b.1)
  workflowRecommended : ∀ a ∈ histories.workflow, ∀ b ∈ histories.workflow,
    Dominates workflowReads a.2 b.2 →
      (optimize report policy histories).workflowRecommendation.recommendation = b.1 →
      workflowScore a.2 policy = workflowScore b.2 policy

/-! ## Recommendations -/

theorem shortfall_anti {x y scale : Rat} (hscale : 0 < scale) (h : x ≤ y) :
    shortfall y scale ≤ shortfall x scale := by
  have hquotient : x / scale ≤ y / scale := div_le_div_of_nonneg_right h hscale.le
  have hmin : min (x / scale) 1 ≤ min (y / scale) 1 := min_le_min_right 1 hquotient
  unfold shortfall
  linarith

theorem capabilityScore_mono {a b : Stats} (h : Dominates capabilityReads a b)
    (policy : OptimizationPolicy) : capabilityScore b policy ≤ capabilityScore a policy := by
  have hsuccess : b.get "success_rate" 0 ≤ a.get "success_rate" 0 :=
    h.1 ⟨"success_rate", 0, true⟩ (by decide)
  have hlatency : a.get "average_latency" 1 ≤ b.get "average_latency" 1 :=
    h.1 ⟨"average_latency", 1, false⟩ (by decide)
  have hfailure : a.get "failure_frequency" 0 ≤ b.get "failure_frequency" 0 :=
    h.1 ⟨"failure_frequency", 0, false⟩ (by decide)
  have hshort := shortfall_anti (by norm_num : (0 : Rat) < 10) hlatency
  cases policy <;> simp only [capabilityScore] <;> linarith

theorem workflowScore_mono {a b : Stats} (h : Dominates workflowReads a b)
    (policy : OptimizationPolicy) : workflowScore b policy ≤ workflowScore a policy := by
  have hsuccess : b.get "success_rate" 0 ≤ a.get "success_rate" 0 :=
    h.1 ⟨"success_rate", 0, true⟩ (by decide)
  have hduration : a.get "average_duration" 1 ≤ b.get "average_duration" 1 :=
    h.1 ⟨"average_duration", 1, false⟩ (by decide)
  have hfailure : a.get "failure_rate" 0 ≤ b.get "failure_rate" 0 :=
    h.1 ⟨"failure_rate", 0, false⟩ (by decide)
  have hshort := shortfall_anti (by norm_num : (0 : Rat) < 60) hduration
  cases policy <;> simp only [workflowScore] <;> linarith

/-- An entry that no score beats is recommended, so one that is recommended below another has
    its score. -/
theorem score_eq_of_recommended (texts : RecommendationTexts) (score : Stats → Rat)
    {history : Dict Stats} (hnames : (history.map Prod.fst).Nodup) {a b : String × Stats}
    (ha : a ∈ history) (hb : b ∈ history) (hle : score b.2 ≤ score a.2)
    (h : (recommend texts score history).recommendation = b.1) : score a.2 = score b.2 := by
  obtain ⟨name, stats, hmem, hbest, hname, -⟩ :=
    recommend_spec texts score (List.ne_nil_of_mem ha)
  have hsame : (name, stats) = b :=
    List.inj_on_of_nodup_map hnames hmem hb (hname.symm.trans h)
  have hge : score a.2 ≤ score b.2 := by
    rw [← hsame]
    exact hbest a ha
  exact le_antisymm hge hle

/-! ## The ordering of one history -/

section Order

variable (first second : Stats → Rat) {history : Dict Stats}

/-- The relation that `orderBy` sorts by. -/
def KeyLe (a b : String × Stats) : Prop :=
  first a.2 < first b.2 ∨ (first a.2 = first b.2 ∧ second b.2 ≤ second a.2)

instance : DecidableRel (KeyLe first second) :=
  fun a b => inferInstanceAs (Decidable
    (first a.2 < first b.2 ∨ (first a.2 = first b.2 ∧ second b.2 ≤ second a.2)))

instance : Std.Total (KeyLe first second) where
  total a b := by
    unfold KeyLe
    rcases lt_trichotomy (first a.2) (first b.2) with hlt | heq | hgt
    · exact Or.inl (Or.inl hlt)
    · rcases le_total (second b.2) (second a.2) with hle | hle
      · exact Or.inl (Or.inr ⟨heq, hle⟩)
      · exact Or.inr (Or.inr ⟨heq.symm, hle⟩)
    · exact Or.inr (Or.inl hgt)

instance : IsTrans (String × Stats) (KeyLe first second) where
  trans a b c hab hbc := by
    unfold KeyLe at *
    rcases hab with hab | ⟨hab, hab'⟩
    · rcases hbc with hbc | ⟨hbc, -⟩
      · exact Or.inl (lt_trans hab hbc)
      · exact Or.inl (hbc ▸ hab)
    · rcases hbc with hbc | ⟨hbc, hbc'⟩
      · exact Or.inl (hab ▸ hbc)
      · exact Or.inr ⟨hab.trans hbc, le_trans hbc' hab'⟩

theorem orderBy_eq (history : Dict Stats) :
    orderBy first second history = (history.insertionSort (KeyLe first second)).map Prod.fst :=
  rfl

theorem nodup_orderBy (hnames : (history.map Prod.fst).Nodup) :
    (orderBy first second history).Nodup := by
  rw [orderBy_eq]
  exact ((List.perm_insertionSort _ history).map Prod.fst).nodup_iff.mpr hnames

/-- Entries are ordered by the first number, then downwards by the second one, and then as they
    stand in the history. -/
theorem before_orderBy_iff (hnames : (history.map Prod.fst).Nodup) {a b : String × Stats}
    (ha : a ∈ history) (hb : b ∈ history) (hne : a ≠ b) :
    Before (orderBy first second history) a.1 b.1 ↔
      KeyLe first second a b ∧ (KeyLe first second b a → Before history a b) := by
  have hsort : ∀ {x}, x ∈ history → x ∈ history.insertionSort (KeyLe first second) :=
    (List.mem_insertionSort _).mpr
  have hmap : ((history.insertionSort (KeyLe first second)).map Prod.fst).Nodup :=
    nodup_orderBy first second hnames
  rw [orderBy_eq, StableOrder.before_map_iff hmap (hsort ha) (hsort hb),
    StableOrder.before_insertionSort_iff (List.Nodup.of_map _ hnames) ha hb hne]

/-- Where the first number does not put `a` behind, the second one decides, and then `P`. -/
theorem keyLe_and_iff {a b : String × Stats} (h : first a.2 ≤ first b.2) (P : Prop) :
    (KeyLe first second a b ∧ (KeyLe first second b a → P)) ↔
      first a.2 ≠ first b.2 ∨ second b.2 < second a.2 ∨ (second a.2 = second b.2 ∧ P) := by
  unfold KeyLe
  rcases h.lt_or_eq with hlt | heq
  · simp [hlt, hlt.ne, hlt.ne', hlt.not_gt]
  · rcases lt_trichotomy (second a.2) (second b.2) with hsecond | hsecond | hsecond
    · simp [heq, hsecond.not_ge, hsecond.ne, hsecond.not_gt]
    · simp [heq, hsecond]
    · simp [heq, hsecond, hsecond.le, hsecond.not_ge]

theorem mem_orderBy {a : String × Stats} (ha : a ∈ history) :
    a.1 ∈ orderBy first second history :=
  List.mem_map.mpr ⟨a, (List.mem_insertionSort _).mpr ha, rfl⟩

end Order

/-! ## The execution ordering -/

section Execution

variable {capabilities workflows : Dict Stats}

theorem before_prefixed_iff {prefixed : String} {names : List String} (hnames : names.Nodup)
    {a b : String} (ha : a ∈ names) (hb : b ∈ names) :
    Before (names.map (prefixed ++ ·)) (prefixed ++ a) (prefixed ++ b) ↔ Before names a b := by
  have hinjective : Function.Injective (prefixed ++ · : String → String) :=
    fun x y h => (String.append_right_inj prefixed).mp h
  exact StableOrder.before_map_iff (hnames.map hinjective) ha hb

theorem capability_ne_workflow (a b : String) : "capability:" ++ a ≠ "workflow:" ++ b := by
  intro h
  have hlist := congrArg String.toList h
  simp at hlist

/-- The names of the capabilities in the order of `_order_execution`. -/
def capabilityOrder (capabilities : Dict Stats) : List String :=
  orderBy (Stats.get · "failure_frequency" 1) (Stats.get · "success_rate" 0) capabilities

def workflowOrder (workflows : Dict Stats) : List String :=
  orderBy (Stats.get · "failure_rate" 1) (Stats.get · "average_duration" 0) workflows

theorem orderExecution_of_mem {name : String}
    (h : name ∈ (capabilityOrder capabilities).map ("capability:" ++ ·) ++
      (workflowOrder workflows).map ("workflow:" ++ ·)) :
    orderExecution capabilities workflows =
      (capabilityOrder capabilities).map ("capability:" ++ ·) ++
        (workflowOrder workflows).map ("workflow:" ++ ·) :=
  if_neg (List.ne_nil_of_mem h)

theorem before_capabilities_iff (hnames : (capabilities.map Prod.fst).Nodup)
    {a b : String × Stats} (ha : a ∈ capabilities) (hb : b ∈ capabilities) :
    Before (orderExecution capabilities workflows) ("capability:" ++ a.1) ("capability:" ++ b.1) ↔
      Before (capabilityOrder capabilities) a.1 b.1 := by
  have hnodup : (capabilityOrder capabilities).Nodup := nodup_orderBy _ _ hnames
  have ha' : a.1 ∈ capabilityOrder capabilities := mem_orderBy _ _ ha
  have hb' : b.1 ∈ capabilityOrder capabilities := mem_orderBy _ _ hb
  have hother : "capability:" ++ b.1 ∉ (workflowOrder workflows).map ("workflow:" ++ ·) := by
    intro hmem
    obtain ⟨name, -, hname⟩ := List.mem_map.mp hmem
    exact capability_ne_workflow _ _ hname.symm
  rw [orderExecution_of_mem (List.mem_append_left _ (List.mem_map_of_mem ha')),
    StableOrder.before_append_left_iff hother,
    before_prefixed_iff hnodup ha' hb']

theorem before_workflows_iff (hnames : (workflows.map Prod.fst).Nodup)
    {a b : String × Stats} (ha : a ∈ workflows) (hb : b ∈ workflows) :
    Before (orderExecution capabilities workflows) ("workflow:" ++ a.1) ("workflow:" ++ b.1) ↔
      Before (workflowOrder workflows) a.1 b.1 := by
  have hnodup : (workflowOrder workflows).Nodup := nodup_orderBy _ _ hnames
  have ha' : a.1 ∈ workflowOrder workflows := mem_orderBy _ _ ha
  have hb' : b.1 ∈ workflowOrder workflows := mem_orderBy _ _ hb
  have hother :
      "workflow:" ++ a.1 ∉ (capabilityOrder capabilities).map ("capability:" ++ ·) := by
    intro hmem
    obtain ⟨name, -, hname⟩ := List.mem_map.mp hmem
    exact capability_ne_workflow _ _ hname
  rw [orderExecution_of_mem (List.mem_append_right _ (List.mem_map_of_mem ha')),
    StableOrder.before_append_right_iff hother,
    before_prefixed_iff hnodup ha' hb']

end Execution

/-! ## When dominance is respected -/

theorem Dominates.ne {reads : List StatRead} {a b : String × Stats}
    (h : Dominates reads a.2 b.2) : a ≠ b := by
  obtain ⟨read, hread, hbetter⟩ := h.2
  intro hsame
  exact hbetter (hsame ▸ h.1 read hread)

/-- Whether the key of the capabilities, or else their history, tells two of them apart. -/
def CapabilitySettled (history : Dict Stats) (a b : String × Stats) : Prop :=
  a.2.get "failure_frequency" 1 ≠ b.2.get "failure_frequency" 1 ∨
    a.2.get "success_rate" 0 ≠ b.2.get "success_rate" 0 ∨ Before history a b

/-- The same for workflows, of which the longer one comes first. -/
def WorkflowSettled (history : Dict Stats) (a b : String × Stats) : Prop :=
  a.2.get "failure_rate" 1 ≠ b.2.get "failure_rate" 1 ∨
    (a.2.get "average_duration" 0 = b.2.get "average_duration" 0 ∧ Before history a b)

theorem before_capabilityOrder_iff {history : Dict Stats}
    (hnames : (history.map Prod.fst).Nodup) {a b : String × Stats} (ha : a ∈ history)
    (hb : b ∈ history) (h : Dominates capabilityReads a.2 b.2) :
    Before (capabilityOrder history) a.1 b.1 ↔ CapabilitySettled history a b := by
  have hsuccess : b.2.get "success_rate" 0 ≤ a.2.get "success_rate" 0 :=
    h.1 ⟨"success_rate", 0, true⟩ (by decide)
  have hfailure : a.2.get "failure_frequency" 1 ≤ b.2.get "failure_frequency" 1 :=
    h.1 ⟨"failure_frequency", 1, false⟩ (by decide)
  have hkey := keyLe_and_iff (Stats.get · "failure_frequency" 1) (Stats.get · "success_rate" 0)
    hfailure (Before history a b)
  rw [capabilityOrder, before_orderBy_iff _ _ hnames ha hb h.ne, hkey]
  unfold CapabilitySettled
  rcases hsuccess.lt_or_eq with hlt | heq
  · simp [hlt, hlt.ne']
  · simp [heq]

theorem before_workflowOrder_iff {history : Dict Stats}
    (hnames : (history.map Prod.fst).Nodup) {a b : String × Stats} (ha : a ∈ history)
    (hb : b ∈ history) (h : Dominates workflowReads a.2 b.2) :
    Before (workflowOrder history) a.1 b.1 ↔ WorkflowSettled history a b := by
  have hduration : a.2.get "average_duration" 0 ≤ b.2.get "average_duration" 0 :=
    h.1 ⟨"average_duration", 0, false⟩ (by decide)
  have hfailure : a.2.get "failure_rate" 1 ≤ b.2.get "failure_rate" 1 :=
    h.1 ⟨"failure_rate", 1, false⟩ (by decide)
  have hkey := keyLe_and_iff (Stats.get · "failure_rate" 1) (Stats.get · "average_duration" 0)
    hfailure (Before history a b)
  rw [workflowOrder, before_orderBy_iff _ _ hnames ha hb h.ne, hkey]
  unfold WorkflowSettled
  simp [hduration.not_gt]

section Respects

variable {report : LongTermIntelligenceReport} {policy : OptimizationPolicy}
  {histories : OptimizationHistories}

theorem executionOrdering_eq :
    (optimize report policy histories).executionOrdering =
      orderExecution (capabilityHistory report histories) histories.workflow :=
  rfl

/-- The ordering puts the dominating one of two capabilities first, exactly if they are
    settled. -/
theorem capabilityFirst_iff (hnames : ((capabilityHistory report histories).map Prod.fst).Nodup)
    {a b : String × Stats} (ha : a ∈ capabilityHistory report histories)
    (hb : b ∈ capabilityHistory report histories) (h : Dominates capabilityReads a.2 b.2) :
    Before (optimize report policy histories).executionOrdering ("capability:" ++ a.1)
        ("capability:" ++ b.1) ↔
      CapabilitySettled (capabilityHistory report histories) a b := by
  rw [executionOrdering_eq, before_capabilities_iff hnames ha hb,
    before_capabilityOrder_iff hnames ha hb h]

theorem workflowFirst_iff (hnames : (histories.workflow.map Prod.fst).Nodup)
    {a b : String × Stats} (ha : a ∈ histories.workflow) (hb : b ∈ histories.workflow)
    (h : Dominates workflowReads a.2 b.2) :
    Before (optimize report policy histories).executionOrdering ("workflow:" ++ a.1)
        ("workflow:" ++ b.1) ↔ WorkflowSettled histories.workflow a b := by
  rw [executionOrdering_eq, before_workflows_iff hnames ha hb,
    before_workflowOrder_iff hnames ha hb h]

end Respects

/-- **Dominance.** The recommendations always respect it. The ordering does exactly if the keys
    of the dominating entries, or else their places in the histories, put them first. -/
theorem respectsDominance_iff (report : LongTermIntelligenceReport) (policy : OptimizationPolicy)
    (histories : OptimizationHistories)
    (hcapabilities : ((capabilityHistory report histories).map Prod.fst).Nodup)
    (hworkflows : (histories.workflow.map Prod.fst).Nodup) :
    RespectsDominance report policy histories ↔
      (∀ a ∈ capabilityHistory report histories, ∀ b ∈ capabilityHistory report histories,
        Dominates capabilityReads a.2 b.2 →
          CapabilitySettled (capabilityHistory report histories) a b) ∧
      ∀ a ∈ histories.workflow, ∀ b ∈ histories.workflow,
        Dominates workflowReads a.2 b.2 → WorkflowSettled histories.workflow a b := by
  constructor
  · intro h
    refine ⟨fun a ha b hb hab => ?_, fun a ha b hb hab => ?_⟩
    · exact (capabilityFirst_iff hcapabilities ha hb hab).mp (h.capabilityOrder a ha b hb hab)
    · exact (workflowFirst_iff hworkflows ha hb hab).mp (h.workflowOrder a ha b hb hab)
  · rintro ⟨hcapability, hworkflow⟩
    constructor
    · intro a ha b hb hab
      exact (capabilityFirst_iff hcapabilities ha hb hab).mpr (hcapability a ha b hb hab)
    · intro a ha b hb hab
      exact score_eq_of_recommended _ (capabilityScore · policy) hcapabilities ha hb
        (capabilityScore_mono hab policy)
    · intro a ha b hb hab
      exact (workflowFirst_iff hworkflows ha hb hab).mpr (hworkflow a ha b hb hab)
    · intro a ha b hb hab
      exact score_eq_of_recommended _ (workflowScore · policy) hworkflows ha hb
        (workflowScore_mono hab policy)

/-! ## Workflows of one failure rate -/

def workflowStats (successRate averageDuration failureRate : Rat) : Stats :=
  [("success_rate", successRate), ("average_duration", averageDuration),
    ("failure_rate", failureRate)]

section Stats

variable (success duration failure default : Rat)

@[simp] theorem workflowStats_success :
    (workflowStats success duration failure).get "success_rate" default = success :=
  rfl

@[simp] theorem workflowStats_duration :
    (workflowStats success duration failure).get "average_duration" default = duration :=
  rfl

@[simp] theorem workflowStats_failure :
    (workflowStats success duration failure).get "failure_rate" default = failure :=
  rfl

end Stats

/-- A report without scores of its own. -/
def bareReport : LongTermIntelligenceReport :=
  ⟨[], [], [], [], [], [], 0, false⟩

/-- A shorter duration dominates, everything else being equal. -/
theorem dominates_of_shorter (success failure : Rat) {short long : Rat} (h : short < long) :
    Dominates workflowReads (workflowStats success short failure)
      (workflowStats success long failure) := by
  constructor
  · intro read hread
    simp only [workflowReads, List.mem_cons, List.not_mem_nil, or_false] at hread
    rcases hread with rfl | rfl | rfl | rfl | rfl <;> simp [StatRead.AtLeast, h.le]
  · refine ⟨⟨"average_duration", 1, false⟩, by decide, ?_⟩
    simpa [StatRead.AtLeast] using h

def slowAndFast : OptimizationHistories where
  workflow := [("slow", workflowStats (9 / 10) 50 (1 / 10)),
    ("fast", workflowStats (9 / 10) 5 (1 / 10))]

/-- The workflow that takes ten times as long is ordered first. -/
theorem not_respectsDominance_slow :
    ¬ RespectsDominance bareReport .balanced slowAndFast := by
  intro h
  have hdominates := dominates_of_shorter (9 / 10) (1 / 10) (by norm_num : (5 : Rat) < 50)
  have hnames : (slowAndFast.workflow.map Prod.fst).Nodup := by
    show ["slow", "fast"].Nodup
    decide
  have hfast : ("fast", workflowStats (9 / 10) 5 (1 / 10)) ∈ slowAndFast.workflow := by
    simp [slowAndFast]
  have hslow : ("slow", workflowStats (9 / 10) 50 (1 / 10)) ∈ slowAndFast.workflow := by
    simp [slowAndFast]
  have hbefore := h.workflowOrder _ hfast _ hslow hdominates
  rcases (workflowFirst_iff hnames hfast hslow hdominates).mp hbefore with
    hfailure | ⟨hduration, -⟩
  · simp at hfailure
  · simp at hduration

theorem respectsDominance_failureRates :
    RespectsDominance bareReport .latency
      { workflow := [("flaky", workflowStats (5 / 10) 50 (5 / 10)),
          ("steady", workflowStats (9 / 10) 5 (1 / 10))] } := by
  have hrates : (5 / 10 : Rat) ≠ 1 / 10 := by norm_num
  refine (respectsDominance_iff bareReport .latency _ ?_ ?_).mpr ⟨?_, ?_⟩
  · exact List.nodup_nil
  · show ["flaky", "steady"].Nodup
    decide
  · intro a ha
    cases ha
  · intro a ha b hb hab
    simp only [List.mem_cons, List.not_mem_nil, or_false] at ha hb
    rcases ha with rfl | rfl
    · rcases hb with rfl | rfl
      · exact absurd rfl hab.ne
      · exact Or.inl (by simpa using hrates)
    · rcases hb with rfl | rfl
      · exact Or.inl (by simpa using hrates.symm)
      · exact absurd rfl hab.ne

end AgentCorp.Runtime
