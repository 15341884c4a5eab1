/-
  Runs of plan revisions: calls of `revise_blueprint`, each on the blueprint of the one before.

  A revision writes the task graph, the revision number and the history of a blueprint. The
  dependencies, the milestones and the priorities stay as they were planned.

  * `taskGraph_revised`: the tasks after a run. The first revision decides; every later one
    gives the same tasks again.
  * `alwaysClosed_iff`: the fields of a planned blueprint name its own tasks, in all its
    revisions, exactly if nothing is ever replanned.
  * `revisions_numbered`: what the replanning calls do to the numbers of the revisions.
  * `revisions_explained`: the task graphs of a run by its plan diffs, and its history.
-/
import AgentCorp.Runtime.AdaptivePlanning
import Mathlib.Logic.Relation

namespace AgentCorp.Runtime

open AgentCorp.Python

/-! ## Calls and runs -/

/-- The arguments of one call of `revise_blueprint`, the blueprint apart. -/
structure RevisionCall where
  goalStatus : Option String
  reflection : ReflectionReport
  evaluation : EvaluationReport
  learning : LearningReport

namespace RevisionCall

/-- The policy asks for a revision. -/
def replans (call : RevisionCall) : Bool :=
  replanningReasons call.reflection call.evaluation call.learning call.goalStatus ≠ []

def report (call : RevisionCall) (previous : RevisedBlueprint) : AdaptivePlanningReport :=
  reviseBlueprint call.goalStatus previous call.reflection call.evaluation call.learning

end RevisionCall

/-- The blueprint after the calls. -/
def revised (blueprint : RevisedBlueprint) (calls : List RevisionCall) : RevisedBlueprint :=
  calls.foldl (fun previous call => (call.report previous).revisedBlueprint) blueprint

/-- The reports of the calls, in order. -/
def revisionReports : RevisedBlueprint → List RevisionCall → List AdaptivePlanningReport
  | _, [] => []
  | previous, call :: calls =>
      call.report previous :: revisionReports (call.report previous).revisedBlueprint calls

def taskIds (blueprint : ExecutionBlueprint) : List String :=
  blueprint.taskGraph.map PlannedTask.identifier

/-- The tasks of the blueprint after a revision. -/
def revisedTasks (blueprint : ExecutionBlueprint) : List PlannedTask :=
  blueprint.taskGraph.filter preserved ++ [adaptiveTask]

/-- An execution that went well, for a goal of the given status. -/
def smoothCall (goalStatus : Option String) : RevisionCall where
  goalStatus := goalStatus
  reflection := ⟨"task_1 finished with COMPLETED.", [], [], [], [], [], [], 9 / 10⟩
  evaluation := ⟨true, 9 / 10, 1, 1, 9 / 10, 9 / 10, [], "Execution succeeded."⟩
  learning := ⟨[], [], [], [], [], 9 / 10, 1, .persist, none, "Nothing to learn."⟩

/-- It is replanned while its goal is not completed, and only then. -/
theorem replans_smoothCall (goalStatus : Option String) :
    (smoothCall goalStatus).replans = goalStatus.any (· ≠ "COMPLETED") := by
  have hquality : ¬ (9 / 10 : Rat) < 7 / 10 := by norm_num
  have hlearning : ¬ (9 / 10 : Rat) < 65 / 100 := by norm_num
  cases hgoal : goalStatus.any (· ≠ "COMPLETED") with
  | false =>
      simp only [RevisionCall.replans, smoothCall, replanningReasons, hgoal]
      simp [textIf, hquality, hlearning]
  | true =>
      simp only [RevisionCall.replans, smoothCall, replanningReasons, hgoal]
      simp [textIf]

/-! ## One call -/

section OneCall

variable {call : RevisionCall} (previous : RevisedBlueprint)

theorem reasons_of_replans (h : call.replans = true) :
    replanningReasons call.reflection call.evaluation call.learning call.goalStatus ≠ [] := by
  simpa [RevisionCall.replans] using h

theorem reasons_of_not_replans (h : call.replans = false) :
    replanningReasons call.reflection call.evaluation call.learning call.goalStatus = [] := by
  simpa [RevisionCall.replans] using h

/-- A call that replans, by what it reports. -/
theorem report_of_replans (h : call.replans = true) :
    (call.report previous).replanningRequired = true ∧
      (call.report previous).revisedBlueprint.taskGraph =
        revisedTasks previous.toExecutionBlueprint ∧
      (call.report previous).planDiff.addedTasks = [adaptiveTask] ∧
      (call.report previous).planDiff.removedTasks =
        previous.taskGraph.filter fun task => task ∉ previous.taskGraph.filter preserved := by
  unfold RevisionCall.report reviseBlueprint
  rw [if_neg (reasons_of_replans h)]
  exact ⟨rfl, rfl, rfl, rfl⟩

/-- A call that does not replan writes nothing but the planning version and the trace. -/
theorem report_of_not_replans (h : call.replans = false) :
    (call.report previous).replanningRequired = false ∧
      (call.report previous).revisedBlueprint.taskGraph = previous.taskGraph ∧
      (call.report previous).revisedBlueprint.revisionNumber = previous.revisionNumber ∧
      (call.report previous).revisedBlueprint.blueprintHistory = previous.blueprintHistory ∧
      (call.report previous).planDiff.addedTasks = [] ∧
      (call.report previous).planDiff.removedTasks = [] := by
  unfold RevisionCall.report reviseBlueprint
  rw [if_pos (reasons_of_not_replans h)]
  dsimp only [revisionBlueprint]
  cases previous.planningVersion with
  | none => exact ⟨rfl, rfl, rfl, rfl, rfl, rfl⟩
  | some version => exact ⟨rfl, rfl, rfl, rfl, rfl, rfl⟩

/-- The numbers that a replanning call gives, and the entry it adds to the history. -/
theorem numbers_of_replans (h : call.replans = true) :
    (call.report previous).revisedBlueprint.revisionNumber =
        max 1 previous.revisionNumber + 1 ∧
      (call.report previous).revisionNumber =
        (call.report previous).revisedBlueprint.revisionNumber ∧
      (call.report previous).revisedBlueprint.planningVersion =
        previous.planningVersion.map
          (fun _ => toString (call.report previous).revisedBlueprint.revisionNumber) ∧
      (call.report previous).revisedBlueprint.blueprintHistory = previous.blueprintHistory ++
        [⟨previous.revisionNumber, taskIds previous.toExecutionBlueprint,
          previous.planningConfidence, previous.planningRationale⟩] := by
  have hnumber : (if previous.revisionNumber = 0 then 1 else previous.revisionNumber) =
      max 1 previous.revisionNumber := by
    split <;> omega
  unfold RevisionCall.report reviseBlueprint
  rw [if_neg (reasons_of_replans h)]
  dsimp only [replannedBlueprint]
  rw [hnumber]
  exact ⟨rfl, rfl, rfl, rfl⟩

/-- No call touches what else was planned. -/
theorem report_keeps (call : RevisionCall) :
    (call.report previous).previousBlueprint = previous ∧
      (call.report previous).revisedBlueprint.dependencyGraph = previous.dependencyGraph ∧
      (call.report previous).revisedBlueprint.milestones = previous.milestones ∧
      (call.report previous).revisedBlueprint.priorityOrdering = previous.priorityOrdering := by
  unfold RevisionCall.report reviseBlueprint
  dsimp only
  split
  · refine ⟨rfl, ?_⟩
    dsimp only [revisionBlueprint]
    cases previous.planningVersion with
    | none => exact ⟨rfl, rfl, rfl⟩
    | some version => exact ⟨rfl, rfl, rfl⟩
  · exact ⟨rfl, rfl, rfl, rfl⟩

end OneCall

/-! ## The tasks after a run -/

theorem not_preserved_adaptiveTask : preserved adaptiveTask = false := by
  have hlow : ¬ (75 / 100 : Rat) ≤ adaptiveTask.estimatedConfidence := by
    norm_num [adaptiveTask]
  simp [preserved, hlow]

/-- A second revision gives the tasks of the first one. -/
theorem filter_revisedTasks (blueprint : ExecutionBlueprint) :
    (revisedTasks blueprint).filter preserved ++ [adaptiveTask] = revisedTasks blueprint := by
  unfold revisedTasks
  rw [List.filter_append, List.filter_filter]
  simp [not_preserved_adaptiveTask]

theorem revised_cons (blueprint : RevisedBlueprint) (call : RevisionCall)
    (calls : List RevisionCall) :
    revised blueprint (call :: calls) =
      revised (call.report blueprint).revisedBlueprint calls := rfl

theorem taskGraph_revised (blueprint : RevisedBlueprint) (calls : List RevisionCall) :
    (revised blueprint calls).taskGraph =
      if calls.any RevisionCall.replans then revisedTasks blueprint.toExecutionBlueprint
      else blueprint.taskGraph := by
  induction calls generalizing blueprint with
  | nil => rfl
  | cons call calls ih =>
      rw [revised_cons, ih, List.any_cons]
      cases hreplans : call.replans with
      | false =>
          obtain ⟨-, htasks, -⟩ := report_of_not_replans blueprint hreplans
          simp only [revisedTasks, htasks, Bool.false_or]
      | true =>
          obtain ⟨-, htasks, -⟩ := report_of_replans blueprint hreplans
          have hagain : revisedTasks (call.report blueprint).revisedBlueprint.toExecutionBlueprint =
              revisedTasks blueprint.toExecutionBlueprint := by
            rw [revisedTasks, htasks, filter_revisedTasks]
          rw [hagain, htasks]
          simp

/-- The fields that every revision keeps. -/
theorem revised_keeps (blueprint : RevisedBlueprint) (calls : List RevisionCall) :
    (revised blueprint calls).dependencyGraph = blueprint.dependencyGraph ∧
      (revised blueprint calls).milestones = blueprint.milestones ∧
      (revised blueprint calls).priorityOrdering = blueprint.priorityOrdering := by
  induction calls generalizing blueprint with
  | nil => exact ⟨rfl, rfl, rfl⟩
  | cons call calls ih =>
      obtain ⟨-, hdependencies, hmilestones, hpriorities⟩ := report_keeps blueprint call
      obtain ⟨ihdependencies, ihmilestones, ihpriorities⟩ :=
        ih (call.report blueprint).revisedBlueprint
      rw [revised_cons]
      exact ⟨ihdependencies.trans hdependencies, ihmilestones.trans hmilestones,
        ihpriorities.trans hpriorities⟩

/-! ## Closed blueprints -/

/-- An edge of the dependency graph leads from one identifier to the other. -/
def DependsOn (edges : List DependencyEdge) (source target : String) : Prop :=
  ∃ edge ∈ edges, edge.source = source ∧ edge.target = target

/-- The dependencies, the milestones and the priorities are about the tasks `ids`. -/
structure ClosedOver (ids : List String) (blueprint : ExecutionBlueprint) : Prop where
  dependencies : ∀ edge ∈ blueprint.dependencyGraph, edge.source ∈ ids ∧ edge.target ∈ ids
  milestones : ∀ milestone ∈ blueprint.milestones, ∀ id ∈ milestone.tasks, id ∈ ids
  priorities : ∀ id ∈ blueprint.priorityOrdering, id ∈ ids
  ordered : ∀ id ∈ ids, blueprint.priorityOrdering.count id = 1
  acyclic : ∀ id, ¬ Relation.TransGen (DependsOn blueprint.dependencyGraph) id id

theorem acyclic_of_rank {edges : List DependencyEdge} (rank : String → ℕ)
    (h : ∀ source target, DependsOn edges source target → rank source < rank target)
    (id : String) : ¬ Relation.TransGen (DependsOn edges) id id := by
  intro hcycle
  have hlt : ∀ source target, Relation.TransGen (DependsOn edges) source target →
      rank source < rank target := by
    intro source target hpath
    induction hpath with
    | single hedge => exact h _ _ hedge
    | tail _ hedge ih => exact ih.trans (h _ _ hedge)
  exact lt_irrefl _ (hlt id id hcycle)

/-- The blueprint is closed over its own tasks. -/
def Closed (blueprint : ExecutionBlueprint) : Prop :=
  ClosedOver (taskIds blueprint) blueprint

/-- Every blueprint of the run is closed, the first one included. -/
def AlwaysClosed (blueprint : RevisedBlueprint) (calls : List RevisionCall) : Prop :=
  ∀ n, Closed (revised blueprint (calls.take n)).toExecutionBlueprint

/-- The blueprint stays closed over the tasks that a revision leaves. -/
def SurvivesRevision (blueprint : ExecutionBlueprint) : Prop :=
  ClosedOver ((revisedTasks blueprint).map PlannedTask.identifier) blueprint

theorem ClosedOver.congr {ids : List String} {a b : ExecutionBlueprint}
    (hdependencies : a.dependencyGraph = b.dependencyGraph)
    (hmilestones : a.milestones = b.milestones)
    (hpriorities : a.priorityOrdering = b.priorityOrdering) (h : ClosedOver ids a) :
    ClosedOver ids b where
  dependencies := hdependencies ▸ h.dependencies
  milestones := hmilestones ▸ h.milestones
  priorities := hpriorities ▸ h.priorities
  ordered := hpriorities ▸ h.ordered
  acyclic := hdependencies ▸ h.acyclic

theorem closed_revised (blueprint : RevisedBlueprint) (calls : List RevisionCall) :
    Closed (revised blueprint calls).toExecutionBlueprint ↔
      if calls.any RevisionCall.replans then SurvivesRevision blueprint.toExecutionBlueprint
      else Closed blueprint.toExecutionBlueprint := by
  obtain ⟨hdependencies, hmilestones, hpriorities⟩ := revised_keeps blueprint calls
  have hover : Closed (revised blueprint calls).toExecutionBlueprint ↔
      ClosedOver (taskIds (revised blueprint calls).toExecutionBlueprint)
        blueprint.toExecutionBlueprint :=
    ⟨ClosedOver.congr hdependencies hmilestones hpriorities,
      ClosedOver.congr hdependencies.symm hmilestones.symm hpriorities.symm⟩
  rw [hover, taskIds, taskGraph_revised]
  split
  · rfl
  · rfl

/-- A run keeps a blueprint closed exactly if it is closed at first, and survives a revision
    where there is one. -/
theorem alwaysClosed_of_blueprint (blueprint : RevisedBlueprint) (calls : List RevisionCall) :
    AlwaysClosed blueprint calls ↔ Closed blueprint.toExecutionBlueprint ∧
      ((∃ call ∈ calls, call.replans) → SurvivesRevision blueprint.toExecutionBlueprint) := by
  constructor
  · intro h
    refine ⟨h 0, fun ⟨call, hcall, hreplans⟩ => ?_⟩
    have hall := h calls.length
    rw [List.take_length, closed_revised, if_pos (List.any_eq_true.mpr ⟨call, hcall, hreplans⟩)]
      at hall
    exact hall
  · rintro ⟨hclosed, hsurvives⟩ n
    rw [closed_revised]
    split
    · next hany =>
        obtain ⟨call, hcall, hreplans⟩ := List.any_eq_true.mp hany
        exact hsurvives ⟨call, List.mem_of_mem_take hcall, hreplans⟩
    · exact hclosed

/-! ### Planned blueprints -/

section Planned

variable (L : Lower) (cognitiveState : CognitiveState)

/-- What the default stages plan, as far as the names go. -/
theorem plan_names :
    taskIds (plan (defaultStages L cognitiveState)) = ["task_1", "task_2", "task_3"] ∧
      (plan (defaultStages L cognitiveState)).dependencyGraph =
        [⟨"task_1", "task_2", "sequential"⟩, ⟨"task_2", "task_3", "sequential"⟩] ∧
      (plan (defaultStages L cognitiveState)).milestones.map PlannedMilestone.tasks =
        [["task_1", "task_2", "task_3"]] ∧
      (plan (defaultStages L cognitiveState)).priorityOrdering =
        ["task_1", "task_2", "task_3"] :=
  ⟨rfl, rfl, rfl, rfl⟩

theorem plan_closed : Closed (plan (defaultStages L cognitiveState)) := by
  obtain ⟨hids, hdependencies, hmilestones, hpriorities⟩ := plan_names L cognitiveState
  unfold Closed
  rw [hids]
  refine ⟨?_, ?_, ?_, ?_, ?_⟩
  · rw [hdependencies]
    simp
  · intro milestone hmilestone
    have hmem := List.mem_map_of_mem (f := PlannedMilestone.tasks) hmilestone
    rw [hmilestones, List.mem_singleton] at hmem
    rw [hmem]
    exact fun _ h => h
  · rw [hpriorities]
    exact fun _ h => h
  · rw [hpriorities]
    decide
  · -- The numbers of the tasks grow along the edges.
    apply acyclic_of_rank fun id =>
      if id = "task_1" then 0 else if id = "task_2" then 1 else 2
    rintro source target ⟨edge, hedge, rfl, rfl⟩
    rw [hdependencies] at hedge
    rcases List.mem_cons.mp hedge with rfl | hedge
    · decide
    · obtain rfl := List.mem_singleton.mp hedge
      decide

/-- A revision drops the second task, which the dependencies name. -/
theorem plan_not_survives : ¬ SurvivesRevision (plan (defaultStages L cognitiveState)) := by
  intro h
  obtain ⟨-, hdependencies, -, -⟩ := plan_names L cognitiveState
  have hedge : (⟨"task_1", "task_2", "sequential"⟩ : DependencyEdge) ∈
      (plan (defaultStages L cognitiveState)).dependencyGraph := by
    rw [hdependencies]
    exact List.mem_cons_self
  obtain ⟨task, htask, hid⟩ := List.mem_map.mp (h.dependencies _ hedge).2
  rcases List.mem_append.mp htask with hkept | hnew
  · have hpreserved := (List.mem_filter.mp hkept).2
    simp [preserved, hid] at hpreserved
  · rw [List.mem_singleton.mp hnew] at hid
    exact absurd hid (by decide)

end Planned

/-- A plan whose goal is still active is revised, and no longer closed. -/
theorem not_alwaysClosed_active :
    ¬ AlwaysClosed (.ofPlan (plan (defaultStages Lower.asciiOnly {})))
      [smoothCall (some "ACTIVE")] := by
  intro h
  apply plan_not_survives Lower.asciiOnly {}
  apply ((alwaysClosed_of_blueprint _ _).mp h).2
  exact ⟨_, List.mem_singleton_self _, replans_smoothCall (some "ACTIVE")⟩

/-- **Closed revisions.** Over every engine and every run, the blueprints stay closed exactly if
    the planned one is, and survives a revision where there is one. The blueprints of the
    default stages are closed and survive none, so they stay closed exactly if no call of the
    run replans. -/
theorem alwaysClosed_iff (calls : List RevisionCall) :
    (∀ stages : List (Stage ExecutionBlueprint),
      AlwaysClosed (.ofPlan (plan stages)) calls ↔ Closed (plan stages) ∧
        ((∃ call ∈ calls, call.replans) → SurvivesRevision (plan stages))) ∧
    ∀ (L : Lower) (cognitiveState : CognitiveState),
      AlwaysClosed (.ofPlan (plan (defaultStages L cognitiveState))) calls ↔
        ∀ call ∈ calls, call.replans = false := by
  refine ⟨fun stages => alwaysClosed_of_blueprint _ calls, fun L cognitiveState => ?_⟩
  rw [alwaysClosed_of_blueprint]
  constructor
  · rintro ⟨-, hsurvives⟩ call hcall
    cases hreplans : call.replans with
    | false => rfl
    | true => exact absurd (hsurvives ⟨call, hcall, hreplans⟩) (plan_not_survives L cognitiveState)
  · intro h
    refine ⟨plan_closed L cognitiveState, fun ⟨call, hcall, hreplans⟩ => ?_⟩
    rw [h call hcall] at hreplans
    exact absurd hreplans (by decide)

/-! ## Revision numbers -/

/-- The numbers of the reports and of their blueprints agree, also in the planning version once
    there was a revision; they never decrease, and a revision is one more. -/
structure InStep (blueprint : RevisedBlueprint) (calls : List RevisionCall) : Prop where
  reported : ∀ report ∈ revisionReports blueprint calls,
    report.revisionNumber = report.revisedBlueprint.revisionNumber
  versioned : ∀ n, (∃ call ∈ calls.take n, call.replans) →
    ∀ version, (revised blueprint (calls.take n)).planningVersion = some version →
      version = toString (revised blueprint (calls.take n)).revisionNumber
  monotone : ∀ m n, m ≤ n →
    (revised blueprint (calls.take m)).revisionNumber ≤
      (revised blueprint (calls.take n)).revisionNumber
  increases : ∀ report ∈ revisionReports blueprint calls, report.replanningRequired →
    report.revisedBlueprint.revisionNumber = report.previousBlueprint.revisionNumber + 1

/-- A planned blueprint has the number 0, and its first revision the number 2. -/
theorem not_inStep_first :
    ¬ InStep (.ofPlan (plan (defaultStages Lower.asciiOnly {}))) [smoothCall (some "ACTIVE")] := by
  intro h
  have hreplans := replans_smoothCall (some "ACTIVE")
  have hrequired :=
    (report_of_replans (.ofPlan (plan (defaultStages Lower.asciiOnly {}))) hreplans).1
  have hnumber :=
    (numbers_of_replans (.ofPlan (plan (defaultStages Lower.asciiOnly {}))) hreplans).1
  have hone := h.increases _ (List.mem_singleton_self _) hrequired
  rw [hnumber, (report_keeps _ _).1] at hone
  exact absurd hone (by decide)

theorem mem_revisionReports {blueprint : RevisedBlueprint} {calls : List RevisionCall}
    {report : AdaptivePlanningReport} (h : report ∈ revisionReports blueprint calls) :
    ∃ call ∈ calls, ∃ n, report = call.report (revised blueprint (calls.take n)) := by
  induction calls generalizing blueprint with
  | nil => exact absurd h List.not_mem_nil
  | cons call calls ih =>
      rcases List.mem_cons.mp h with rfl | h
      · exact ⟨call, List.mem_cons_self, 0, rfl⟩
      · obtain ⟨later, hlater, n, rfl⟩ := ih h
        exact ⟨later, List.mem_cons_of_mem _ hlater, n + 1, rfl⟩

/-- Every replanning call counts the revision up by one, a blueprint that was never revised
    being revision 1. -/
theorem revisionNumber_revised (blueprint : RevisedBlueprint) (calls : List RevisionCall) :
    (revised blueprint calls).revisionNumber =
      if calls.any RevisionCall.replans then
        max 1 blueprint.revisionNumber + calls.countP RevisionCall.replans
      else blueprint.revisionNumber := by
  induction calls generalizing blueprint with
  | nil => rfl
  | cons call calls ih =>
      rw [revised_cons, ih, List.any_cons, List.countP_cons]
      cases hreplans : call.replans with
      | false =>
          obtain ⟨-, -, hnumber, -⟩ := report_of_not_replans blueprint hreplans
          simp only [hnumber, Bool.false_or, Bool.false_eq_true, if_false, Nat.add_zero]
      | true =>
          obtain ⟨hnumber, -⟩ := numbers_of_replans blueprint hreplans
          rw [hnumber, Bool.true_or, if_pos rfl, if_pos rfl]
          split
          · omega
          · next hnone =>
              have hcount : calls.countP RevisionCall.replans = 0 := by
                refine List.countP_eq_zero.mpr fun later hlater hlaterReplans => hnone ?_
                exact List.any_eq_true.mpr ⟨later, hlater, hlaterReplans⟩
              omega

theorem revisionNumber_mono (blueprint : RevisedBlueprint) (calls : List RevisionCall) {m n : ℕ}
    (h : m ≤ n) :
    (revised blueprint (calls.take m)).revisionNumber ≤
      (revised blueprint (calls.take n)).revisionNumber := by
  have hsublist : (calls.take m).Sublist (calls.take n) := (List.take_prefix_take_left h).sublist
  have hcount := hsublist.countP_le (p := RevisionCall.replans)
  have hany :
      (calls.take m).any RevisionCall.replans → (calls.take n).any RevisionCall.replans := by
    intro hm
    obtain ⟨call, hcall, hreplans⟩ := List.any_eq_true.mp hm
    exact List.any_eq_true.mpr ⟨call, hsublist.subset hcall, hreplans⟩
  rw [revisionNumber_revised, revisionNumber_revised]
  by_cases hm : (calls.take m).any RevisionCall.replans
  · rw [if_pos hm, if_pos (hany hm)]
    omega
  · rw [if_neg hm]
    split <;> omega

/-- What one report says of the numbers: a revision counts up, from 1 where there was none, and
    its number is also the one of its blueprint and in its planning version. -/
structure CountsUp (report : AdaptivePlanningReport) : Prop where
  reported : report.replanningRequired →
    report.revisionNumber = report.revisedBlueprint.revisionNumber
  versioned : report.replanningRequired → ∀ version,
    report.revisedBlueprint.planningVersion = some version →
      version = toString report.revisedBlueprint.revisionNumber
  increases : report.replanningRequired →
    report.revisedBlueprint.revisionNumber = max 1 report.previousBlueprint.revisionNumber + 1
  kept : ¬ report.replanningRequired →
    report.revisedBlueprint.revisionNumber = report.previousBlueprint.revisionNumber

theorem report_countsUp (call : RevisionCall) (previous : RevisedBlueprint) :
    CountsUp (call.report previous) := by
  have hprevious := (report_keeps previous call).1
  cases hreplans : call.replans with
  | false =>
      obtain ⟨hrequired, -, hnumber, -⟩ := report_of_not_replans previous hreplans
      refine ⟨?_, ?_, ?_, fun _ => by rw [hprevious, hnumber]⟩ <;> simp [hrequired]
  | true =>
      obtain ⟨hnumber, hreported, hversion, -⟩ := numbers_of_replans previous hreplans
      obtain ⟨hrequired, -⟩ := report_of_replans previous hreplans
      refine ⟨fun _ => hreported, fun _ version h => ?_, fun _ => by rw [hprevious, hnumber],
        fun h => absurd hrequired h⟩
      rw [hversion] at h
      obtain ⟨_, -, rfl⟩ := Option.map_eq_some_iff.mp h
      rfl

/-- **Revision numbers.** In every run each report counts up, and the numbers of the blueprints
    never decrease. -/
theorem revisions_numbered (blueprint : RevisedBlueprint) (calls : List RevisionCall) :
    (∀ report ∈ revisionReports blueprint calls, CountsUp report) ∧
      ∀ m n, m ≤ n → (revised blueprint (calls.take m)).revisionNumber ≤
        (revised blueprint (calls.take n)).revisionNumber := by
  refine ⟨fun report hreport => ?_, fun _ _ h => revisionNumber_mono blueprint calls h⟩
  obtain ⟨call, -, n, rfl⟩ := mem_revisionReports hreport
  exact report_countsUp call _

/-! ## Diffs and history -/

/-- The report explains its task graph: the removed tasks are taken out of the one before, and
    the added ones follow. -/
structure Explained (report : AdaptivePlanningReport) : Prop where
  tasks : report.revisedBlueprint.taskGraph =
    report.previousBlueprint.taskGraph.filter (· ∉ report.planDiff.removedTasks) ++
      report.planDiff.addedTasks
  removed : report.planDiff.removedTasks.Sublist report.previousBlueprint.taskGraph

/-- The identifiers that a report's revision leaves in the history. -/
def historyEntry (report : AdaptivePlanningReport) : Option (List String) :=
  if report.replanningRequired then some (taskIds report.previousBlueprint.toExecutionBlueprint)
  else none

theorem report_explained (call : RevisionCall) (previous : RevisedBlueprint) :
    Explained (call.report previous) := by
  have hprevious := (report_keeps previous call).1
  cases hreplans : call.replans with
  | false =>
      obtain ⟨-, htasks, -, -, hadded, hremoved⟩ := report_of_not_replans previous hreplans
      refine ⟨?_, ?_⟩
      · rw [htasks, hprevious, hadded, hremoved]
        simp
      · rw [hremoved]
        exact List.nil_sublist _
  | true =>
      obtain ⟨-, htasks, hadded, hremoved⟩ := report_of_replans previous hreplans
      refine ⟨?_, ?_⟩
      · rw [htasks, hprevious, hadded, hremoved, revisedTasks]
        congr 1
        -- A task of the blueprint is removed exactly if it is not preserved.
        refine List.filter_congr fun task htask => ?_
        cases hkept : preserved task <;> simp [htask, hkept]
      · rw [hremoved, hprevious]
        exact List.filter_sublist

theorem history_report (call : RevisionCall) (previous : RevisedBlueprint) :
    (call.report previous).revisedBlueprint.blueprintHistory.map BlueprintRevision.taskIds =
      previous.blueprintHistory.map BlueprintRevision.taskIds ++
        (historyEntry (call.report previous)).toList := by
  have hprevious := (report_keeps previous call).1
  cases hreplans : call.replans with
  | false =>
      obtain ⟨hrequired, -, -, hhistory, -⟩ := report_of_not_replans previous hreplans
      rw [hhistory]
      simp [historyEntry, hrequired]
  | true =>
      obtain ⟨-, -, -, hhistory⟩ := numbers_of_replans previous hreplans
      obtain ⟨hrequired, -⟩ := report_of_replans previous hreplans
      rw [hhistory, List.map_append]
      simp [historyEntry, hrequired, hprevious]

theorem history_revised (blueprint : RevisedBlueprint) (calls : List RevisionCall) :
    (revised blueprint calls).blueprintHistory.map BlueprintRevision.taskIds =
      blueprint.blueprintHistory.map BlueprintRevision.taskIds ++
        (revisionReports blueprint calls).filterMap historyEntry := by
  induction calls generalizing blueprint with
  | nil => simp [revised, revisionReports]
  | cons call calls ih =>
      rw [revised_cons, ih, history_report, revisionReports, List.append_assoc]
      congr 1
      cases hentry : historyEntry (call.report blueprint) with
      | none => rw [List.filterMap_cons_none hentry, Option.toList_none, List.nil_append]
      | some ids => rw [List.filterMap_cons_some hentry]; rfl

/-- Distinct tasks stay distinct: the inserted one is never preserved, so it replaces the one of
    the revision before. -/
theorem nodup_revised {blueprint : RevisedBlueprint}
    (hdistinct : (taskIds blueprint.toExecutionBlueprint).Nodup)
    (hfresh : "adaptive_1" ∉ taskIds blueprint.toExecutionBlueprint) (calls : List RevisionCall) :
    (taskIds (revised blueprint calls).toExecutionBlueprint).Nodup := by
  rw [taskIds, taskGraph_revised]
  split
  · rw [revisedTasks, List.map_append]
    have hsublist : ((blueprint.taskGraph.filter preserved).map PlannedTask.identifier).Sublist
        (taskIds blueprint.toExecutionBlueprint) := List.filter_sublist.map _
    refine List.Nodup.append (hdistinct.sublist hsublist) (List.nodup_singleton _) ?_
    rintro id hkept hnew
    rw [List.map_singleton, List.mem_singleton] at hnew
    rw [hnew] at hkept
    exact hfresh (hsublist.subset hkept)
  · exact hdistinct

/-- **Revisions are explained.** From distinct tasks, none of them `adaptive_1`, every blueprint
    of the run has distinct tasks, every report explains its task graph, and the history gets
    one entry for each replanning call, in order, with the identifiers of before the call. -/
theorem revisions_explained (blueprint : RevisedBlueprint) (calls : List RevisionCall)
    (hdistinct : (taskIds blueprint.toExecutionBlueprint).Nodup)
    (hfresh : "adaptive_1" ∉ taskIds blueprint.toExecutionBlueprint) :
    (∀ n, (taskIds (revised blueprint (calls.take n)).toExecutionBlueprint).Nodup) ∧
      (∀ report ∈ revisionReports blueprint calls, Explained report) ∧
      (revised blueprint calls).blueprintHistory.map BlueprintRevision.taskIds =
        blueprint.blueprintHistory.map BlueprintRevision.taskIds ++
          (revisionReports blueprint calls).filterMap historyEntry := by
  refine ⟨fun n => nodup_revised hdistinct hfresh _, fun report hreport => ?_,
    history_revised blueprint calls⟩
  obtain ⟨call, -, n, rfl⟩ := mem_revisionReports hreport
  exact report_explained call _

/-- Two revisions of a planned blueprint. -/
theorem revisions_explained_plan :
    (taskIds (plan (defaultStages Lower.asciiOnly {}))).Nodup ∧
      (revised (.ofPlan (plan (defaultStages Lower.asciiOnly {})))
        [smoothCall (some "ACTIVE"), smoothCall (some "ACTIVE")]).blueprintHistory.map
          BlueprintRevision.taskIds =
        (revisionReports (.ofPlan (plan (defaultStages Lower.asciiOnly {})))
          [smoothCall (some "ACTIVE"), smoothCall (some "ACTIVE")]).filterMap historyEntry :=
  ⟨by decide, (revisions_explained (.ofPlan (plan (defaultStages Lower.asciiOnly {})))
    [smoothCall (some "ACTIVE"), smoothCall (some "ACTIVE")] (by decide) (by decide)).2.2⟩

end AgentCorp.Runtime
