/-
  The chain of tasks that `build_execution_tasks` makes of a list of required capabilities.

  Every task depends on the one before it and on nothing else, so that the identifiers are
  the only thing that can go wrong.

  * `linked_capabilityTasks`: the dependencies are those of a chain.
  * `nodup_taskIds`: the identifiers are distinct, the one of the provider task included.
  * `Linked.ordered`, `Linked.connected`: what a chain of tasks gives.
  * `capabilityTasks_wellFormed`: the tasks of any non-empty list are a well-formed chain.
-/
import AgentCorp.Runtime.Execution
import Mathlib.Data.List.Chain
import Mathlib.Logic.Relation

namespace AgentCorp.Runtime

open AgentCorp.Python Relation

/-! ## Chains of tasks -/

/-- `task` depends on `earlier`, and on nothing else. -/
def DependsOnlyOn (earlier task : ExecutionTask) : Prop :=
  task.dependencies = [earlier.taskId]

/-- The first task depends on nothing, every other one on the task before it alone. -/
structure Linked (tasks : List ExecutionTask) : Prop where
  head : ∀ task ∈ tasks.head?, task.dependencies = []
  chain : tasks.IsChain DependsOnlyOn

/-- One step along the dependencies of a task, within the list. -/
def DependsIn (tasks : List ExecutionTask) (task earlier : ExecutionTask) : Prop :=
  earlier ∈ tasks ∧ earlier.taskId ∈ task.dependencies

namespace Linked

variable {tasks : List ExecutionTask}

/-- What a task depends on stands before it. -/
theorem ordered (h : Linked tasks) {before after : List ExecutionTask} {task : ExecutionTask}
    (htasks : tasks = before ++ task :: after) {dependency : String}
    (hdependency : dependency ∈ task.dependencies) :
    ∃ earlier ∈ before, earlier.taskId = dependency := by
  subst htasks
  rcases List.eq_nil_or_concat before with rfl | ⟨init, previous, rfl⟩
  · have hnone := h.head task rfl
    simp [hnone] at hdependency
  · have hchain := h.chain
    rw [List.concat_eq_append, List.append_assoc, List.singleton_append,
      List.isChain_append_cons_cons] at hchain
    have honly : task.dependencies = [previous.taskId] := hchain.2.1
    rw [honly, List.mem_singleton] at hdependency
    exact ⟨previous, by simp, hdependency.symm⟩

/-- Every task is reached from the last one. -/
theorem connected (h : Linked tasks) {last : ExecutionTask} (hlast : tasks.getLast? = some last) :
    ∀ task ∈ tasks, ReflTransGen (DependsIn tasks) last task := by
  refine (List.IsChain.iff_mem.mp h.chain).backwards_induction _ tasks ?_ fun hne => ?_
  · intro earlier task hlink hreach
    obtain ⟨hmem, -, honly⟩ := hlink
    have hstep : DependsIn tasks task earlier :=
      ⟨hmem, by rw [show task.dependencies = [earlier.taskId] from honly]; simp⟩
    exact hreach.tail hstep
  · rw [List.getLast?_eq_some_getLast hne, Option.some.injEq] at hlast
    rw [hlast]

/-- A chain goes on with a task that depends on its last one. -/
theorem concat (h : Linked tasks) {last task : ExecutionTask} (hlast : tasks.getLast? = some last)
    (hlink : DependsOnlyOn last task) : Linked (tasks ++ [task]) where
  head first hfirst := by
    have hne : tasks ≠ [] := by
      rintro rfl
      simp at hlast
    rw [List.head?_append_of_ne_nil _ hne] at hfirst
    exact h.head first hfirst
  chain := by
    refine List.isChain_append.mpr ⟨h.chain, List.isChain_singleton _, ?_⟩
    intro x hx y hy
    rw [hlast, Option.mem_some] at hx
    rw [List.head?_cons, Option.mem_some] at hy
    rw [← hx, ← hy]
    exact hlink

end Linked

/-! ## The tasks of a list -/

section Tasks

variable (L : Lower) (blueprint : ExecutionBlueprint)

/-- The tasks of the names, the first of which has the given index. -/
def namedTasks (names : List String) (start : Nat) : List ExecutionTask :=
  (names.zipIdx start).map fun (name, index) => capabilityTask L blueprint name index

@[simp] theorem namedTasks_nil (start : Nat) : namedTasks L blueprint [] start = [] :=
  rfl

@[simp] theorem namedTasks_cons (name : String) (names : List String) (start : Nat) :
    namedTasks L blueprint (name :: names) start =
      capabilityTask L blueprint name start :: namedTasks L blueprint names (start + 1) :=
  rfl

theorem isChain_namedTasks (names : List String) (start : Nat) :
    (namedTasks L blueprint names start).IsChain DependsOnlyOn := by
  induction names generalizing start with
  | nil => exact List.isChain_nil
  | cons name names ih =>
      rw [namedTasks_cons, List.isChain_cons]
      refine ⟨?_, ih (start + 1)⟩
      intro next hnext
      match names with
      | [] => simp at hnext
      | following :: _ =>
          rw [namedTasks_cons, List.head?_cons, Option.mem_some] at hnext
          rw [← hnext]
          have hindex : 0 < start + 1 := by omega
          rw [DependsOnlyOn, capabilityTask, capabilityTask, if_pos hindex]

/-- The first task of a run has the index 0, which has no dependencies. -/
theorem linked_namedTasks (names : List String) : Linked (namedTasks L blueprint names 0) where
  head task htask := by
    match names with
    | [] => simp at htask
    | name :: _ =>
        rw [namedTasks_cons, List.head?_cons, Option.mem_some] at htask
        rw [← htask]
        rfl
  chain := isChain_namedTasks L blueprint names 0

theorem taskIds_namedTasks (names : List String) (start : Nat) :
    (namedTasks L blueprint names start).map ExecutionTask.taskId =
      (List.range' (start + 1) names.length).map capabilityId := by
  induction names generalizing start with
  | nil => rfl
  | cons name names ih =>
      rw [namedTasks_cons, List.map_cons, ih, List.length_cons, List.range'_succ, List.map_cons]
      rfl

theorem capabilities_namedTasks (names : List String) (start : Nat) :
    (namedTasks L blueprint names start).map ExecutionTask.requiredCapability =
      names.map L.lower := by
  induction names generalizing start with
  | nil => rfl
  | cons name names ih =>
      rw [namedTasks_cons, List.map_cons, ih, List.map_cons]
      rfl

/-- The last task has the number of the names. -/
theorem getLast?_namedTasks {names : List String} (hne : names ≠ []) (start : Nat) :
    ∃ last, (namedTasks L blueprint names start).getLast? = some last ∧
      last.taskId = capabilityId (start + names.length) := by
  obtain ⟨init, name, rfl⟩ := List.eq_nil_or_concat' names |>.resolve_left hne
  refine ⟨capabilityTask L blueprint name (start + init.length), ?_, ?_⟩
  · simp [namedTasks, List.zipIdx_append]
  · rw [List.length_append, List.length_singleton, ← Nat.add_assoc]
    rfl

theorem capabilityTasks_eq :
    capabilityTasks L blueprint =
      if "provider" ∈ blueprint.requiredRuntimeCapabilities.map L.lower then
        namedTasks L blueprint blueprint.requiredRuntimeCapabilities 0
      else namedTasks L blueprint blueprint.requiredRuntimeCapabilities 0 ++
        [providerTask blueprint blueprint.requiredRuntimeCapabilities.length] := by
  have hany : (namedTasks L blueprint blueprint.requiredRuntimeCapabilities 0).any
      (·.requiredCapability = "provider") = true ↔
        "provider" ∈ blueprint.requiredRuntimeCapabilities.map L.lower := by
    rw [← capabilities_namedTasks L blueprint _ 0]
    simp
  exact if_congr hany rfl rfl

variable {blueprint}

/-- The provider task goes on the chain of the named ones. -/
theorem linked_capabilityTasks (hne : blueprint.requiredRuntimeCapabilities ≠ []) :
    Linked (capabilityTasks L blueprint) := by
  have hnamed := linked_namedTasks L blueprint blueprint.requiredRuntimeCapabilities
  obtain ⟨last, hlast, hid⟩ := getLast?_namedTasks L blueprint hne 0
  rw [capabilityTasks_eq]
  split
  · exact hnamed
  · refine hnamed.concat hlast ?_
    rw [Nat.zero_add] at hid
    rw [DependsOnlyOn, hid]
    rfl

/-! ## The identifiers -/

/-- The identifiers of the named tasks end in digits. -/
theorem provider_ne_capabilityId (number : Nat) : "capability_provider" ≠ capabilityId number := by
  intro h
  have hlist := congrArg String.toList h
  have hsplit : "capability_provider".toList =
      "capability_".toList ++ ['p', 'r', 'o', 'v', 'i', 'd', 'e', 'r'] := by decide
  simp only [capabilityId, String.toList_append, hsplit, List.append_cancel_left_eq] at hlist
  have hdigits : (toString number).toList = Nat.toDigits 10 number := Nat.toList_repr
  have hmem : 'p' ∈ Nat.toDigits 10 number := by
    rw [← hdigits, ← hlist]
    simp
  have hdigit := Nat.isDigit_of_mem_toDigits (by omega) (by omega) hmem
  exact absurd hdigit (by decide)

theorem nodup_taskIds (blueprint : ExecutionBlueprint) :
    ((capabilityTasks L blueprint).map ExecutionTask.taskId).Nodup := by
  have hnamed : ((namedTasks L blueprint blueprint.requiredRuntimeCapabilities 0).map
      ExecutionTask.taskId).Nodup := by
    rw [taskIds_namedTasks]
    exact List.Nodup.map capabilityId_injective (List.nodup_range' ..)
  rw [capabilityTasks_eq]
  split
  · exact hnamed
  · rw [List.map_append, List.nodup_append]
    refine ⟨hnamed, List.nodup_singleton _, ?_⟩
    intro id hid provider hprovider hsame
    rw [List.map_singleton, List.mem_singleton] at hprovider
    rw [taskIds_namedTasks, List.mem_map] at hid
    obtain ⟨number, -, hnumber⟩ := hid
    exact provider_ne_capabilityId number ((hprovider.symm.trans hsame.symm).trans hnumber.symm)

/-! ## Well-formed chains -/

/-- What a task says of the capability that it was made for. -/
def requestOf (task : ExecutionTask) : PyValue × String :=
  (task.executionMetadata.get "capability_name", task.requiredCapability)

/-- The task was made for one of the required capabilities. -/
def Requested (task : ExecutionTask) : Prop :=
  task.executionMetadata.get "source" = .str "required_runtime_capabilities"

instance : DecidablePred Requested :=
  fun _ => inferInstanceAs (Decidable (_ = _))

/-- The tasks of a run are a chain that serves the required capabilities. -/
structure WellFormedChain (names : List String) (tasks : List ExecutionTask) : Prop where
  distinct : (tasks.map ExecutionTask.taskId).Nodup
  ordered : ∀ {before after : List ExecutionTask} {task}, tasks = before ++ task :: after →
    ∀ dependency ∈ task.dependencies, ∃ earlier ∈ before, earlier.taskId = dependency
  /-- One task for each requested capability, in list order. -/
  requested : (tasks.filter Requested).map requestOf =
    names.map fun name => (.str name, L.lower name)
  provider : ∃ task ∈ tasks, task.requiredCapability = "provider"
  connected : ∀ last, tasks.getLast? = some last →
    ∀ task ∈ tasks, ReflTransGen (DependsIn tasks) last task

/-- The named tasks are made for the names, the provider task is made for none. -/
theorem requested_namedTasks (blueprint : ExecutionBlueprint) (names : List String)
    (start : Nat) :
    ((namedTasks L blueprint names start).filter Requested).map requestOf =
      names.map fun name => (.str name, L.lower name) := by
  induction names generalizing start with
  | nil => rfl
  | cons name names ih =>
      have hfirst : Requested (capabilityTask L blueprint name start) := rfl
      rw [namedTasks_cons, List.filter_cons_of_pos (by simpa using hfirst), List.map_cons, ih,
        List.map_cons]
      rfl

theorem not_requested_providerTask (blueprint : ExecutionBlueprint) (count : Nat) :
    ¬ Requested (providerTask blueprint count) := by
  have hsource : (providerTask blueprint count).executionMetadata.get "source" =
      .str "final_response" := rfl
  simp [Requested, hsource]

theorem requested_capabilityTasks (blueprint : ExecutionBlueprint) :
    ((capabilityTasks L blueprint).filter Requested).map requestOf =
      blueprint.requiredRuntimeCapabilities.map fun name => (.str name, L.lower name) := by
  rw [capabilityTasks_eq]
  split
  · exact requested_namedTasks L blueprint _ 0
  · have hprovider : ([providerTask blueprint blueprint.requiredRuntimeCapabilities.length].filter
        Requested) = [] := by
      simp [not_requested_providerTask]
    rw [List.filter_append, hprovider, List.append_nil]
    exact requested_namedTasks L blueprint _ 0

theorem capabilityTasks_wellFormed (hne : blueprint.requiredRuntimeCapabilities ≠ []) :
    WellFormedChain L blueprint.requiredRuntimeCapabilities (capabilityTasks L blueprint) where
  distinct := nodup_taskIds L blueprint
  ordered htasks _ hdependency :=
    (linked_capabilityTasks L hne).ordered htasks hdependency
  requested := requested_capabilityTasks L blueprint
  provider := exists_provider L blueprint
  connected _ hlast := (linked_capabilityTasks L hne).connected hlast

end Tasks

/-- The tasks of a non-empty list of required capabilities are a well-formed chain. -/
theorem buildExecutionTasks_wellFormed (L : Lower) (blueprint : ExecutionBlueprint)
    (hne : blueprint.requiredRuntimeCapabilities ≠ []) :
    WellFormedChain L blueprint.requiredRuntimeCapabilities (buildExecutionTasks L blueprint) := by
  rw [buildExecutionTasks, if_pos hne]
  exact capabilityTasks_wellFormed L hne

theorem buildExecutionTasks_wellFormed_repeated :
    WellFormedChain Lower.asciiOnly ["Memory", "memory"]
      (buildExecutionTasks Lower.asciiOnly
        { requiredRuntimeCapabilities := ["Memory", "memory"] }) :=
  buildExecutionTasks_wellFormed Lower.asciiOnly
    { requiredRuntimeCapabilities := ["Memory", "memory"] } (by decide)

end AgentCorp.Runtime
