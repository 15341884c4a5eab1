/-
  Tasks: how a goal is split, how tasks are ordered, and how one task is updated.

  * `taskId_injective`: the identifiers `createTasks` makes are distinct.
  * `ordered_of_deadline`: tasks that share one deadline are sorted without an exception,
    whatever value the deadline has, and `readyTasks` is then the READY part of the sort.
  * `replaceTask_*`: what replacing the tasks of one identifier does to the identifiers and
    to the number of tasks in a state.
-/
import AgentCorp.Python.Text
import AgentCorp.Runtime.GoalManagement
import Mathlib.Data.List.Sort
import Mathlib.Data.Finset.Basic

namespace AgentCorp.Runtime

open AgentCorp.Python

inductive TaskLifecycleState where
  | created | ready | blocked | waiting | running | completed | failed | cancelled
  deriving DecidableEq, Repr

structure TaskDependency where
  taskId : String
  relation : String
  deriving DecidableEq, Repr

/-- `deadline` holds whatever the goal's metadata stores under that key. -/
structure TaskScheduleMetadata where
  earliestStart : Option String := none
  latestFinish : Option String := none
  deadline : PyValue := .none
  retryEligible : Bool := true
  estimatedDurationMinutes : Option Nat := none
  deriving DecidableEq, Repr

structure TaskMilestone where
  title : String
  description : Option String
  achieved : Bool
  achievedAt : Option String := none
  deriving DecidableEq, Repr

structure TaskReport where
  taskId : Option String
  goalId : Option Int
  parentTaskId : Option String
  childTaskIds : List String
  title : String
  description : Option String
  capability : String
  priority : GoalPriority
  status : TaskLifecycleState
  dependencies : List TaskDependency
  estimatedDurationMinutes : Option Nat
  schedule : TaskScheduleMetadata
  milestones : List TaskMilestone
  createdAt : String
  updatedAt : String
  completedAt : Option String
  metadata : PyDict
  deriving DecidableEq, Repr

/-! ## TaskQueue -/

/-- The rank table of `TaskQueue._ordered`. -/
def rank : GoalPriority → Nat
  | .urgent => 0
  | .high => 1
  | .medium => 2
  | .low => 3

/-- `task.schedule.deadline or "9999-12-31T23:59:59+00:00"`. -/
def deadlineKey (task : TaskReport) : PyValue :=
  if task.schedule.deadline.truthy then task.schedule.deadline
  else .str "9999-12-31T23:59:59+00:00"

/-- The lexicographic comparison of two sort keys of `TaskQueue._ordered`. `none` where it
    raises `TypeError`: only the deadlines can be of unordered classes, and they are compared
    only when the components before them are equal. -/
def keyCompare (a b : TaskReport) : Option Ordering :=
  match compare (decide (a.status ≠ .ready)) (decide (b.status ≠ .ready)) with
  | .eq =>
      match compare (rank a.priority) (rank b.priority) with
      | .eq =>
          match (deadlineKey a).cmp (deadlineKey b) with
          | some .eq =>
              some ((compare a.createdAt b.createdAt).then
                (compare (a.taskId.getD "") (b.taskId.getD "")))
          | o => o
      | o => some o
  | o => some o

/-- `a` may stay before `b` in a stable sort: `b` is not smaller. -/
def keyLe (a b : TaskReport) : Prop :=
  keyCompare b a ≠ some .lt

instance : DecidableRel keyLe :=
  fun _ _ => inferInstanceAs (Decidable (_ ≠ _))

/-- `TaskQueue._ordered`. A pair of keys that cannot be compared raises. -/
def ordered (tasks : List TaskReport) : Except Exn (List TaskReport) :=
  if ∀ a ∈ tasks, ∀ b ∈ tasks, (keyCompare a b).isSome then
    .ok (tasks.insertionSort keyLe)
  else .error (.typeError "'<' not supported between instances")

structure TaskQueueSnapshot where
  queueSize : Nat
  readyCount : Nat
  blockedCount : Nat
  completedCount : Nat
  withDependencies : Nat
  withoutDependencies : Nat
  taskPrioritySummary : List (GoalPriority × Nat)
  queuedTasks : List TaskReport
  deriving DecidableEq, Repr

/-- `TaskQueue._snapshot`. -/
def snapshot (tasks : List TaskReport) : TaskQueueSnapshot where
  queueSize := tasks.length
  readyCount := tasks.countP (·.status = .ready)
  blockedCount := tasks.countP (·.status = .blocked)
  completedCount := tasks.countP (·.status = .completed)
  withDependencies := tasks.countP (·.dependencies ≠ [])
  withoutDependencies := tasks.countP (·.dependencies = [])
  taskPrioritySummary := [.low, .medium, .high, .urgent].map fun priority =>
    (priority, tasks.countP (·.priority = priority))
  queuedTasks := tasks

/-- `TaskQueue.enqueue`: append, then sort again. -/
def enqueue (entries : List TaskReport) (task : TaskReport) : Except Exn (List TaskReport) :=
  ordered (entries ++ [task])

/-! ## TaskManager -/

/-- `{goal.goal_id or 'goal'}`. -/
def goalKey (goal : GoalReport) : String :=
  match goal.goalId with
  | some id => if id = 0 then "goal" else toString id
  | none => "goal"

def taskId (goal : GoalReport) (number : Nat) : String :=
  goalKey goal ++ "-task-" ++ toString number

/-- `max(1, min(3, len(goal.objective.split()) // 4 or 1))`. -/
def baseCount (goal : GoalReport) : Nat :=
  let quarter := (split goal.objective).length / 4
  max 1 (min 3 (if quarter = 0 then 1 else quarter))

/-- The task that `TaskManager.create_tasks` makes for one index. -/
def createTask (createdAt : Instant) (goal : GoalReport) (index : Nat) : TaskReport where
  taskId := some (taskId goal (index + 1))
  goalId := goal.goalId
  parentTaskId := none
  childTaskIds := []
  title := goal.title ++ " - Step " ++ toString (index + 1)
  description := some (if index = 0 then goal.objective else "Continue: " ++ goal.objective)
  capability := if index = 0 then "analysis" else "planning"
  priority := goal.priority
  status := if index = 0 then .ready else .blocked
  dependencies := if 0 < index then [⟨taskId goal index, "prerequisite"⟩] else []
  estimatedDurationMinutes := some (15 + index * 10)
  schedule :=
    { earliestStart := some createdAt.isoformat
      deadline := goal.metadata.get "deadline"
      estimatedDurationMinutes := some (15 + index * 10) }
  milestones := []
  createdAt := createdAt.isoformat
  updatedAt := createdAt.isoformat
  completedAt := none
  metadata := Dict.merge [("goal_objective", .str goal.objective)] goal.metadata

def createTasks (createdAt : Instant) (goal : GoalReport) : List TaskReport :=
  (List.range (baseCount goal)).map (createTask createdAt goal)

def splitGoal (createdAt : Instant) (goal : GoalReport) : List TaskReport :=
  createTasks createdAt goal

/-- `TaskManager.update_task`. The clock is read for `updated_at`, then for `completed_at`. -/
def updateTask (clock : Clock) (task : TaskReport) (status : Option TaskLifecycleState)
    (metadata : PyDict) : TaskReport :=
  { task with
    status := status.getD task.status
    updatedAt := (clock 0).isoformat
    completedAt := if status = some .completed then some (clock 1).isoformat else task.completedAt
    metadata := task.metadata.merge metadata }

def completeTask (clock : Clock) (task : TaskReport) : TaskReport :=
  updateTask clock task (some .completed) []

def cancelTask (clock : Clock) (task : TaskReport) : TaskReport :=
  updateTask clock task (some .cancelled) []

def prioritizeTasks (tasks : List TaskReport) : Except Exn (List TaskReport) :=
  ordered tasks

def validateDependencies (task : TaskReport) (completedTaskIds : Finset String) : Bool :=
  task.dependencies.all fun dep => dep.taskId ∈ completedTaskIds

def readyTasks (tasks : List TaskReport) : Except Exn (List TaskReport) :=
  (prioritizeTasks tasks).map fun sorted => sorted.filter (·.status = .ready)

def queueSnapshot (tasks : List TaskReport) : Except Exn TaskQueueSnapshot :=
  (tasks.foldlM enqueue []).map snapshot

/-- `[f(task) if task.task_id == id else task for task in tasks]`. -/
def replaceTask (id : Option String) (f : TaskReport → TaskReport) (tasks : List TaskReport) :
    List TaskReport :=
  tasks.map fun task => if task.taskId = id then f task else task

/-! ## Identifiers -/

theorem taskId_injective (goal : GoalReport) : Function.Injective (taskId goal) := by
  intro m n h
  have hlist := congrArg String.toList h
  simp only [taskId, String.toList_append, List.append_cancel_left_eq] at hlist
  exact toString_nat_inj hlist

theorem baseCount_pos (goal : GoalReport) : 1 ≤ baseCount goal :=
  Nat.le_max_left _ _

/-- One task up to seven words, two up to eleven, three from then on. -/
theorem baseCount_eq_one_iff (goal : GoalReport) :
    baseCount goal = 1 ↔ (split goal.objective).length < 8 := by
  simp only [baseCount]
  split <;> omega

theorem splitGoal_nodup (createdAt : Instant) (goal : GoalReport) :
    ((splitGoal createdAt goal).map TaskReport.taskId).Nodup := by
  have hids : (splitGoal createdAt goal).map TaskReport.taskId =
      (List.range (baseCount goal)).map fun index => some (taskId goal (index + 1)) := by
    simp [splitGoal, createTasks, createTask, Function.comp_def]
  rw [hids]
  refine (List.nodup_map_iff fun m n h => ?_).mpr List.nodup_range
  have := taskId_injective goal (Option.some.inj h)
  omega

theorem mem_splitGoal_deadline {createdAt : Instant} {goal : GoalReport} {task : TaskReport}
    (h : task ∈ splitGoal createdAt goal) :
    task.schedule.deadline = goal.metadata.get "deadline" := by
  obtain ⟨index, -, rfl⟩ := List.mem_map.mp h
  rfl

/-- A fresh task is READY or BLOCKED. -/
theorem mem_splitGoal_status {createdAt : Instant} {goal : GoalReport} {task : TaskReport}
    (h : task ∈ splitGoal createdAt goal) : task.status = .ready ∨ task.status = .blocked := by
  obtain ⟨index, -, rfl⟩ := List.mem_map.mp h
  simp only [createTask]
  split
  · exact Or.inl rfl
  · exact Or.inr rfl

/-! ## Sorting tasks that share a deadline -/

theorem keyCompare_isSome {a b : TaskReport} (h : a.schedule.deadline = b.schedule.deadline) :
    (keyCompare a b).isSome := by
  have hkey : deadlineKey a = deadlineKey b := by simp only [deadlineKey, h]
  simp only [keyCompare, hkey, PyValue.cmp_self]
  split
  · split <;> rfl
  · rfl

/-- Tasks with one common deadline are sorted without an exception, whatever it is. -/
theorem ordered_of_deadline {tasks : List TaskReport} {deadline : PyValue}
    (h : ∀ task ∈ tasks, task.schedule.deadline = deadline) :
    ordered tasks = .ok (tasks.insertionSort keyLe) := by
  refine if_pos fun a ha b hb => keyCompare_isSome ?_
  rw [h a ha, h b hb]

theorem readyTasks_of_deadline {tasks : List TaskReport} {deadline : PyValue}
    (h : ∀ task ∈ tasks, task.schedule.deadline = deadline) :
    readyTasks tasks = .ok ((tasks.insertionSort keyLe).filter (·.status = .ready)) := by
  simp only [readyTasks, prioritizeTasks, ordered_of_deadline h]
  rfl

/-- Enqueueing such tasks one by one raises nothing either. -/
theorem foldlM_enqueue {tasks : List TaskReport} {deadline : PyValue}
    (h : ∀ task ∈ tasks, task.schedule.deadline = deadline) :
    ∃ queue, queue.Perm tasks ∧ tasks.foldlM enqueue [] = .ok queue := by
  -- `entries` is the queue so far: a permutation of the tasks already enqueued.
  have key : ∀ (rest entries : List TaskReport),
      (∀ task ∈ entries ++ rest, task.schedule.deadline = deadline) →
      ∃ queue, queue.Perm (entries ++ rest) ∧ rest.foldlM enqueue entries = .ok queue := by
    intro rest
    induction rest with
    | nil => intro entries _; exact ⟨entries, by simp, rfl⟩
    | cons task rest ih =>
        intro entries hd
        have hsort : enqueue entries task = .ok ((entries ++ [task]).insertionSort keyLe) :=
          ordered_of_deadline fun t ht => hd t (by simp at ht ⊢; tauto)
        have hperm := List.perm_insertionSort keyLe (entries ++ [task])
        have hall : ((entries ++ [task]).insertionSort keyLe ++ rest).Perm
            (entries ++ task :: rest) := by
          simpa using hperm.append_right rest
        obtain ⟨queue, hq, hrun⟩ := ih _ fun t ht => hd t (hall.mem_iff.mp ht)
        refine ⟨queue, hq.trans hall, ?_⟩
        rw [List.foldlM_cons, hsort]
        exact hrun
  simpa using key tasks [] (by simpa using h)

/-- The queue snapshot of such tasks is taken over the same tasks, in queue order. -/
theorem queueSnapshot_of_deadline {tasks : List TaskReport} {deadline : PyValue}
    (h : ∀ task ∈ tasks, task.schedule.deadline = deadline) :
    ∃ queue, queue.Perm tasks ∧ queueSnapshot tasks = .ok (snapshot queue) := by
  obtain ⟨queue, hq, hrun⟩ := foldlM_enqueue h
  exact ⟨queue, hq, by rw [queueSnapshot, hrun]; rfl⟩

/-! ## Updating one task -/

section Update

variable (clock : Clock) (task : TaskReport) (status : TaskLifecycleState) (metadata : PyDict)

@[simp] theorem updateTask_status :
    (updateTask clock task (some status) metadata).status = status := rfl

@[simp] theorem updateTask_taskId :
    (updateTask clock task (some status) metadata).taskId = task.taskId := rfl

@[simp] theorem updateTask_deadline :
    (updateTask clock task (some status) metadata).schedule = task.schedule := rfl

@[simp] theorem updateTask_dependencies :
    (updateTask clock task (some status) metadata).dependencies = task.dependencies := rfl

end Update

theorem replaceTask_ids {id : Option String} {f : TaskReport → TaskReport}
    {tasks : List TaskReport} (hf : ∀ task ∈ tasks, task.taskId = id → (f task).taskId = id) :
    (replaceTask id f tasks).map TaskReport.taskId = tasks.map TaskReport.taskId := by
  simp only [replaceTask, List.map_map]
  refine List.map_congr_left fun task htask => ?_
  simp only [Function.comp_apply]
  split
  · next h => rw [hf task htask h, h]
  · rfl

/-- Tasks with distinct identifiers are told apart by them. -/
theorem eq_of_taskId {tasks : List TaskReport} (hnd : (tasks.map TaskReport.taskId).Nodup)
    {a b : TaskReport} (ha : a ∈ tasks) (hb : b ∈ tasks) (h : a.taskId = b.taskId) : a = b :=
  List.inj_on_of_nodup_map hnd ha hb h

theorem mem_replaceTask_of_ne {id : Option String} {f : TaskReport → TaskReport}
    {tasks : List TaskReport} {task : TaskReport} (h : task ∈ tasks) (hne : task.taskId ≠ id) :
    task ∈ replaceTask id f tasks :=
  List.mem_map.mpr ⟨task, h, if_neg hne⟩

/-- A task of the new list is an old one under another identifier, or the image of one. -/
theorem mem_replaceTask {id : Option String} {f : TaskReport → TaskReport}
    {tasks : List TaskReport} {task : TaskReport} (h : task ∈ replaceTask id f tasks) :
    (task ∈ tasks ∧ task.taskId ≠ id) ∨ ∃ old ∈ tasks, old.taskId = id ∧ f old = task := by
  obtain ⟨old, hold, rfl⟩ := List.mem_map.mp h
  by_cases hid : old.taskId = id
  · exact Or.inr ⟨old, hold, hid, (if_pos hid).symm⟩
  · rw [if_neg hid]
    exact Or.inl ⟨hold, hid⟩

theorem replaceTask_eq_self {id : Option String} {f : TaskReport → TaskReport}
    {tasks : List TaskReport} (h : id ∉ tasks.map TaskReport.taskId) :
    replaceTask id f tasks = tasks := by
  have hself : tasks.map (fun task => if task.taskId = id then f task else task) =
      tasks.map (fun task => task) := by
    refine List.map_congr_left fun task htask => if_neg fun hid => h ?_
    exact List.mem_map.mpr ⟨task, htask, hid⟩
  rw [replaceTask, hself, List.map_id']

/-- Replacing one of several tasks with distinct identifiers moves exactly that task from
    the count of a property to the count of another. -/
theorem countP_replaceTask (p : TaskReport → Bool) {f : TaskReport → TaskReport}
    {tasks : List TaskReport} {active : TaskReport}
    (hnd : (tasks.map TaskReport.taskId).Nodup) (hmem : active ∈ tasks) :
    (replaceTask active.taskId f tasks).countP p + (if p active then 1 else 0) =
      tasks.countP p + (if p (f active) then 1 else 0) := by
  induction tasks with
  | nil => simp at hmem
  | cons task tasks ih =>
      rw [List.map_cons, List.nodup_cons] at hnd
      obtain ⟨hout, hnd⟩ := hnd
      rcases List.mem_cons.mp hmem with rfl | hmem
      · have hrest := replaceTask_eq_self (f := f) hout
        simp only [replaceTask] at hrest
        simp only [replaceTask, List.map_cons, if_pos, hrest, List.countP_cons]
        omega
      · have hne : task.taskId ≠ active.taskId := fun h =>
          hout (h ▸ List.mem_map.mpr ⟨active, hmem, rfl⟩)
        have hrest := ih hnd hmem
        simp only [replaceTask] at hrest
        simp only [replaceTask, List.map_cons, if_neg hne, List.countP_cons]
        omega

end AgentCorp.Runtime
