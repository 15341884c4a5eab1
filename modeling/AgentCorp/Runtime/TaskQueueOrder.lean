/-
  The order of a task queue over a run of `enqueue`, `dequeue` and `reorder`.

  The code sorts by five components, of which one is the deadline as a text. The order that is
  meant takes the instant of the deadline in its place (`dueKey`), an absent one last. How texts
  are read as instants is a parameter; `isoInstant` is the reading of ISO 8601.

  Proved, for every run over deadlines that are absent or stand for an instant:
  * `ordered_eq_sorted`: the queue is ranked by the five components with the texts.
  * `staysInDueOrder_iff`: the queue is in the order that is meant, and is what came and did not
    go, in every state exactly if it is so at first and every step of the run keeps the two
    orders together: a task that comes is on the same side of each queued one in both, and a
    reordering is of the queued tasks.
  * `agree_of_deadlines`: two tasks are, where the texts of their deadlines are in the order of
    the instants.
-/
import AgentCorp.Lib.GuardedRun
import AgentCorp.Lib.Ranking
import AgentCorp.Python.Timestamps
import AgentCorp.Runtime.TaskManagement
import Mathlib.Data.Prod.Lex
import Mathlib.Data.String.Basic
import Mathlib.Order.OrderDual
import Mathlib.Order.WithBot
import Mathlib.Tactic.NormNum

namespace AgentCorp.Runtime

open AgentCorp.Python GuardedRun Ranking PriorityChoice

/-! ## The operations -/

/-- `TaskQueue.dequeue`: the task that is returned, and the entries that are left. -/
def dequeue : List TaskReport → Option TaskReport × List TaskReport
  | [] => (none, [])
  | task :: entries => (some task, entries)

/-- `TaskQueue.reorder`: the tasks given take the place of the entries. -/
def reorder (tasks : List TaskReport) : Except Exn (List TaskReport) :=
  ordered tasks

/-- The operations that change the entries. -/
inductive QueueOp where
  | enqueue (task : TaskReport)
  | dequeue
  | reorder (tasks : List TaskReport)
  deriving Repr

/-- A queue, with the tasks that were put in and those that were returned. -/
structure QueueState where
  entries : List TaskReport := []
  enqueued : List TaskReport := []
  dequeued : List TaskReport := []
  deriving DecidableEq, Repr

def QueueState.step (queue : QueueState) : QueueOp → Except Exn QueueState
  | .enqueue task => (enqueue queue.entries task).map fun entries =>
      { queue with entries, enqueued := queue.enqueued ++ [task] }
  | .dequeue =>
      let (task, entries) := dequeue queue.entries
      .ok { queue with entries, dequeued := queue.dequeued ++ task.toList }
  | .reorder tasks => (reorder tasks).map fun entries => { queue with entries }

/-- The queue after one operation more of a run. -/
def queueStep (queue : Except Exn QueueState) (op : QueueOp) : Except Exn QueueState :=
  queue >>= fun queue => queue.step op

/-! ## Two orders -/

section Keys

variable {δ : Type}

/-- The five components of the sort key, the deadline in a form that is left open. -/
def sortKey (deadline : TaskReport → δ) (task : TaskReport) :
    Bool ×ₗ ℕ ×ₗ δ ×ₗ String ×ₗ String :=
  toLex (decide (task.status ≠ .ready), toLex (rank task.priority,
    toLex (deadline task, toLex (task.createdAt, task.taskId.getD ""))))

variable [LinearOrder δ] {deadline : TaskReport → δ} {a b : TaskReport}

theorem sortKey_le_iff :
    sortKey deadline a ≤ sortKey deadline b ↔
      decide (a.status ≠ .ready) < decide (b.status ≠ .ready) ∨
      decide (a.status ≠ .ready) = decide (b.status ≠ .ready) ∧
        (rank a.priority < rank b.priority ∨ rank a.priority = rank b.priority ∧
          (deadline a < deadline b ∨ deadline a = deadline b ∧
            (a.createdAt < b.createdAt ∨ a.createdAt = b.createdAt ∧
              a.taskId.getD "" ≤ b.taskId.getD ""))) := by
  simp only [sortKey, Prod.Lex.toLex_le_toLex]

/-- Tasks that differ in nothing else are ordered by the deadline. -/
theorem sortKey_le_iff_deadline (hstatus : a.status = b.status)
    (hpriority : a.priority = b.priority) (hcreated : a.createdAt = b.createdAt)
    (hid : a.taskId = b.taskId) :
    sortKey deadline a ≤ sortKey deadline b ↔ deadline a ≤ deadline b := by
  rw [sortKey_le_iff, hstatus, hpriority, hcreated, hid, le_iff_lt_or_eq (a := deadline a)]
  simp

end Keys

/-- The text by which the code compares the deadline. -/
def deadlineText (task : TaskReport) : String :=
  match deadlineKey task with
  | .str text => text
  | _ => ""

def textKey : TaskReport → Bool ×ₗ ℕ ×ₗ String ×ₗ String ×ₗ String :=
  sortKey deadlineText

section Order

variable (instant : String → Option ℚ)

/-- The instant of the deadline, none last. -/
def dueInstant (task : TaskReport) : WithTop ℚ :=
  match task.schedule.deadline with
  | .str text => instant text
  | _ => ⊤

def dueKey : TaskReport → Bool ×ₗ ℕ ×ₗ WithTop ℚ ×ₗ String ×ₗ String :=
  sortKey (dueInstant instant)

/-- The deadline is absent or a text that stands for an instant. -/
def Timed (task : TaskReport) : Prop :=
  task.schedule.deadline = .none ∨
    ∃ text, task.schedule.deadline = .str text ∧ text ≠ "" ∧ (instant text).isSome

def QueueOp.Timed : QueueOp → Prop
  | .enqueue task => Runtime.Timed instant task
  | .dequeue => True
  | .reorder tasks => ∀ task ∈ tasks, Runtime.Timed instant task

/-- `dequeue` returns a least entry and takes it out. -/
def TakesLeast (entries : List TaskReport) : Prop :=
  match dequeue entries with
  | (none, rest) => entries = [] ∧ rest = []
  | (some task, rest) =>
      entries.Perm (task :: rest) ∧ ∀ other ∈ entries, dueKey instant task ≤ dueKey instant other

/-- The entries are what came and did not go, in the order that is meant. -/
structure InDueOrder (queue : QueueState) : Prop where
  conserved : (queue.entries ++ queue.dequeued).Perm queue.enqueued
  sorted : queue.entries.Pairwise fun a b => dueKey instant a ≤ dueKey instant b
  least : TakesLeast instant queue.entries

/-- Nothing was raised, and the queue is in order. -/
def StaysInDueOrder (queue : Except Exn QueueState) : Prop :=
  ∃ state, queue = .ok state ∧ InDueOrder instant state

/-- Of two tasks, `a` the earlier one in the list, the texts put first the one that is due
    first. -/
def Agree (a b : TaskReport) : Prop :=
  if textKey a ≤ textKey b then dueKey instant a ≤ dueKey instant b
  else dueKey instant b ≤ dueKey instant a

/-- What one operation has to be given in a state of the queue. -/
def QueueOp.Fits (state : QueueState) : QueueOp → Prop
  | .enqueue task => ∀ entry ∈ state.entries, Agree instant entry task
  | .dequeue => True
  | .reorder tasks => tasks.Perm state.entries ∧ tasks.Pairwise (Agree instant)

def KeepsOrder (queue : Except Exn QueueState) (op : QueueOp) : Prop :=
  ∀ state, queue = .ok state → op.Fits instant state

end Order

/-! ## The sort is by the texts -/

/-- Comparing two keys is comparing their components in turn. -/
theorem keyCompare_eq {a b : TaskReport} (ha : deadlineKey a = .str (deadlineText a))
    (hb : deadlineKey b = .str (deadlineText b)) :
    keyCompare a b = some ((compare (decide (a.status ≠ .ready)) (decide (b.status ≠ .ready))).then
      ((compare (rank a.priority) (rank b.priority)).then
        ((compare (deadlineText a) (deadlineText b)).then
          ((compare a.createdAt b.createdAt).then
            (compare (a.taskId.getD "") (b.taskId.getD "")))))) := by
  have hcmp : (deadlineKey a).cmp (deadlineKey b) =
      some (compare (deadlineText a) (deadlineText b)) := by
    rw [ha, hb]
    rfl
  simp only [keyCompare, hcmp]
  cases compare (decide (a.status ≠ .ready)) (decide (b.status ≠ .ready)) with
  | lt => rfl
  | gt => rfl
  | eq =>
      cases compare (rank a.priority) (rank b.priority) with
      | lt => rfl
      | gt => rfl
      | eq =>
          cases compare (deadlineText a) (deadlineText b) with
          | lt => rfl
          | gt => rfl
          | eq => rfl

theorem keyCompare_lt_iff {a b : TaskReport} (ha : deadlineKey a = .str (deadlineText a))
    (hb : deadlineKey b = .str (deadlineText b)) :
    keyCompare a b = some .lt ↔ textKey a < textKey b := by
  simp only [keyCompare_eq ha hb, Option.some.injEq, Ordering.then_eq_lt, compare_lt_iff_lt,
    compare_eq_iff_eq, textKey, sortKey, Prod.Lex.toLex_lt_toLex]

theorem keyLe_iff {a b : TaskReport} (ha : deadlineKey a = .str (deadlineText a))
    (hb : deadlineKey b = .str (deadlineText b)) : keyLe a b ↔ textKey a ≤ textKey b := by
  rw [keyLe, ne_eq, keyCompare_lt_iff hb ha, not_lt]

/-- The least key comes first. -/
def textRank (task : TaskReport) : (Bool ×ₗ ℕ ×ₗ String ×ₗ String ×ₗ String)ᵒᵈ :=
  OrderDual.toDual (textKey task)

/-- **Sorting.** Tasks whose deadlines are compared as texts are sorted without an exception,
    into the ranking by the five components. -/
theorem ordered_eq_sorted {tasks : List TaskReport}
    (h : ∀ task ∈ tasks, deadlineKey task = .str (deadlineText task)) :
    ordered tasks = .ok (sorted textRank tasks) := by
  have hkeys : ∀ a ∈ tasks, ∀ b ∈ tasks, (keyCompare a b).isSome := by
    intro a ha b hb
    rw [keyCompare_eq (h a ha) (h b hb)]
    rfl
  have hsame := List.map_insertionSort (r := keyLe) (s := fun a b => textRank b ≤ textRank a) id
    tasks fun a ha b hb => keyLe_iff (h a ha) (h b hb)
  rw [List.map_id, List.map_id] at hsame
  rw [ordered, if_pos hkeys, hsame]
  rfl

section Order

variable {instant : String → Option ℚ}

theorem Timed.deadlineKey_eq {task : TaskReport} (h : Timed instant task) :
    deadlineKey task = .str (deadlineText task) := by
  rcases h with hnone | ⟨text, htext, hne, -⟩
  · simp [deadlineText, deadlineKey, hnone, PyValue.truthy]
  · simp [deadlineText, deadlineKey, htext, PyValue.truthy, hne]

/-- A ranking by the texts is in the order that is meant exactly if the two orders agree on it. -/
theorem sorted_pairwise_iff (tasks : List TaskReport) :
    ((sorted textRank tasks).Pairwise fun a b => dueKey instant a ≤ dueKey instant b) ↔
      tasks.Pairwise (Agree instant) :=
  pairwise_sorted_iff textRank tasks

/-- In a list in the order that is meant, the first is the least. -/
theorem takesLeast_of_pairwise {entries : List TaskReport}
    (h : entries.Pairwise fun a b => dueKey instant a ≤ dueKey instant b) :
    TakesLeast instant entries := by
  cases entries with
  | nil => exact ⟨rfl, rfl⟩
  | cons task rest =>
      refine ⟨List.Perm.refl _, fun other hother => ?_⟩
      rcases List.mem_cons.mp hother with rfl | hrest
      · exact le_refl _
      · exact List.rel_of_pairwise_cons h hrest

/-! ## Steps -/

/-- What the code keeps whatever the texts of the deadlines stand for: the entries are timed, and
    ranked by the texts. -/
structure Ranks (instant : String → Option ℚ) (queue : QueueState) : Prop where
  timed : ∀ task ∈ queue.entries, Timed instant task
  ranked : queue.entries.Pairwise fun a b => textKey a ≤ textKey b

theorem ranks_sorted {tasks : List TaskReport} (h : ∀ task ∈ tasks, Timed instant task)
    {queue : QueueState} (hentries : queue.entries = sorted textRank tasks) :
    Ranks instant queue := by
  refine ⟨fun task htask => h task ?_, ?_⟩
  · rw [hentries] at htask
    exact (mem_sorted textRank).mp htask
  · rw [hentries]
    exact pairwise_sorted textRank tasks

/-- On entries that are in both orders, the two orders agree. -/
theorem Ranks.agree {queue : QueueState} (h : Ranks instant queue)
    (hdue : queue.entries.Pairwise fun a b => dueKey instant a ≤ dueKey instant b) :
    queue.entries.Pairwise (Agree instant) := by
  refine (h.ranked.and hdue).imp fun {a b} hab => ?_
  rw [Agree, if_pos hab.1]
  exact hab.2

theorem step_enqueue {queue : QueueState} (h : Ranks instant queue)
    (hdue : InDueOrder instant queue) {task : TaskReport} (htask : Timed instant task) :
    ∃ next, queue.step (.enqueue task) = .ok next ∧ Ranks instant next ∧
      (InDueOrder instant next ↔ QueueOp.Fits instant queue (.enqueue task)) := by
  have htimed : ∀ t ∈ queue.entries ++ [task], Timed instant t := by
    intro t ht
    rcases List.mem_append.mp ht with ht | ht
    · exact h.timed t ht
    · exact List.mem_singleton.mp ht ▸ htask
  have hsort := ordered_eq_sorted fun t ht => (htimed t ht).deadlineKey_eq
  refine ⟨⟨sorted textRank (queue.entries ++ [task]), queue.enqueued ++ [task], queue.dequeued⟩,
    ?_, ranks_sorted htimed rfl, ?_⟩
  · simp only [QueueState.step, enqueue, hsort]
    rfl
  have hfits : (queue.entries ++ [task]).Pairwise (Agree instant) ↔
      QueueOp.Fits instant queue (.enqueue task) := by
    simp [List.pairwise_append, h.agree hdue.sorted, QueueOp.Fits]
  constructor
  · intro hnext
    exact hfits.mp ((sorted_pairwise_iff _).mp hnext.sorted)
  · intro hm
    have hpairs := (sorted_pairwise_iff _).mpr (hfits.mpr hm)
    refine ⟨?_, hpairs, takesLeast_of_pairwise hpairs⟩
    have hperm : (sorted textRank (queue.entries ++ [task])).Perm (queue.entries ++ [task]) :=
      List.perm_insertionSort _ _
    have hswap : (queue.entries ++ [task] ++ queue.dequeued).Perm
        (queue.entries ++ queue.dequeued ++ [task]) := by
      rw [List.append_assoc, List.append_assoc]
      exact List.perm_append_comm.append_left _
    exact (hperm.append_right _).trans (hswap.trans (hdue.conserved.append_right _))

theorem step_dequeue {queue : QueueState} (h : Ranks instant queue)
    (hdue : InDueOrder instant queue) :
    ∃ next, queue.step .dequeue = .ok next ∧ Ranks instant next ∧ InDueOrder instant next := by
  obtain ⟨entries, enqueued, dequeued⟩ := queue
  cases entries with
  | nil =>
      refine ⟨⟨[], enqueued, dequeued⟩, ?_, h, hdue⟩
      simp [QueueState.step, dequeue]
  | cons task rest =>
      have hrest := hdue.sorted.of_cons
      refine ⟨_, rfl, ⟨fun t ht => h.timed t (List.mem_cons_of_mem _ ht), h.ranked.of_cons⟩, ?_,
        hrest, takesLeast_of_pairwise hrest⟩
      -- The task moves from the front of the entries to the end of those returned.
      have hmove : (rest ++ (dequeued ++ [task])).Perm (task :: rest ++ dequeued) := by
        rw [← List.append_assoc]
        exact List.perm_append_comm
      exact hmove.trans hdue.conserved

theorem step_reorder {queue : QueueState} (hdue : InDueOrder instant queue)
    {tasks : List TaskReport} (htasks : ∀ task ∈ tasks, Timed instant task) :
    ∃ next, queue.step (.reorder tasks) = .ok next ∧ Ranks instant next ∧
      (InDueOrder instant next ↔ QueueOp.Fits instant queue (.reorder tasks)) := by
  have hsort := ordered_eq_sorted fun t ht => (htasks t ht).deadlineKey_eq
  have hperm : (sorted textRank tasks).Perm tasks := List.perm_insertionSort _ _
  refine ⟨⟨sorted textRank tasks, queue.enqueued, queue.dequeued⟩, ?_,
    ranks_sorted htasks rfl, ?_⟩
  · simp only [QueueState.step, reorder, hsort]
    rfl
  constructor
  · intro hnext
    have hsame := hnext.conserved.trans hdue.conserved.symm
    exact ⟨hperm.symm.trans ((List.perm_append_right_iff _).mp hsame),
      (sorted_pairwise_iff _).mp hnext.sorted⟩
  · rintro ⟨hsame, hagree⟩
    have hpairs := (sorted_pairwise_iff _).mpr hagree
    exact ⟨((hperm.trans hsame).append_right _).trans hdue.conserved, hpairs,
      takesLeast_of_pairwise hpairs⟩

/-- **One operation** raises nothing, and keeps the order exactly if it meets its condition. -/
theorem step_fits {queue : QueueState} (h : Ranks instant queue)
    (hdue : InDueOrder instant queue) {op : QueueOp} (hop : op.Timed instant) :
    ∃ next, queue.step op = .ok next ∧ Ranks instant next ∧
      (InDueOrder instant next ↔ op.Fits instant queue) := by
  cases op with
  | enqueue task => exact step_enqueue h hdue hop
  | dequeue =>
      obtain ⟨next, hstep, hranks, hnext⟩ := step_dequeue h hdue
      exact ⟨next, hstep, hranks, iff_of_true hnext trivial⟩
  | reorder tasks => exact step_reorder hdue hop

/-! ## Runs -/

theorem ranks_empty : Ranks instant {} :=
  ⟨fun _ h => absurd h List.not_mem_nil, List.Pairwise.nil⟩

theorem inDueOrder_empty : InDueOrder instant {} :=
  ⟨List.Perm.refl _, List.Pairwise.nil, rfl, rfl⟩

theorem staysInDueOrder_ok_iff (queue : QueueState) :
    StaysInDueOrder instant (.ok queue) ↔ InDueOrder instant queue := by
  simp [StaysInDueOrder]

/-- **Runs.** From a queue that is ranked by the texts, every state is in order exactly if the
    first one is and every operation is given what it needs. -/
theorem staysInDueOrder_iff {queue : QueueState} (hranks : Ranks instant queue)
    {ops : List QueueOp} (hops : ∀ op ∈ ops, op.Timed instant) :
    Always queueStep (StaysInDueOrder instant) (.ok queue) ops ↔
      InDueOrder instant queue ∧ Meets queueStep (KeepsOrder instant) (.ok queue) ops := by
  have hstart : ∀ state, (.ok queue : Except Exn QueueState) = .ok state →
      Ranks instant state := by
    rintro state ⟨⟩
    exact hranks
  rw [GuardedRun.always_iff (I := fun queue => ∀ state, queue = .ok state → Ranks instant state)
    (C := KeepsOrder instant) (D := fun op => op.Timed instant) ?_ ?_ hstart hops,
    staysInDueOrder_ok_iff]
  · rintro _ op hI ⟨state, rfl, hdue⟩ hop next hnext
    obtain ⟨after, hstep, hafter, -⟩ := step_fits (hI state rfl) hdue hop
    cases hstep.symm.trans hnext
    exact hafter
  · rintro _ op hI ⟨state, rfl, hdue⟩ hop
    obtain ⟨after, hstep, -, hiff⟩ := step_fits (hI state rfl) hdue hop
    have hnext : queueStep (.ok state) op = .ok after := hstep
    rw [hnext, staysInDueOrder_ok_iff, hiff]
    simp [KeepsOrder]

/-- Two tasks on which the orders differ are enough to leave the order. -/
theorem not_always_of_not_agree {a b : TaskReport} (ha : Timed instant a) (hb : Timed instant b)
    (h : ¬ Agree instant a b) :
    ¬ Always queueStep (StaysInDueOrder instant) (.ok {}) [.enqueue a, .enqueue b] := by
  have hops : ∀ op ∈ [QueueOp.enqueue a, .enqueue b], op.Timed instant :=
    List.forall_mem_cons.mpr ⟨ha, List.forall_mem_singleton.mpr hb⟩
  rw [staysInDueOrder_iff ranks_empty hops]
  rintro ⟨-, -, hsecond, -⟩
  have hsort : ordered [a] = .ok [a] :=
    ordered_eq_sorted (List.forall_mem_singleton.mpr ha.deadlineKey_eq)
  have hstep : queueStep (.ok {}) (.enqueue a) = .ok { entries := [a], enqueued := [a] } := by
    show Except.map _ (ordered ([] ++ [a])) = _
    rw [List.nil_append, hsort]
    rfl
  exact h (hsecond _ hstep _ (List.mem_singleton_self _))

/-- The orders agree on two tasks whose deadlines the texts and the instants order alike. -/
theorem agree_of_deadlines {a b : TaskReport}
    (hlt : deadlineText a < deadlineText b ↔ dueInstant instant a < dueInstant instant b)
    (hgt : deadlineText b < deadlineText a ↔ dueInstant instant b < dueInstant instant a) :
    Agree instant a b := by
  have heq : deadlineText a = deadlineText b ↔ dueInstant instant a = dueInstant instant b := by
    rw [eq_iff_le_not_lt, ← not_lt, eq_iff_le_not_lt, ← not_lt, hlt, hgt]
  have hle : textKey a ≤ textKey b ↔ dueKey instant a ≤ dueKey instant b := by
    simp only [textKey, dueKey, sortKey_le_iff, hlt, heq]
  rw [Agree]
  split
  · next h => exact hle.mp h
  · next h => exact le_of_not_ge fun hdue => h (hle.mpr hdue)

end Order

/-! ## Offsets -/

/-- The first task of a goal with a deadline. -/
def launchTask (deadline : String) : TaskReport :=
  createTask ⟨0, "2026-08-01T00:00:00+00:00"⟩
    { goalId := some 1
      title := "Launch campaign"
      description := none
      objective := "Draft positioning"
      ownerId := some 7
      organizationId := some 99
      priority := .medium
      status := .created
      dependencies := []
      parentGoalId := none
      childGoalIds := []
      milestones := []
      createdAt := "2026-08-01T00:00:00+00:00"
      updatedAt := "2026-08-01T00:00:00+00:00"
      completedAt := none
      metadata := [("deadline", .str deadline)] } 0

theorem deadline_launchTask (deadline : String) :
    (launchTask deadline).schedule.deadline = .str deadline := rfl

theorem isoInstant_india : isoInstant "2026-08-10T00:00:00+05:30" = some 63921983400 := by
  simp [isoInstant, fieldValue, secondsFraction, offsetSeconds, ordinal, daysInMonth,
    isLeapYear, List.range_succ]
  norm_num

theorem isoInstant_utc : isoInstant "2026-08-09T20:00:00+00:00" = some 63921988800 := by
  simp [isoInstant, fieldValue, secondsFraction, offsetSeconds, ordinal, daysInMonth,
    isLeapYear, List.range_succ]
  norm_num

theorem timed_india : Timed isoInstant (launchTask "2026-08-10T00:00:00+05:30") :=
  Or.inr ⟨_, deadline_launchTask _, by decide, by rw [isoInstant_india]; rfl⟩

theorem timed_utc : Timed isoInstant (launchTask "2026-08-09T20:00:00+00:00") :=
  Or.inr ⟨_, deadline_launchTask _, by decide, by rw [isoInstant_utc]; rfl⟩

theorem sortKey_launchTask {δ : Type} [LinearOrder δ] (key : TaskReport → δ) (a b : String) :
    sortKey key (launchTask a) ≤ sortKey key (launchTask b) ↔
      key (launchTask a) ≤ key (launchTask b) :=
  sortKey_le_iff_deadline rfl rfl rfl rfl

/-- The text of the earlier instant is the larger one. -/
theorem not_agree_offsets :
    ¬ Agree isoInstant (launchTask "2026-08-10T00:00:00+05:30")
      (launchTask "2026-08-09T20:00:00+00:00") := by
  have htext : ¬ deadlineText (launchTask "2026-08-10T00:00:00+05:30") ≤
      deadlineText (launchTask "2026-08-09T20:00:00+00:00") := by
    decide
  have hkey : ¬ textKey (launchTask "2026-08-10T00:00:00+05:30") ≤
      textKey (launchTask "2026-08-09T20:00:00+00:00") := by
    rwa [textKey, sortKey_launchTask]
  rw [Agree, if_neg hkey, dueKey, sortKey_launchTask]
  simp only [dueInstant, deadline_launchTask, isoInstant_india, isoInstant_utc]
  intro hle
  have hnum : (63921988800 : ℚ) ≤ 63921983400 := WithTop.coe_le_coe.mp hle
  norm_num at hnum

/-- A task that is due after another one stands before it in the queue, because its deadline is
    written in another time zone. -/
theorem not_always_offsets :
    ¬ Always queueStep (StaysInDueOrder isoInstant) (.ok {})
      [.enqueue (launchTask "2026-08-10T00:00:00+05:30"),
        .enqueue (launchTask "2026-08-09T20:00:00+00:00")] :=
  not_always_of_not_agree timed_india timed_utc not_agree_offsets

/-- **Queue order.** Over every run of a new queue, and however texts are read as instants, the
    queue is in every state what came and did not go, in the order of the five keys, exactly if
    every task that comes stands on the same side of each queued one by the texts of the
    deadlines as by their instants, and only the queued tasks are reordered. -/
theorem queue_inDueOrder_iff (instant : String → Option ℚ) (ops : List QueueOp)
    (hops : ∀ op ∈ ops, op.Timed instant) :
    Always queueStep (StaysInDueOrder instant) (.ok {}) ops ↔
      Meets queueStep (KeepsOrder instant) (.ok {}) ops := by
  rw [staysInDueOrder_iff ranks_empty hops, and_iff_right inDueOrder_empty]

theorem isoInstant_friday : isoInstant "2026-08-14T20:00:00+00:00" = some 63922420800 := by
  simp [isoInstant, fieldValue, secondsFraction, offsetSeconds, ordinal, daysInMonth,
    isLeapYear, List.range_succ]
  norm_num

theorem timed_friday : Timed isoInstant (launchTask "2026-08-14T20:00:00+00:00") :=
  Or.inr ⟨_, deadline_launchTask _, by decide, by rw [isoInstant_friday]; rfl⟩

/-- The task that is due later comes first, and the two are reordered before they go. -/
def reorderedTasks : List QueueOp :=
  [.enqueue (launchTask "2026-08-14T20:00:00+00:00"),
    .enqueue (launchTask "2026-08-09T20:00:00+00:00"),
    .reorder [launchTask "2026-08-14T20:00:00+00:00", launchTask "2026-08-09T20:00:00+00:00"],
    .dequeue, .dequeue]

theorem agree_utc : Agree isoInstant (launchTask "2026-08-14T20:00:00+00:00")
    (launchTask "2026-08-09T20:00:00+00:00") := by
  have hnum : (63921988800 : ℚ) < 63922420800 := by norm_num
  have htext : deadlineText (launchTask "2026-08-09T20:00:00+00:00") <
      deadlineText (launchTask "2026-08-14T20:00:00+00:00") := by decide
  have hdue : dueInstant isoInstant (launchTask "2026-08-09T20:00:00+00:00") <
      dueInstant isoInstant (launchTask "2026-08-14T20:00:00+00:00") := by
    simp only [dueInstant, deadline_launchTask, isoInstant_friday, isoInstant_utc]
    exact WithTop.coe_lt_coe.mpr hnum
  refine agree_of_deadlines ?_ ?_
  · exact iff_of_false htext.not_gt hdue.not_gt
  · exact iff_of_true htext hdue

theorem reorderedTasks_inDueOrder :
    Always queueStep (StaysInDueOrder isoInstant) (.ok {}) reorderedTasks := by
  have htimed : ∀ op ∈ reorderedTasks, op.Timed isoInstant := by
    simp [reorderedTasks, QueueOp.Timed, timed_friday, timed_utc]
  refine (queue_inDueOrder_iff isoInstant reorderedTasks htimed).mpr ?_
  let later := launchTask "2026-08-14T20:00:00+00:00"
  let earlier := launchTask "2026-08-09T20:00:00+00:00"
  have hfirst : queueStep (.ok {}) (.enqueue later) = .ok ⟨[later], [later], []⟩ := by
    decide +kernel
  have hsecond : queueStep (.ok ⟨[later], [later], []⟩) (.enqueue earlier) =
      .ok ⟨[earlier, later], [later, earlier], []⟩ := by decide +kernel
  refine ⟨?_, ?_, ?_, fun _ _ => trivial, fun _ _ => trivial, trivial⟩
  · rintro state hstate entry hentry
    obtain rfl := Except.ok.inj hstate
    exact absurd hentry List.not_mem_nil
  · rintro state hstate entry hentry
    obtain rfl := Except.ok.inj (hfirst.symm.trans hstate)
    rw [List.mem_singleton.mp hentry]
    exact agree_utc
  · rintro state hstate
    rw [hfirst, hsecond] at hstate
    obtain rfl := Except.ok.inj hstate
    have hpair : [later, earlier].Pairwise (Agree isoInstant) := by
      rw [List.pairwise_pair]
      exact agree_utc
    exact ⟨List.Perm.swap _ _ _, hpair⟩

end AgentCorp.Runtime
