/-
  Which workflow executions end.

  The validator accepts cyclic graphs and the loop has no bound, so an execution goes on for as
  long as its transitions lead back to nodes that it has executed.

  * `cyclic_never_ends`: an accepted graph whose execution never ends.
  * `executeWorkflow_ends_iff`: an execution that executes no node again ends within one pass for
    each node, and it ends at all exactly if that is so from some pass on.
  * `acyclic_ends`: where the edges form no cycle, it ends within one pass for each node.
-/
import AgentCorp.Workflow.WorkflowService

namespace AgentCorp.Workflows

open AgentCorp.Python AgentCorp.Executions WhileLoop

/-! ## Executions that end -/

section Ends

variable {env : WorkflowEnv} {workflow : Workflow}

/-- The pass that starts at `s` executes a node again. -/
def Revisits (s : RunState) : Prop :=
  ∃ node, s.current = some node ∧ node ∈ s.executed

/-- After `n` passes, no pass of the execution executes a node again. -/
def FreshFrom (env : WorkflowEnv) (workflow : Workflow) (n : ℕ) : Prop :=
  ∀ s, Reaches (loopBody env workflow) (startRun env workflow) s → n ≤ s.executed.length →
    ¬ Revisits s

theorem loopBody_executed {s t : RunState} (h : Steps (loopBody env workflow) s t) :
    ∃ node, s.current = some node ∧ t.executed = s.executed ++ [node] := by
  obtain ⟨node, record, hcurrent, -, -, rfl⟩ := loopBody_next h
  exact ⟨node, hcurrent, rfl⟩

/-- Each pass executes one node. -/
theorem loopBody_logs (s t : RunState) (h : Steps (loopBody env workflow) s t) :
    ∃ node, t.executed = s.executed ++ [node] := by
  obtain ⟨node, -, hexecuted⟩ := loopBody_executed h
  exact ⟨node, hexecuted⟩

/-- The loop ends within `n` passes and one for each node. -/
theorem loop_ends {n : ℕ} (h : FreshFrom env workflow n) :
    ∃ r, run (loopBody env workflow) (n + workflow.nodes.length + 1) (startRun env workflow) =
      some r := by
  apply run_of_fresh loopBody_logs rfl
  · intro s hreach node hnode
    exact (Logged.of_reaches hreach).nodes node (List.mem_append_left _ hnode)
  · intro s t node hreach hstep hn hexecuted hmem
    obtain ⟨node', hcurrent, hexecuted'⟩ := loopBody_executed hstep
    have heq : node = node' := by
      rw [hexecuted', List.append_cancel_left_eq] at hexecuted
      exact (List.singleton_inj.mp hexecuted).symm
    exact h s hreach hn ⟨node', hcurrent, heq ▸ hmem⟩

/-- An execution ends within `n` passes and one for each node. -/
theorem executeWorkflow_ends {n : ℕ} (hvalid : validateGraph env.L workflow = .ok ())
    (hfresh : FreshFrom env workflow n) :
    executeWorkflow env (some workflow) (n + workflow.nodes.length + 1) ≠ none := by
  obtain ⟨r, hrun⟩ := loop_ends hfresh
  rw [executeWorkflow_valid hvalid, hrun]
  exact Option.some_ne_none _

/-- An execution that ends executes no node again after its end. -/
theorem freshFrom_of_ends {fuel : ℕ} (hvalid : validateGraph env.L workflow = .ok ())
    (hends : executeWorkflow env (some workflow) fuel ≠ none) : FreshFrom env workflow fuel := by
  rw [executeWorkflow_valid hvalid, ne_eq, Option.map_eq_none_iff] at hends
  obtain ⟨r, hrun⟩ := Option.ne_none_iff_exists'.mp hends
  intro s hreach hn _
  have hlt : s.executed.length < (startRun env workflow).executed.length + fuel :=
    length_log_lt loopBody_logs hrun hreach
  have hempty : (startRun env workflow).executed.length = 0 := rfl
  omega

/-- **Termination.** For an accepted graph and any outcomes of its nodes, an execution that
    executes no node again ends within one pass for each node, and an execution ends at all
    exactly if from some pass on it executes no node again. -/
theorem executeWorkflow_ends_iff (hvalid : validateGraph env.L workflow = .ok ()) :
    (FreshFrom env workflow 0 →
      executeWorkflow env (some workflow) (workflow.nodes.length + 1) ≠ none) ∧
    ((∃ fuel, executeWorkflow env (some workflow) fuel ≠ none) ↔
      ∃ n, FreshFrom env workflow n) := by
  constructor
  · intro hfresh
    have hends := executeWorkflow_ends hvalid hfresh
    rw [Nat.zero_add] at hends
    exact hends
  · constructor
    · rintro ⟨fuel, hends⟩
      exact ⟨fuel, freshFrom_of_ends hvalid hends⟩
    · rintro ⟨n, hfresh⟩
      exact ⟨_, executeWorkflow_ends hvalid hfresh⟩

/-! ## Graphs without cycles -/

/-- The edges lead from lower ranks to higher ones. -/
def Ranked (workflow : Workflow) (rank : Int → ℕ) : Prop :=
  ∀ edge ∈ workflow.edges, rank edge.sourceNodeId < rank edge.targetNodeId

/-- Along ranked edges, the current node is above all that were executed. -/
theorem ranked_invariant {rank : Int → ℕ} (hrank : Ranked workflow rank) :
    Invariant (loopBody env workflow) fun s =>
      ∀ node, s.current = some node → ∀ earlier ∈ s.executed, rank earlier.id < rank node.id := by
  intro s t hs hstep next hnext earlier hearlier
  obtain ⟨node, record, hcurrent, -, -, rfl⟩ := loopBody_next hstep
  dsimp only at hnext
  split at hnext
  · cases hnext
  · obtain ⟨-, edge, hedge, hsource, htarget⟩ := nextNode_mem hnext
    have hlt : rank node.id < rank next.id := by
      rw [← hsource, ← htarget]
      exact hrank edge hedge
    rcases List.mem_append.mp hearlier with hold | hlast
    · have hbelow := hs node hcurrent earlier hold
      omega
    · rw [List.mem_singleton.mp hlast]
      exact hlt

/-- Along ranked edges, no node is executed again. -/
theorem freshFrom_of_ranked {rank : Int → ℕ} (hrank : Ranked workflow rank) :
    FreshFrom env workflow 0 := by
  rintro s hreach - ⟨node, hcurrent, hmem⟩
  have habove := (ranked_invariant hrank).of_reaches (fun _ _ _ h => absurd h List.not_mem_nil)
    hreach
  exact lt_irrefl _ (habove node hcurrent node hmem)

/-- Where the edges form no cycle, an execution ends within one pass for each node. -/
theorem acyclic_ends {rank : Int → ℕ} (hvalid : validateGraph env.L workflow = .ok ())
    (hrank : Ranked workflow rank) :
    executeWorkflow env (some workflow) (workflow.nodes.length + 1) ≠ none := by
  have hends := executeWorkflow_ends hvalid (freshFrom_of_ranked hrank)
  rw [Nat.zero_add] at hends
  exact hends

end Ends

/-! ## A cycle that is accepted -/

def quietEnv : WorkflowEnv where
  L := .asciiOnly
  T := asciiTables
  services := fun _ _ => quietServices
  executionId := 1
  organizationId := 1
  agentId := 1

def startStep : WorkflowNode where
  id := 1
  nodeType := "start"
  name := "Start"

def draftStep : WorkflowNode where
  id := 2
  nodeType := "task"
  name := "Draft"

def reviewStep : WorkflowNode where
  id := 3
  nodeType := "task"
  name := "Review"

/-- A draft is reviewed and drafted again. -/
def cyclicWorkflow : Workflow where
  nodes := [startStep, draftStep, reviewStep]
  edges := [{ sourceNodeId := 1, targetNodeId := 2 }, { sourceNodeId := 2, targetNodeId := 3 },
    { sourceNodeId := 3, targetNodeId := 2 }]

/-- A pass over the accepted cycle goes on. -/
theorem cyclic_goes_on {s : RunState} (h : ∃ node ∈ cyclicWorkflow.nodes, s.current = some node) :
    ∃ t, loopBody quietEnv cyclicWorkflow s = .next t ∧
      ∃ node ∈ cyclicWorkflow.nodes, t.current = some node := by
  obtain ⟨node, hnode, hcurrent⟩ := h
  obtain ⟨execution, steps, current, executed⟩ := s
  obtain rfl : current = some node := hcurrent
  obtain rfl | rfl | rfl : node = startStep ∨ node = draftStep ∨ node = reviewStep := by
    simpa [cyclicWorkflow] using hnode
  · exact ⟨_, rfl, draftStep, by simp [cyclicWorkflow], rfl⟩
  · exact ⟨_, rfl, reviewStep, by simp [cyclicWorkflow], rfl⟩
  · exact ⟨_, rfl, draftStep, by simp [cyclicWorkflow], rfl⟩

/-- The validator accepts a cycle, and the execution never ends. -/
theorem cyclic_never_ends :
    validateGraph quietEnv.L cyclicWorkflow = .ok () ∧
      ∀ fuel, executeWorkflow quietEnv (some cyclicWorkflow) fuel = none := by
  have hvalid : validateGraph quietEnv.L cyclicWorkflow = .ok () := rfl
  refine ⟨hvalid, fun fuel => ?_⟩
  rw [executeWorkflow_valid hvalid, Option.map_eq_none_iff]
  exact run_eq_none (fun _ h => cyclic_goes_on h) fuel
    ⟨startStep, by simp [cyclicWorkflow], rfl⟩

/-- A graph without a cycle. -/
def linearWorkflow : Workflow where
  nodes := [startStep, draftStep]
  edges := [{ sourceNodeId := 1, targetNodeId := 2 }]

theorem linear_ranked : Ranked linearWorkflow Int.toNat := by
  simp [Ranked, linearWorkflow]

/-- Its execution ends within two passes. -/
theorem linear_ends : executeWorkflow quietEnv (some linearWorkflow) 3 ≠ none :=
  (executeWorkflow_ends_iff rfl).1 (freshFrom_of_ranked linear_ranked)

end AgentCorp.Workflows
