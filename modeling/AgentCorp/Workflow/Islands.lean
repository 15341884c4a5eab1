/-
  Islands: the nodes of a workflow that no run from its start node comes to.

  The validator looks at each identifier by itself, and accepts a node if an edge mentions it.
  Nodes that mention each other pass, and so does an end node that nothing mentions.

  * `validateGraph_ok_iff`: what the validator accepts.
  * `exists_unreachable_iff`: a node is out of reach if it is on an island.
  * `validateGraph_reaches_iff`: the graphs of which the validator is right.
-/
import AgentCorp.Workflow.Graph
import Mathlib.Data.Set.Basic
import Mathlib.Logic.Relation

namespace AgentCorp.Workflows

open AgentCorp.Python

/-! ## What the validator accepts -/

/-- No edge mentions this identifier, and its node is neither a start nor an end. -/
def Workflow.Orphan (L : Lower) (workflow : Workflow) (nid : Int) : Prop :=
  (∀ edge ∈ workflow.edges, edge.sourceNodeId ≠ nid ∧ edge.targetNodeId ≠ nid) ∧
    ∃ node, workflow.nodes.find? (·.id = nid) = some node ∧
      node.isType L "start" = false ∧ node.isType L "end" = false

/-- The only start node. -/
def Workflow.SoleStart (L : Lower) (workflow : Workflow) (start : WorkflowNode) : Prop :=
  workflow.nodes.filter (·.isType L "start") = [start]

section Accepted

variable {L : Lower} {workflow : Workflow}

theorem checkOrphan_ok_iff {nid : Int} (hnodes : 1 < workflow.nodes.length) :
    checkOrphan L workflow nid = .ok () ↔ ¬ workflow.Orphan L nid := by
  have hunmentioned : (nid ∉ workflow.edges.map (·.sourceNodeId) ∧
      nid ∉ workflow.edges.map (·.targetNodeId) ∧ 1 < workflow.nodes.length) ↔
        ∀ edge ∈ workflow.edges, edge.sourceNodeId ≠ nid ∧ edge.targetNodeId ≠ nid := by
    simp only [List.mem_map, not_exists, not_and, forall_and, hnodes, and_true, ne_eq]
  unfold checkOrphan Workflow.Orphan
  rw [if_congr hunmentioned rfl rfl]
  split
  · next hedges =>
      rw [and_iff_right hedges]
      cases workflow.nodes.find? (·.id = nid) with
      | none => exact iff_of_true rfl nofun
      | some node =>
          cases hstart : node.isType L "start" <;> cases hend : node.isType L "end" <;>
            simp [hstart, hend]
  · next hedges => exact iff_of_true rfl fun h => hedges h.1

theorem forM_ok_iff {α : Type} {f : α → Except Exn Unit} {l : List α} :
    l.forM f = .ok () ↔ ∀ a ∈ l, f a = .ok () := by
  induction l with
  | nil => exact iff_of_true rfl (by simp)
  | cons a l ih =>
      rw [List.forall_mem_cons, ← ih]
      show (f a >>= fun _ => l.forM f) = .ok () ↔ _
      cases f a with
      | error exc => exact iff_of_false nofun fun h => nomatch h.1
      | ok _ => exact (and_iff_right rfl).symm

/-- A graph of one start node has no orphan, whatever its edges are. -/
theorem not_orphan_of_sole {start : WorkflowNode} (hstart : workflow.SoleStart L start)
    (hnodes : workflow.nodes.length ≤ 1) (nid : Int) : ¬ workflow.Orphan L nid := by
  rintro ⟨-, node, hfind, hnot, -⟩
  have hmem := List.mem_of_find?_eq_some hfind
  have hsole := List.mem_filter.mp (hstart ▸ List.mem_singleton_self start)
  obtain ⟨other, hother⟩ := List.length_eq_one_iff.mp
    (Nat.le_antisymm hnodes (List.length_pos_of_mem hmem))
  rw [hother] at hmem hsole
  rw [List.mem_singleton.mp hmem, ← List.mem_singleton.mp hsole.1, hsole.2] at hnot
  cases hnot

/-- The validator accepts the graphs with one start node and no orphan. -/
theorem validateGraph_ok_iff :
    validateGraph L workflow = .ok () ↔
      (∃ start, workflow.SoleStart L start) ∧ ∀ nid, ¬ workflow.Orphan L nid := by
  unfold validateGraph
  split
  · next hnone =>
      refine iff_of_false nofun ?_
      rintro ⟨⟨start, hstart⟩, -⟩
      exact absurd (hnone.symm.trans hstart) nofun
  · next start hstart =>
      rw [forM_ok_iff, and_iff_right ⟨start, hstart⟩]
      rcases Nat.lt_or_ge 1 workflow.nodes.length with hnodes | hnodes
      · simp only [checkOrphan_ok_iff hnodes]
        constructor
        · intro h nid horphan
          obtain ⟨-, node, hfind, -⟩ := id horphan
          have hid : node.id = nid := by simpa using List.find?_some hfind
          exact h node (List.mem_of_find?_eq_some hfind) (hid ▸ horphan)
        · exact fun h node _ => h node.id
      · refine iff_of_true (fun node _ => ?_) (not_orphan_of_sole hstart hnodes)
        unfold checkOrphan
        rw [if_neg]
        rintro ⟨-, -, hlt⟩
        omega
  · next first second rest hmany =>
      refine iff_of_false nofun ?_
      rintro ⟨⟨start, hstart⟩, -⟩
      exact absurd (hmany.symm.trans hstart) nofun

end Accepted

/-! ## Reachability -/

/-- There is an edge from one node to another node of the workflow. -/
def Workflow.Linked (workflow : Workflow) (source target : WorkflowNode) : Prop :=
  target ∈ workflow.nodes ∧
    ∃ edge ∈ workflow.edges, edge.sourceNodeId = source.id ∧ edge.targetNodeId = target.id

/-- Along edges. -/
def Workflow.Reaches (workflow : Workflow) : WorkflowNode → WorkflowNode → Prop :=
  Relation.ReflTransGen workflow.Linked

/-- Some nodes, not the start, that no edge enters from another node. -/
structure Workflow.Island (workflow : Workflow) (start : WorkflowNode)
    (island : Set WorkflowNode) : Prop where
  nonempty : island.Nonempty
  nodes : ∀ node ∈ island, node ∈ workflow.nodes
  start : start ∉ island
  closed : ∀ source ∈ workflow.nodes, ∀ target ∈ island, workflow.Linked source target →
    source ∈ island

section Reach

variable {L : Lower} {workflow : Workflow} {start : WorkflowNode}

/-- Nobody lands on an island. -/
theorem Workflow.Island.not_reached {island : Set WorkflowNode}
    (hisland : workflow.Island start island) (hstart : start ∈ workflow.nodes)
    {node : WorkflowNode} (hreach : workflow.Reaches start node) :
    node ∈ workflow.nodes ∧ node ∉ island := by
  induction hreach with
  | refl => exact ⟨hstart, hisland.start⟩
  | tail hpath hlink ih =>
      exact ⟨hlink.1, fun hin => ih.2 (hisland.closed _ ih.1 _ hin hlink)⟩

/-- The nodes out of reach are an island, if there are any. -/
theorem exists_unreachable_iff (hstart : start ∈ workflow.nodes) :
    (∃ node ∈ workflow.nodes, ¬ workflow.Reaches start node) ↔
      ∃ island, workflow.Island start island := by
  constructor
  · rintro ⟨node, hnode, hnot⟩
    refine ⟨{node | node ∈ workflow.nodes ∧ ¬ workflow.Reaches start node}, ⟨node, hnode, hnot⟩,
      fun _ h => h.1, fun h => h.2 .refl, ?_⟩
    rintro source hsource target ⟨-, htarget⟩ hlink
    exact ⟨hsource, fun hreach => htarget (hreach.tail hlink)⟩
  · rintro ⟨island, hisland⟩
    obtain ⟨node, hnode⟩ := hisland.nonempty
    exact ⟨node, hisland.nodes node hnode, fun hreach =>
      (hisland.not_reached hstart hreach).2 hnode⟩

/-- **Validated graphs.** The validator is right about a graph, in that it raises unless there is
    exactly one start node that reaches every node, exactly if the graph has no island, or has an
    orphan or not exactly one start node. -/
theorem validateGraph_reaches_iff (L : Lower) (workflow : Workflow) :
    (validateGraph L workflow = .ok () →
        ∃ start, workflow.SoleStart L start ∧
          ∀ node ∈ workflow.nodes, workflow.Reaches start node) ↔
      ∀ start, workflow.SoleStart L start → (∀ nid, ¬ workflow.Orphan L nid) →
        ¬ ∃ island, workflow.Island start island := by
  rw [validateGraph_ok_iff]
  constructor
  · rintro h start hsole horphan
    obtain ⟨start', hsole', hreaches⟩ := h ⟨⟨start, hsole⟩, horphan⟩
    obtain ⟨rfl, -⟩ := List.cons.inj (hsole.symm.trans hsole')
    have hstart := (List.mem_filter.mp (hsole ▸ List.mem_singleton_self start)).1
    rw [← exists_unreachable_iff hstart]
    rintro ⟨node, hnode, hnot⟩
    exact hnot (hreaches node hnode)
  · rintro h ⟨⟨start, hsole⟩, horphan⟩
    have hstart := (List.mem_filter.mp (hsole ▸ List.mem_singleton_self start)).1
    have hnone := h start hsole horphan
    rw [← exists_unreachable_iff hstart] at hnone
    refine ⟨start, hsole, fun node hnode => ?_⟩
    by_contra hnot
    exact hnone ⟨node, hnode, hnot⟩

end Reach

def beginNode : WorkflowNode := ⟨1, "start", "begin", none, none⟩

def draftNode : WorkflowNode := ⟨3, "agent", "draft", none, none⟩

def reviewNode : WorkflowNode := ⟨4, "agent", "review", none, none⟩

/-- Two nodes that mention each other, beside a start and an end. -/
def islandWorkflow : Workflow where
  nodes := [beginNode, ⟨2, "end", "finish", none, none⟩, draftNode, reviewNode]
  edges := [⟨1, 2, none, 0⟩, ⟨3, 4, none, 0⟩, ⟨4, 3, none, 0⟩]

theorem islandWorkflow_island : islandWorkflow.Island beginNode {draftNode, reviewNode} where
  nonempty := ⟨draftNode, .inl rfl⟩
  nodes := by
    rintro node (rfl | rfl)
    · simp [islandWorkflow]
    · simp [islandWorkflow]
  start := by
    rintro (h | h)
    · exact absurd (congrArg WorkflowNode.id h) (by decide)
    · exact absurd (congrArg WorkflowNode.id h) (by decide)
  closed := by
    intro source hsource target htarget hlink
    obtain ⟨-, edge, hedge, hfrom, hto⟩ := hlink
    have hid : target.id = 3 ∨ target.id = 4 := htarget.imp (congrArg _) (congrArg _)
    simp only [islandWorkflow, List.mem_cons, List.not_mem_nil, or_false] at hedge hsource
    rcases hedge with rfl | rfl | rfl
    · have htwo : (2 : Int) = target.id := hto
      omega
    · have hthree : (3 : Int) = source.id := hfrom
      rcases hsource with rfl | rfl | rfl | rfl
      · exact absurd hthree (by decide)
      · exact absurd hthree (by decide)
      · exact .inl rfl
      · exact .inr rfl
    · have hfour : (4 : Int) = source.id := hfrom
      rcases hsource with rfl | rfl | rfl | rfl
      · exact absurd hfour (by decide)
      · exact absurd hfour (by decide)
      · exact .inl rfl
      · exact .inr rfl

/-- The graph is accepted, and its start node does not reach the other two. -/
theorem islandWorkflow_not_reached :
    validateGraph Lower.asciiOnly islandWorkflow = .ok () ∧
      ¬ ∃ start, islandWorkflow.SoleStart Lower.asciiOnly start ∧
        ∀ node ∈ islandWorkflow.nodes, islandWorkflow.Reaches start node := by
  refine ⟨rfl, ?_⟩
  rintro ⟨start, hsole, hreaches⟩
  obtain ⟨rfl, -⟩ : beginNode = start ∧ _ := List.cons.inj hsole
  have hdraft := hreaches draftNode (by simp [islandWorkflow])
  exact (islandWorkflow_island.not_reached (by simp [islandWorkflow]) hdraft).2 (.inl rfl)

end AgentCorp.Workflows
