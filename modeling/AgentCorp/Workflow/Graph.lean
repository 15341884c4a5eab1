/-
  Workflow graphs: what the validator accepts, and which edge the transition engine takes.

  * `validateGraph_ok`: an accepted graph has exactly one start node. Nothing is said of cycles.
  * `evaluateTransition_mem`: the engine takes one of the edges it is given.
-/
import AgentCorp.Python.Data
import Mathlib.Data.List.Sort

namespace AgentCorp.Workflows

open AgentCorp.Python

/-! ## Rows -/

structure WorkflowNode where
  id : Int
  nodeType : String
  name : String
  configuration : Option (Dict Json) := none
  retryPolicy : Option (Dict Json) := none
  deriving Repr

structure WorkflowEdge where
  sourceNodeId : Int
  targetNodeId : Int
  transitionCondition : Option String := none
  priority : Int := 0
  deriving DecidableEq, Repr

structure Workflow where
  nodes : List WorkflowNode
  edges : List WorkflowEdge
  deriving Repr

/-- The node has this type, in any case. -/
def WorkflowNode.isType (L : Lower) (node : WorkflowNode) (nodeType : String) : Bool :=
  L.lower node.nodeType == nodeType

/-! ## WorkflowValidator -/

def validationError (message : String) : Exn :=
  .other "WorkflowValidationError" message

/-- The orphan check for one identifier. -/
def checkOrphan (L : Lower) (workflow : Workflow) (nid : Int) : Except Exn Unit :=
  if nid ∉ workflow.edges.map (·.sourceNodeId) ∧ nid ∉ workflow.edges.map (·.targetNodeId) ∧
      1 < workflow.nodes.length then
    match workflow.nodes.find? (·.id = nid) with
    | some node =>
        if !node.isType L "start" && !node.isType L "end" then
          .error (validationError ("Workflow contains orphan node '" ++ node.name ++ "'."))
        else .ok ()
    | none => .ok ()
  else .ok ()

/-- `WorkflowValidator.validate_graph`. The set of identifiers is read in the order of the nodes:
    which orphan the error names may depend on it, whether there is one does not. -/
def validateGraph (L : Lower) (workflow : Workflow) : Except Exn Unit :=
  match workflow.nodes.filter (·.isType L "start") with
  | [] => .error (validationError "Workflow is missing a 'start' node.")
  | [_] => workflow.nodes.forM fun node => checkOrphan L workflow node.id
  | _ :: _ :: _ => .error (validationError "Workflow has duplicate 'start' nodes.")

/-- `next((n for n in nodes if n.node_type.lower() == "start"), None)`. -/
def startNode (L : Lower) (workflow : Workflow) : Option WorkflowNode :=
  workflow.nodes.find? (·.isType L "start")

/-- An accepted graph has exactly one start node. -/
theorem validateGraph_ok {L : Lower} {workflow : Workflow} (h : validateGraph L workflow = .ok ()) :
    ∃ node, workflow.nodes.filter (·.isType L "start") = [node] := by
  unfold validateGraph at h
  split at h
  · cases h
  · next node hnode => exact ⟨node, hnode⟩
  · cases h

/-! ## TransitionEngine -/

/-- `text.split("==")`. -/
def splitEquals : List Char → List (List Char)
  | '=' :: '=' :: rest => [] :: splitEquals rest
  | c :: rest =>
      match splitEquals rest with
      | part :: parts => (c :: part) :: parts
      | [] => [[c]]
  | [] => [[]]

/-- The loop of `TransitionEngine._resolve_path`. -/
def resolveParts : Json → List (List Char) → Json
  | value, [] => value
  | .dict entries, part :: parts => resolveParts (getJson entries (String.ofList part)) parts
  | _, _ :: _ => .null

/-- `TransitionEngine._resolve_path`. -/
def resolvePath (path : List Char) (context : Dict Json) : Json :=
  resolveParts (.dict context) (path.splitOn '.')

/-- What the engine makes of a condition that is not empty. A condition with more than one `==`
    raises where it is unpacked, and one with none is not compared: neither is met. -/
def conditionHolds (T : TextTables) (condition : String) (context : Dict Json) : Bool :=
  match splitEquals condition.toList with
  | [left, right] =>
      (resolvePath (strip left) context).text T == stripChars ['\'', '"'] (strip right)
  | _ => false

/-- The edge can be taken in this context. -/
def WorkflowEdge.enabled (T : TextTables) (edge : WorkflowEdge) (context : Dict Json) : Bool :=
  match edge.transitionCondition with
  | none => true
  | some condition => condition == "" || conditionHolds T condition context

/-- `TransitionEngine.evaluate_transition`. -/
def evaluateTransition (T : TextTables) (edges : List WorkflowEdge) (context : Dict Json) :
    Option Int :=
  ((edges.insertionSort fun a b => b.priority ≤ a.priority).find? (·.enabled T context)).map
    (·.targetNodeId)

/-- The node after `node`: the target of the edge that is taken, if there is such a node. -/
def nextNode (T : TextTables) (workflow : Workflow) (node : WorkflowNode) (context : Dict Json) :
    Option WorkflowNode :=
  match evaluateTransition T (workflow.edges.filter (·.sourceNodeId = node.id)) context with
  | some nextId => if nextId = 0 then none else workflow.nodes.find? (·.id = nextId)
  | none => none

/-- The engine takes one of the edges it is given. -/
theorem evaluateTransition_mem {T : TextTables} {edges : List WorkflowEdge}
    {context : Dict Json} {target : Int} (h : evaluateTransition T edges context = some target) :
    ∃ edge ∈ edges, edge.enabled T context ∧ edge.targetNodeId = target := by
  unfold evaluateTransition at h
  obtain ⟨edge, hfind, htarget⟩ := Option.map_eq_some_iff.mp h
  have hmem := List.mem_of_find?_eq_some hfind
  have henabled : edge.enabled T context = true := by simpa using List.find?_some hfind
  exact ⟨edge, (List.mem_insertionSort _).mp hmem, henabled, htarget⟩

/-- A transition follows an edge of the graph to a node of the graph. -/
theorem nextNode_mem {T : TextTables} {workflow : Workflow} {node next : WorkflowNode}
    {context : Dict Json} (h : nextNode T workflow node context = some next) :
    next ∈ workflow.nodes ∧
      ∃ edge ∈ workflow.edges, edge.sourceNodeId = node.id ∧ edge.targetNodeId = next.id := by
  unfold nextNode at h
  split at h
  · next nextId hnext =>
      split at h
      · cases h
      · obtain ⟨edge, hedge, -, htarget⟩ := evaluateTransition_mem hnext
        obtain ⟨hmem, hsource⟩ := List.mem_filter.mp hedge
        have hid : next.id = nextId := by simpa using List.find?_some h
        refine ⟨List.mem_of_find?_eq_some h, edge, hmem, by simpa using hsource, ?_⟩
        rw [htarget, hid]
  · cases h

/-- `"a = b"` is not split, `"==="` is split at the first two. -/
example : splitEquals "a = b".toList = ["a = b".toList] ∧
    splitEquals "a===b".toList = ["a".toList, "=b".toList] := by decide

end AgentCorp.Workflows
