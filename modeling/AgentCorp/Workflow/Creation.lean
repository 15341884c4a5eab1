/-
  The creation of a workflow, and what is committed of one that fails.

  `BaseRepository.create` commits the workflow by itself. The nodes are flushed and the edges are
  added to the session; one commit at the end stores them.

  * `createWorkflow_atomic_iff`: the creations that are atomic.
-/
import AgentCorp.Chat.Messages
import AgentCorp.Lib.Table
import AgentCorp.Lib.Transaction
import AgentCorp.Python.Data
import AgentCorp.Workflow.NodeExecution

namespace AgentCorp.Workflows

open AgentCorp.Python AgentCorp.Chat

/-! ## Tables -/

structure WorkflowRow where
  organizationId : Int
  name : String
  description : Option String
  version : String
  createdBy : Int

structure NodeRow where
  workflowId : Nat
  nodeType : Json
  name : Json
  configuration : Json
  timeout : Json

structure EdgeRow where
  workflowId : Nat
  sourceNodeId : Nat
  targetNodeId : Nat
  transitionCondition : Json
  priority : Json

structure WorkflowTables where
  workflows : Table WorkflowRow
  nodes : Table NodeRow
  edges : Table EdgeRow

/-- How the writes of a creation end: the first commit, the flush of each node, and the last
    commit. -/
structure CreationEnv where
  T : TextTables
  workflowWrite : WriteOutcome
  flush : Nat → Except Exn Unit
  commit : Except Exn Unit

abbrev Creation := Py (Transaction WorkflowTables)

/-! ## create_workflow -/

/-- `d[key]`. -/
def item (T : TextTables) (d : Dict Json) (key : String) : Except Exn Json :=
  match d.lookup key with
  | some value => .ok value
  | none => .error (.other "KeyError" (String.ofList (reprStr T.toUnicode key)))

/-- A column with a default of its own does not store `None`. -/
def orDefault (default : Json) : Json → Json
  | .null => default
  | value => value

/-- `WorkflowNode(...)`. -/
def readNode (T : TextTables) (workflowId : Nat) (nodeInfo : Dict Json) : Except Exn NodeRow := do
  let nodeType ← item T nodeInfo "node_type"
  let name ← item T nodeInfo "name"
  return {
    workflowId, nodeType, name
    configuration := getJsonD nodeInfo "configuration" (.dict [])
    timeout := orDefault (.float 60) (getJsonD nodeInfo "timeout" (.float 60)) }

/-- `node_id_map[key]`. The keys are the positions of the nodes: `True == 1 == 1.0`. -/
def lookupNode (T : TextTables) (nodeIdMap : List Nat) (key : Json) : Except Exn Nat :=
  match key with
  | .list _ => .error (.typeError "unhashable type: 'list'")
  | .dict _ => .error (.typeError "unhashable type: 'dict'")
  | _ =>
      match nodeIdMap.zipIdx.find? fun entry => key.asNumber == some (entry.2 : Rat) with
      | some entry => .ok entry.1
      | none => .error (.other "KeyError" (String.ofList (key.repr T)))

/-- `WorkflowEdge(...)`. -/
def readEdge (T : TextTables) (workflowId : Nat) (nodeIdMap : List Nat) (edgeInfo : Dict Json) :
    Except Exn EdgeRow := do
  let sourceNodeId ← item T edgeInfo "source_node_index" >>= lookupNode T nodeIdMap
  let targetNodeId ← item T edgeInfo "target_node_index" >>= lookupNode T nodeIdMap
  return {
    workflowId, sourceNodeId, targetNodeId
    transitionCondition := getJson edgeInfo "transition_condition"
    priority := orDefault (.int 0) (getJsonD edgeInfo "priority" (.int 0)) }

namespace WorkflowTables

variable (tables : WorkflowTables)

def addWorkflow (row : WorkflowRow) : WorkflowTables :=
  { tables with workflows := tables.workflows.insert row }

def addNode (row : NodeRow) : WorkflowTables :=
  { tables with nodes := tables.nodes.insert row }

def addEdge (row : EdgeRow) : WorkflowTables :=
  { tables with edges := tables.edges.insert row }

end WorkflowTables

/-- `BaseRepository.create`. -/
def createRow (outcome : WriteOutcome) (row : WorkflowRow) : Creation Nat := do
  let workflowId := (← get).current.workflows.next
  modify (.write (·.addWorkflow row))
  Py.ofResult outcome.commit
  modify .commit
  Py.ofResult outcome.refresh
  return workflowId

/-- The loop over the nodes. It returns the identifiers of `node_id_map`, by position. -/
def buildNodes (env : CreationEnv) (workflowId : Nat) : Nat → List (Dict Json) → Creation (List Nat)
  | _, [] => return []
  | idx, nodeInfo :: nodes => do
      let row ← Py.ofResult (readNode env.T workflowId nodeInfo)
      Py.ofResult (env.flush idx)
      let nodeId := (← get).current.nodes.next
      modify (.write (·.addNode row))
      return nodeId :: (← buildNodes env workflowId (idx + 1) nodes)

/-- The loop over the edges. -/
def buildEdges (env : CreationEnv) (workflowId : Nat) (nodeIdMap : List Nat) :
    List (Dict Json) → Creation Unit
  | [] => return ()
  | edgeInfo :: edges => do
      let row ← Py.ofResult (readEdge env.T workflowId nodeIdMap edgeInfo)
      modify (.write (·.addEdge row))
      buildEdges env workflowId nodeIdMap edges

/-- What comes after the row of the workflow. -/
def buildGraph (env : CreationEnv) (nodes edges : List (Dict Json)) (workflowId : Nat) :
    Creation Nat := do
  let nodeIdMap ← buildNodes env workflowId 0 nodes
  buildEdges env workflowId nodeIdMap edges
  Py.ofResult env.commit
  modify .commit
  return workflowId

/-- `WorkflowService.create_workflow`. -/
def createWorkflow (env : CreationEnv) (row : WorkflowRow) (nodes edges : List (Dict Json)) :
    Creation Nat := do
  let workflowId ← createRow env.workflowWrite row
  buildGraph env nodes edges workflowId

/-! ## What a creation is to store -/

/-- The value under this key is the position `i`. -/
def HasIndex (edgeInfo : Dict Json) (key : String) (i : Nat) : Prop :=
  ∃ value, edgeInfo.lookup key = some value ∧ value.asNumber = some (i : Rat)

/-- The row of a node. -/
structure NodeRow.Of (workflowId : Nat) (nodeInfo : Dict Json) (row : NodeRow) : Prop where
  workflow : row.workflowId = workflowId
  nodeType : nodeInfo.lookup "node_type" = some row.nodeType
  name : nodeInfo.lookup "name" = some row.name
  configuration : row.configuration = getJsonD nodeInfo "configuration" (.dict [])
  timeout : row.timeout = orDefault (.float 60) (getJson nodeInfo "timeout")

/-- The row of an edge, where the nodes of the workflow have these identifiers. -/
structure EdgeRow.Of (workflowId : Nat) (nodeIds : List Nat) (edgeInfo : Dict Json)
    (row : EdgeRow) : Prop where
  workflow : row.workflowId = workflowId
  source : ∃ i, HasIndex edgeInfo "source_node_index" i ∧ nodeIds[i]? = some row.sourceNodeId
  target : ∃ i, HasIndex edgeInfo "target_node_index" i ∧ nodeIds[i]? = some row.targetNodeId
  transitionCondition : row.transitionCondition = getJson edgeInfo "transition_condition"
  priority : row.priority = orDefault (.int 0) (getJson edgeInfo "priority")

/-- The new rows are that of the workflow, one for each node, and one for each edge. -/
def Created (row : WorkflowRow) (nodes edges : List (Dict Json)) (before : WorkflowTables)
    (workflowId : Nat) (after : WorkflowTables) : Prop :=
  ∃ nodeRows edgeRows,
    after.workflows.rows = before.workflows.rows ++ [(workflowId, row)] ∧
    after.nodes.rows = before.nodes.rows ++ nodeRows ∧
    after.edges.rows = before.edges.rows ++ edgeRows ∧
    List.Forall₂ (NodeRow.Of workflowId) nodes (nodeRows.map (·.2)) ∧
    List.Forall₂ (EdgeRow.Of workflowId (nodeRows.map (·.1))) edges (edgeRows.map (·.2))

/-- The type and the name are there. -/
def HasKeys (nodeInfo : Dict Json) : Prop :=
  (∃ nodeType, nodeInfo.lookup "node_type" = some nodeType) ∧
    ∃ name, nodeInfo.lookup "name" = some name

/-- Both ends are positions of nodes. -/
def HasEnds (count : Nat) (edgeInfo : Dict Json) : Prop :=
  (∃ i < count, HasIndex edgeInfo "source_node_index" i) ∧
    ∃ i < count, HasIndex edgeInfo "target_node_index" i

/-- Nothing goes wrong after the first commit. -/
structure Buildable (env : CreationEnv) (nodes edges : List (Dict Json)) : Prop where
  refreshed : env.workflowWrite.refresh = .ok ()
  keys : ∀ nodeInfo ∈ nodes, HasKeys nodeInfo
  flushed : ∀ idx < nodes.length, env.flush idx = .ok ()
  ends : ∀ edgeInfo ∈ edges, HasEnds nodes.length edgeInfo
  committed : env.commit = .ok ()

/-! ## Reading a node and an edge -/

section Reading

variable {T : TextTables} {workflowId : Nat}

theorem item_ok_iff {d : Dict Json} {key : String} {value : Json} :
    item T d key = .ok value ↔ d.lookup key = some value := by
  unfold item
  cases d.lookup key <;> simp

/-- A default that is read where a key is missing is the one that is stored for `None`. -/
theorem orDefault_getJsonD (default : Json) (d : Dict Json) (key : String) :
    orDefault default (getJsonD d key default) = orDefault default (getJson d key) := by
  unfold getJsonD getJson
  cases d.lookup key with
  | some value => rfl
  | none => cases default <;> rfl

theorem readNode_of {nodeInfo : Dict Json} {row : NodeRow}
    (h : readNode T workflowId nodeInfo = .ok row) : NodeRow.Of workflowId nodeInfo row := by
  obtain ⟨nodeType, htype, h⟩ := Proc.bind_ok h
  obtain ⟨name, hname, h⟩ := Proc.bind_ok h
  obtain rfl := Except.ok.inj h
  exact ⟨rfl, item_ok_iff.mp htype, item_ok_iff.mp hname, rfl, orDefault_getJsonD _ _ _⟩

theorem readNode_ok_iff {nodeInfo : Dict Json} :
    (∃ row, readNode T workflowId nodeInfo = .ok row) ↔ HasKeys nodeInfo := by
  constructor
  · intro ⟨row, h⟩
    have hrow := readNode_of h
    exact ⟨⟨_, hrow.nodeType⟩, _, hrow.name⟩
  · intro ⟨⟨nodeType, htype⟩, name, hname⟩
    unfold readNode
    rw [item_ok_iff.mpr htype, item_ok_iff.mpr hname]
    exact ⟨_, rfl⟩

theorem lookupNode_ok_iff {nodeIdMap : List Nat} {key : Json} {nodeId : Nat} :
    lookupNode T nodeIdMap key = .ok nodeId ↔
      ∃ i : Nat, key.asNumber = some (i : Rat) ∧ nodeIdMap[i]? = some nodeId := by
  -- a value that cannot be hashed is no number
  have hhash : ∀ exc : Exn, key.asNumber = none → ((.error exc : Except Exn Nat) = .ok nodeId ↔
      ∃ i : Nat, key.asNumber = some (i : Rat) ∧ nodeIdMap[i]? = some nodeId) := by
    intro exc hnone
    refine iff_of_false nofun ?_
    intro ⟨i, hi, _⟩
    rw [hnone] at hi
    cases hi
  unfold lookupNode
  split
  · exact hhash _ rfl
  · exact hhash _ rfl
  · constructor
    · intro h
      split at h
      · next entry hfind =>
          obtain rfl := Except.ok.inj h
          have hkey : key.asNumber = some (entry.2 : Rat) := by
            simpa using List.find?_some hfind
          exact ⟨entry.2, hkey,
            List.mem_zipIdx_iff_getElem?.mp (List.mem_of_find?_eq_some hfind)⟩
      · cases h
    · intro ⟨i, hi, hget⟩
      have hmem : (nodeId, i) ∈ nodeIdMap.zipIdx := List.mem_zipIdx_iff_getElem?.mpr hget
      split
      · next entry hfind =>
          have hkey : key.asNumber = some (entry.2 : Rat) := by
            simpa using List.find?_some hfind
          have hentry := List.mem_zipIdx_iff_getElem?.mp (List.mem_of_find?_eq_some hfind)
          have hpos : entry.2 = i := Nat.cast_injective (Option.some.inj (hkey.symm.trans hi))
          rw [hpos, hget] at hentry
          rw [Option.some.inj hentry]
      · next hnone =>
          have hno := List.find?_eq_none.mp hnone _ hmem
          exact absurd (beq_iff_eq.mpr hi) hno

theorem readEnd_ok_iff {nodeIdMap : List Nat} {edgeInfo : Dict Json} {key : String}
    {nodeId : Nat} :
    (item T edgeInfo key >>= lookupNode T nodeIdMap) = .ok nodeId ↔
      ∃ i, HasIndex edgeInfo key i ∧ nodeIdMap[i]? = some nodeId := by
  constructor
  · intro h
    obtain ⟨value, hvalue, h⟩ := Proc.bind_ok h
    obtain ⟨i, hi, hget⟩ := lookupNode_ok_iff.mp h
    exact ⟨i, ⟨value, item_ok_iff.mp hvalue, hi⟩, hget⟩
  · intro ⟨i, ⟨value, hvalue, hi⟩, hget⟩
    rw [item_ok_iff.mpr hvalue]
    exact lookupNode_ok_iff.mpr ⟨i, hi, hget⟩

theorem readEdge_of {nodeIdMap : List Nat} {edgeInfo : Dict Json} {row : EdgeRow}
    (h : readEdge T workflowId nodeIdMap edgeInfo = .ok row) :
    EdgeRow.Of workflowId nodeIdMap edgeInfo row := by
  unfold readEdge at h
  obtain ⟨sourceNodeId, hsource, h⟩ := Proc.bind_ok h
  obtain ⟨targetNodeId, htarget, h⟩ := Proc.bind_ok h
  obtain rfl := Except.ok.inj h
  exact ⟨rfl, readEnd_ok_iff.mp hsource, readEnd_ok_iff.mp htarget, rfl, orDefault_getJsonD _ _ _⟩

/-- A position below the length is that of an element. -/
theorem exists_index_iff {ids : List Nat} {P : Nat → Prop} :
    (∃ id i, P i ∧ ids[i]? = some id) ↔ ∃ i < ids.length, P i := by
  constructor
  · intro ⟨id, i, hi, hget⟩
    obtain ⟨hlt, -⟩ := List.getElem?_eq_some_iff.mp hget
    exact ⟨i, hlt, hi⟩
  · intro ⟨i, hlt, hi⟩
    exact ⟨ids[i], i, hi, List.getElem?_eq_getElem hlt⟩

theorem readEdge_ok_iff {nodeIdMap : List Nat} {edgeInfo : Dict Json} :
    (∃ row, readEdge T workflowId nodeIdMap edgeInfo = .ok row) ↔
      HasEnds nodeIdMap.length edgeInfo := by
  constructor
  · intro ⟨row, h⟩
    have hrow := readEdge_of h
    exact ⟨exists_index_iff.mp ⟨_, hrow.source⟩, exists_index_iff.mp ⟨_, hrow.target⟩⟩
  · intro ⟨hsource, htarget⟩
    obtain ⟨sourceNodeId, hsource⟩ := exists_index_iff.mpr hsource
    obtain ⟨targetNodeId, htarget⟩ := exists_index_iff.mpr htarget
    unfold readEdge
    rw [readEnd_ok_iff.mpr hsource, readEnd_ok_iff.mpr htarget]
    exact ⟨_, rfl⟩

end Reading

/-! ## The loops -/

namespace WorkflowTables

def addNodes (tables : WorkflowTables) (rows : List NodeRow) : WorkflowTables :=
  { tables with nodes := tables.nodes.insertAll rows }

def addEdges (tables : WorkflowTables) (rows : List EdgeRow) : WorkflowTables :=
  { tables with edges := tables.edges.insertAll rows }

end WorkflowTables

section Loops

variable {env : CreationEnv} {workflowId : Nat} {s t : Transaction WorkflowTables}

/-- When the loop over the nodes returns, and what it adds. -/
theorem buildNodes_run_ok_iff {nodes : List (Dict Json)} {idx : Nat} {ids : List Nat} :
    (buildNodes env workflowId idx nodes).run s = .ok ids t ↔
      ∃ rows, nodes.mapM (readNode env.T workflowId) = .ok rows ∧
        (∀ i < nodes.length, env.flush (idx + i) = .ok ()) ∧
        ids = List.range' s.current.nodes.next nodes.length ∧ t = s.write (·.addNodes rows) := by
  induction nodes generalizing idx s ids with
  | nil =>
      constructor
      · intro h
        obtain ⟨rfl, rfl⟩ := EStateM.Result.ok.inj h
        exact ⟨[], rfl, fun i hi => absurd hi (Nat.not_lt_zero i), rfl, rfl⟩
      · intro ⟨rows, hrows, _, hids, ht⟩
        obtain rfl := Except.ok.inj hrows
        rw [hids, ht]
        rfl
  | cons nodeInfo nodes ih =>
      show (Py.ofResult _ >>= fun row => Py.ofResult _ >>= fun _ => get >>= fun u =>
        modify (.write (·.addNode row)) >>= fun _ => buildNodes env workflowId (idx + 1) nodes >>=
          fun ids => pure (u.current.nodes.next :: ids)).run s = _ ↔ _
      simp only [Py.run_ofResult_bind]
      have hflush : (∀ i < nodes.length + 1, env.flush (idx + i) = .ok ()) ↔
          env.flush idx = .ok () ∧ ∀ i < nodes.length, env.flush (idx + 1 + i) = .ok () := by
        rw [Nat.forall_lt_succ_left]
        refine and_congr Iff.rfl (forall₂_congr fun i _ => ?_)
        rw [show idx + 1 + i = idx + (i + 1) by omega]
      rw [List.length_cons, hflush, List.range'_succ]
      constructor
      · intro ⟨row, hrow, _, hfirst, h⟩
        obtain ⟨ids', u, hrun, h⟩ := Proc.run_bind_ok_iff.mp
          (show (buildNodes env workflowId (idx + 1) nodes >>= _).run (s.write (·.addNode row)) = _
            from h)
        obtain ⟨rfl, rfl⟩ := EStateM.Result.ok.inj h
        obtain ⟨rows, hrows, hrest, rfl, rfl⟩ := ih.mp hrun
        exact ⟨row :: rows, Proc.mapM_cons_ok_iff.mpr ⟨row, rows, hrow, hrows, rfl⟩,
          ⟨hfirst, hrest⟩, rfl, rfl⟩
      · intro ⟨_, hmap, ⟨hfirst, hrest⟩, hids, ht⟩
        obtain ⟨row, rows, hrow, hrows, rfl⟩ := Proc.mapM_cons_ok_iff.mp hmap
        refine ⟨row, hrow, (), hfirst, ?_⟩
        have hrun : (buildNodes env workflowId (idx + 1) nodes).run (s.write (·.addNode row)) =
            .ok (List.range' (s.current.nodes.next + 1) nodes.length) t :=
          ih.mpr ⟨rows, hrows, hrest, rfl, ht⟩
        rw [hids]
        show (buildNodes env workflowId (idx + 1) nodes >>= _).run (s.write (·.addNode row)) = _
        exact Proc.run_bind_ok_iff.mpr ⟨_, _, hrun, rfl⟩

theorem buildEdges_run_ok_iff {edges : List (Dict Json)} {nodeIdMap : List Nat} :
    (buildEdges env workflowId nodeIdMap edges).run s = .ok () t ↔
      ∃ rows, edges.mapM (readEdge env.T workflowId nodeIdMap) = .ok rows ∧
        t = s.write (·.addEdges rows) := by
  induction edges generalizing s with
  | nil =>
      constructor
      · intro h
        obtain ⟨-, rfl⟩ := EStateM.Result.ok.inj h
        exact ⟨[], rfl, rfl⟩
      · intro ⟨rows, hrows, ht⟩
        obtain rfl := Except.ok.inj hrows
        rw [ht]
        rfl
  | cons edgeInfo edges ih =>
      show (Py.ofResult _ >>= fun row => modify (.write (·.addEdge row)) >>= fun _ =>
        buildEdges env workflowId nodeIdMap edges).run s = _ ↔ _
      rw [Py.run_ofResult_bind]
      constructor
      · intro ⟨row, hrow, h⟩
        obtain ⟨rows, hrows, rfl⟩ := ih.mp h
        exact ⟨row :: rows, Proc.mapM_cons_ok_iff.mpr ⟨row, rows, hrow, hrows, rfl⟩, rfl⟩
      · intro ⟨_, hmap, ht⟩
        obtain ⟨row, rows, hrow, hrows, rfl⟩ := Proc.mapM_cons_ok_iff.mp hmap
        exact ⟨row, hrow, ih.mpr ⟨rows, hrows, ht⟩⟩

/-- When all of the graph is built, and what is committed then. -/
theorem buildGraph_run_ok_iff {nodes edges : List (Dict Json)} {a : Nat} :
    (buildGraph env nodes edges workflowId).run s = .ok a t ↔
      ∃ nodeRows edgeRows, nodes.mapM (readNode env.T workflowId) = .ok nodeRows ∧
        (∀ idx < nodes.length, env.flush idx = .ok ()) ∧
        edges.mapM (readEdge env.T workflowId
          (List.range' s.current.nodes.next nodes.length)) = .ok edgeRows ∧
        env.commit = .ok () ∧ a = workflowId ∧
        t = ((s.write (·.addNodes nodeRows)).write (·.addEdges edgeRows)).commit := by
  unfold buildGraph
  rw [Proc.run_bind_ok_iff]
  constructor
  · intro ⟨ids, u, hbuild, h⟩
    obtain ⟨nodeRows, hnodes, hflush, rfl, rfl⟩ := buildNodes_run_ok_iff.mp hbuild
    obtain ⟨_, v, hbuild, h⟩ := Proc.run_bind_ok_iff.mp h
    obtain ⟨edgeRows, hedges, rfl⟩ := buildEdges_run_ok_iff.mp hbuild
    obtain ⟨_, hcommit, h⟩ := Py.run_ofResult_bind.mp h
    obtain ⟨rfl, rfl⟩ := EStateM.Result.ok.inj h
    simp only [Nat.zero_add] at hflush
    exact ⟨nodeRows, edgeRows, hnodes, hflush, hedges, hcommit, rfl, rfl⟩
  · intro ⟨nodeRows, edgeRows, hnodes, hflush, hedges, hcommit, ha, ht⟩
    have hbuild : (buildNodes env workflowId 0 nodes).run s = .ok
        (List.range' s.current.nodes.next nodes.length) (s.write (·.addNodes nodeRows)) := by
      refine buildNodes_run_ok_iff.mpr ⟨nodeRows, hnodes, ?_, rfl, rfl⟩
      simpa only [Nat.zero_add] using hflush
    refine ⟨_, _, hbuild, Proc.run_bind_ok_iff.mpr ⟨(), _, buildEdges_run_ok_iff.mpr
      ⟨edgeRows, hedges, rfl⟩, Py.run_ofResult_bind.mpr ⟨(), hcommit, ?_⟩⟩⟩
    rw [ha, ht]
    rfl

theorem buildNodes_pending (nodes : List (Dict Json)) (idx : Nat) :
    Transaction.Pending (buildNodes env workflowId idx nodes) := by
  induction nodes generalizing idx with
  | nil => exact .pure _
  | cons nodeInfo nodes ih =>
      exact .bind (.ofExcept _) fun row => .bind (.ofExcept _) fun _ => .bind .get fun u =>
        .bind (.write _) fun _ => .bind (ih (idx + 1)) fun ids => .pure _

theorem buildEdges_pending (nodeIdMap : List Nat) (edges : List (Dict Json)) :
    Transaction.Pending (buildEdges env workflowId nodeIdMap edges) := by
  induction edges with
  | nil => exact .pure _
  | cons edgeInfo edges ih =>
      exact .bind (.ofExcept _) fun row => .bind (.write _) fun _ => ih

theorem buildGraph_keptOnError (nodes edges : List (Dict Json)) :
    Transaction.KeptOnError (buildGraph env nodes edges workflowId) :=
  (buildNodes_pending nodes 0).bind_keptOnError fun ids =>
    (buildEdges_pending ids edges).bind_keptOnError fun _ =>
      (Transaction.Pending.ofExcept _).bind_keptOnError fun _ =>
        Transaction.keptOnError_commit workflowId

/-- What the workflow's own write leaves. -/
theorem createRow_run (outcome : WriteOutcome) (row : WorkflowRow) :
    (createRow outcome row).run s =
      match outcome.commit, outcome.refresh with
      | .error exc, _ => .error (.exception exc) (s.write (·.addWorkflow row))
      | .ok _, .error exc => .error (.exception exc) (s.write (·.addWorkflow row)).commit
      | .ok _, .ok _ => .ok s.current.workflows.next (s.write (·.addWorkflow row)).commit := by
  obtain ⟨commit, refresh⟩ := outcome
  cases commit with
  | error exc => rfl
  | ok _ => cases refresh <;> rfl

end Loops

/-! ## Atomicity -/

section Atomicity

variable {env : CreationEnv} {row : WorkflowRow} {nodes edges : List (Dict Json)}
  {tables : WorkflowTables}

theorem addWorkflow_ne : tables.addWorkflow row ≠ tables := by
  intro h
  have hnext := congrArg (fun tables => tables.workflows.next) h
  exact absurd hnext (Nat.succ_ne_self _)

/-- The graph is built if nothing goes wrong. -/
theorem buildGraph_succeeds_iff {workflowId : Nat} {s : Transaction WorkflowTables}
    (hrefresh : env.workflowWrite.refresh = .ok ()) :
    Proc.Succeeds (buildGraph env nodes edges workflowId) s ↔ Buildable env nodes edges := by
  unfold Proc.Succeeds
  simp only [buildGraph_run_ok_iff]
  constructor
  · intro ⟨_, _, nodeRows, edgeRows, hnodes, hflush, hedges, hcommit, _⟩
    refine ⟨hrefresh, ?_, hflush, ?_, hcommit⟩
    · intro nodeInfo hmem
      exact readNode_ok_iff.mp (Proc.mapM_ok hnodes nodeInfo hmem)
    · intro edgeInfo hmem
      have hends := readEdge_ok_iff.mp (Proc.mapM_ok hedges edgeInfo hmem)
      rwa [List.length_range'] at hends
  · intro h
    obtain ⟨nodeRows, hnodes⟩ : ∃ rows, nodes.mapM (readNode env.T workflowId) = .ok rows :=
      Proc.mapM_ok_iff.mpr fun nodeInfo hmem => readNode_ok_iff.mpr (h.keys nodeInfo hmem)
    obtain ⟨edgeRows, hedges⟩ : ∃ rows, edges.mapM (readEdge env.T workflowId
        (List.range' s.current.nodes.next nodes.length)) = .ok rows := by
      refine Proc.mapM_ok_iff.mpr fun edgeInfo hmem => readEdge_ok_iff.mpr ?_
      rw [List.length_range']
      exact h.ends edgeInfo hmem
    exact ⟨_, _, nodeRows, edgeRows, hnodes, h.flushed, hedges, h.committed, rfl, rfl⟩

/-- What is committed with a graph that is built. -/
theorem buildGraph_created {a : Nat} {s t : Transaction WorkflowTables}
    (hs : s = ((Transaction.opened tables).write (·.addWorkflow row)).commit)
    (h : (buildGraph env nodes edges tables.workflows.next).run s = .ok a t) :
    Created row nodes edges tables a t.committed := by
  obtain ⟨nodeRows, edgeRows, hnodes, _, hedges, _, rfl, rfl⟩ := buildGraph_run_ok_iff.mp h
  rw [hs] at hedges ⊢
  have hof := Proc.mapM_ok_iff_forall₂.mp hnodes
  have hids : (List.range' tables.nodes.next nodeRows.length).length = nodeRows.length :=
    List.length_range'
  have hids' : (List.range' tables.edges.next edgeRows.length).length = edgeRows.length :=
    List.length_range'
  refine ⟨_, _, rfl, tables.nodes.insertAll_rows nodeRows, tables.edges.insertAll_rows edgeRows,
    ?_, ?_⟩
  · rw [List.map_snd_zip hids.ge]
    exact hof.imp fun _ _ => readNode_of
  · rw [List.map_snd_zip hids'.ge, List.map_fst_zip hids.le, ← hof.length_eq]
    exact (Proc.mapM_ok_iff_forall₂.mp hedges).imp fun _ _ => readEdge_of

/-- A creation is atomic if its first commit already fails, or if nothing goes wrong after it:
    that commit stores the workflow by itself. -/
theorem createWorkflow_atomic_iff :
    Transaction.Atomic (Created row nodes edges tables) (createWorkflow env row nodes edges)
        tables ↔
      (∃ exc, env.workflowWrite.commit = .error exc) ∨ Buildable env nodes edges := by
  have hrow := createRow_run (s := Transaction.opened tables) env.workflowWrite row
  cases hcommit : env.workflowWrite.commit with
  | error exc =>
      rw [hcommit] at hrow
      refine iff_of_true ?_ (.inl ⟨exc, rfl⟩)
      exact (Transaction.atomic_of_error (Proc.run_bind_of_error hrow)).mpr rfl
  | ok _ =>
      rw [or_iff_right nofun]
      cases hrefresh : env.workflowWrite.refresh with
      | error exc =>
          rw [hcommit, hrefresh] at hrow
          refine iff_of_false ?_ fun h => nomatch hrefresh.symm.trans h.refreshed
          rw [createWorkflow, Transaction.atomic_of_error (Proc.run_bind_of_error hrow)]
          exact addWorkflow_ne
      | ok _ =>
          rw [hcommit, hrefresh] at hrow
          constructor
          · intro hatomic
            by_contra hnot
            exact Transaction.not_atomic_of_commit hrow addWorkflow_ne
              (buildGraph_keptOnError nodes edges)
              (mt (buildGraph_succeeds_iff hrefresh).mp hnot) hatomic
          · intro h
            obtain ⟨a, t, hrun⟩ := (buildGraph_succeeds_iff hrefresh).mpr h
            exact (Transaction.atomic_of_ok ((Proc.run_bind_of_ok hrow).trans hrun)).mpr
              (buildGraph_created rfl hrun)

end Atomicity

def emptyTables : WorkflowTables where
  workflows := .empty
  nodes := .empty
  edges := .empty

def draftRow : WorkflowRow where
  organizationId := 1
  name := "draft"
  description := none
  version := "1.0.0"
  createdBy := 1

def beginInfo : Dict Json :=
  [("name", .str "begin"), ("node_type", .str "start"), ("configuration", .dict []),
    ("timeout", .float 60)]

/-- An edge from the first node to a second one. -/
def danglingInfo : Dict Json :=
  [("source_node_index", .int 0), ("target_node_index", .int 1), ("transition_condition", .null),
    ("priority", .int 0)]

def quietCreation : CreationEnv where
  T := asciiTables
  workflowWrite := .succeeds
  flush := fun _ => .ok ()
  commit := .ok ()

/-- With one node, the edge has no target. The workflow is committed, and its node is not. -/
theorem danglingInfo_not_atomic :
    ∃ t, (createWorkflow quietCreation draftRow [beginInfo] [danglingInfo]).run
        (.opened emptyTables) = .error (.exception (.other "KeyError" "1")) t ∧
      t.committed.workflows.rows.length = 1 ∧ t.committed.nodes.rows.length = 0 ∧
      ¬ Transaction.Atomic (Created draftRow [beginInfo] [danglingInfo] emptyTables)
        (createWorkflow quietCreation draftRow [beginInfo] [danglingInfo]) emptyTables := by
  obtain ⟨t, hrun, hstored, hlost⟩ :
      ∃ t, (createWorkflow quietCreation draftRow [beginInfo] [danglingInfo]).run
          (.opened emptyTables) = .error (.exception (.other "KeyError" "1")) t ∧
        t.committed.workflows.rows.length = 1 ∧ t.committed.nodes.rows.length = 0 :=
    ⟨_, rfl, rfl, rfl⟩
  refine ⟨t, hrun, hstored, hlost, ?_⟩
  rw [Transaction.atomic_of_error hrun]
  intro hnone
  rw [hnone] at hstored
  cases hstored

end AgentCorp.Workflows
