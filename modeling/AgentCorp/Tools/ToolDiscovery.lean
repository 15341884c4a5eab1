/-
  Discovery: the tools that the model is offered, next to those that it may call.

  Discovery walks from the assignments of an agent to the tools of the database and to the
  registry, and validation the other way round. Both are read over the same tables, after any
  changes of the registry and the assignments.

  * `discoverFrom_spec`: what is offered.
  * `discoverAgentTools_shown`: a chat is told the same.
  * `resolveTool_cases`, `passes_iff`: what may be called.
  * `offered_iff_passes_iff`: the two agree exactly if the tool is not an assigned one that is
    disabled.
-/
import AgentCorp.Chat.Prompt
import AgentCorp.Tools.ToolValidator

namespace AgentCorp.Tools

open AgentCorp.Python

variable {F : Type}

/-! ## Tables -/

/-- Under a unique key, what is in the list is what is found. -/
theorem find?_eq_some_of_unique {α κ : Type} [DecidableEq κ] {key : α → κ} {l : List α}
    (hunique : ∀ a ∈ l, ∀ b ∈ l, key a = key b → a = b) {k : κ} {a : α} :
    l.find? (fun a => key a = k) = some a ↔ a ∈ l ∧ key a = k := by
  constructor
  · intro h
    exact ⟨List.mem_of_find?_eq_some h, by simpa using List.find?_some h⟩
  · intro ⟨ha, hkey⟩
    cases hfound : l.find? (fun a => key a = k) with
    | none => exact absurd hkey (by simpa using List.find?_eq_none.mp hfound a ha)
    | some b =>
        have hb : key b = k := by simpa using List.find?_some hfound
        rw [hunique b (List.mem_of_find?_eq_some hfound) a ha (hb.trans hkey.symm)]

/-- The tables `tools`, whose ids and names are unique, and `agent_tools`. -/
structure ToolTables where
  tools : List ToolRow
  assignments : List AgentTool
  uniqueId : ∀ row ∈ tools, ∀ row' ∈ tools, row.id = row'.id → row = row'
  uniqueName : ∀ row ∈ tools, ∀ row' ∈ tools, row.name = row'.name → row = row'

namespace ToolTables

variable (tables : ToolTables)

/-- `ToolRepository.get`. -/
def getTool (toolId : Int) : Option ToolRow :=
  tables.tools.find? (·.id = toolId)

/-- `ToolRepository.get_by_name`. -/
def getByName (name : String) : Option ToolRow :=
  tables.tools.find? (·.name = name)

/-- `AgentToolRepository.get_assignment`. -/
def getAssignment (agentId toolId : Int) : Option AgentTool :=
  tables.assignments.find? fun row => row.agentId = agentId && row.toolId = toolId

/-- `AgentToolRepository.get_by_agent`. -/
def getByAgent (agentId : Int) : List AgentTool :=
  tables.assignments.filter (·.agentId = agentId)

/-- The agent is assigned the tool of that name. -/
def Assigned (agentId : Int) (name : String) : Prop :=
  ∃ row ∈ tables.tools, row.name = name ∧
    ∃ assignment ∈ tables.assignments, assignment.agentId = agentId ∧ assignment.toolId = row.id

variable {tables}

theorem getTool_eq_some {toolId : Int} {row : ToolRow} :
    tables.getTool toolId = some row ↔ row ∈ tables.tools ∧ row.id = toolId :=
  find?_eq_some_of_unique tables.uniqueId

theorem getByName_eq_some {name : String} {row : ToolRow} :
    tables.getByName name = some row ↔ row ∈ tables.tools ∧ row.name = name :=
  find?_eq_some_of_unique tables.uniqueName

theorem getAssignment_isSome {agentId toolId : Int} :
    (tables.getAssignment agentId toolId).isSome ↔
      ∃ assignment ∈ tables.assignments, assignment.agentId = agentId ∧
        assignment.toolId = toolId := by
  unfold getAssignment
  rw [List.find?_isSome]
  simp

end ToolTables

/-! ## Changes -/

/-- A change of the registry or of the assignments. -/
inductive ToolChange (F : Type) where
  | register (metadata : ToolMetadata) (fn : F) (isAsync : Bool)
  | unregister (toolName : String)
  | setEnabled (toolName : String) (enabled : Bool)
  | syncDbId (toolName : String) (dbId : Int)
  | assignTool (agentId toolId : Int)
  | removeTool (agentId toolId : Int)

namespace ToolTables

variable (tables : ToolTables)

/-- `AgentToolService.assign_tool`. A tool that is assigned already is a `ValueError`. -/
def assignTool (agentId toolId : Int) : ToolTables :=
  if (tables.getAssignment agentId toolId).isSome then tables
  else { tables with assignments := tables.assignments ++ [⟨agentId, toolId⟩] }

/-- `AgentToolService.remove_tool`. -/
def removeTool (agentId toolId : Int) : ToolTables :=
  { tables with assignments :=
      tables.assignments.filter fun row => !(row.agentId = agentId && row.toolId = toolId) }

end ToolTables

def ToolChange.apply (w : ToolState F ToolTables) : ToolChange F → ToolState F ToolTables
  | .register metadata fn isAsync => { w with registry := w.registry.register metadata fn isAsync }
  | .unregister toolName => { w with registry := w.registry.unregister toolName }
  | .setEnabled toolName enabled => { w with registry := w.registry.setEnabled toolName enabled }
  | .syncDbId toolName dbId => { w with registry := w.registry.syncDbId toolName dbId }
  | .assignTool agentId toolId => { w with state := w.state.assignTool agentId toolId }
  | .removeTool agentId toolId => { w with state := w.state.removeTool agentId toolId }

/-- The state after some changes, from an empty registry. -/
def afterChanges (tables : ToolTables) (changes : List (ToolChange F)) : ToolState F ToolTables :=
  changes.foldl ToolChange.apply ⟨[], tables⟩

theorem named_apply {w : ToolState F ToolTables} (h : w.registry.Named) (change : ToolChange F) :
    (change.apply w).registry.Named := by
  cases change with
  | register metadata fn isAsync => exact h.register metadata fn isAsync
  | unregister toolName => exact h.unregister toolName
  | setEnabled toolName enabled => exact h.setEnabled toolName enabled
  | syncDbId toolName dbId => exact h.syncDbId toolName dbId
  | assignTool agentId toolId => exact h
  | removeTool agentId toolId => exact h

theorem named_foldl (changes : List (ToolChange F)) {w : ToolState F ToolTables}
    (h : w.registry.Named) : (changes.foldl ToolChange.apply w).registry.Named := by
  induction changes generalizing w with
  | nil => exact h
  | cons change changes ih => exact ih (named_apply h change)

theorem named_afterChanges (tables : ToolTables) (changes : List (ToolChange F)) :
    (afterChanges tables changes).registry.Named :=
  named_foldl changes fun _ _ h => by cases h

/-! ## ToolExecutionService.discover_agent_tools -/

/-- The loop over the assignments. -/
def discoverFrom : List AgentTool → Py (ToolState F ToolTables) (List ToolMetadata)
  | [] => return []
  | assignment :: rest => do
      match (← get).state.getTool assignment.toolId with
      | none => discoverFrom rest
      | some row =>
          if (← get).registry.isRegistered row.name then
            modify fun w => { w with registry := w.registry.syncDbId row.name row.id }
            let metadata ← Py.ofResult
              (((← get).registry.getMetadata row.name).mapError ToolEngineError.toExn)
            return metadata :: (← discoverFrom rest)
          else discoverFrom rest

def discoverAgentTools (agentId : Int) : Py (ToolState F ToolTables) (List ToolMetadata) := do
  discoverFrom ((← get).state.getByAgent agentId)

/-- The repositories of the validator, over the tables. -/
def tableRepositories : ToolRepositories F ToolTables where
  getByName name := do return (← get).state.getByName name
  getAssignment agentId toolId := do return (← get).state.getAssignment agentId toolId

/-! ## What is offered -/

/-- One round of the loop. -/
theorem run_discoverFrom_cons (assignment : AgentTool) (rest : List AgentTool)
    (w : ToolState F ToolTables) :
    (discoverFrom (assignment :: rest)).run w =
      match w.state.getTool assignment.toolId with
      | none => (discoverFrom rest).run w
      | some row =>
          let synced := w.registry.syncDbId row.name row.id
          if w.registry.isRegistered row.name then
            (do
              let metadata ← Py.ofResult
                ((synced.getMetadata row.name).mapError ToolEngineError.toExn)
              return metadata :: (← discoverFrom rest) :
                Py (ToolState F ToolTables) (List ToolMetadata)).run { w with registry := synced }
          else (discoverFrom rest).run w := by
  conv_lhs => unfold discoverFrom
  simp only [EStateM.run_bind, EStateM.run_get]
  cases w.state.getTool assignment.toolId with
  | none => rfl
  | some row =>
      simp only [EStateM.run_bind, EStateM.run_get]
      split <;> rfl

/-- The loop returns, with a tool for each assignment to a registered one. -/
theorem discoverFrom_spec (rows : List AgentTool) {w : ToolState F ToolTables}
    (hnamed : w.registry.Named) :
    ∃ metas w', (discoverFrom rows).run w = .ok metas w' ∧ ∀ name,
      (∃ metadata ∈ metas, metadata.name = name) ↔
        w.registry.isRegistered name = true ∧ ∃ assignment ∈ rows, ∃ row,
          w.state.getTool assignment.toolId = some row ∧ row.name = name := by
  induction rows generalizing w with
  | nil => exact ⟨[], w, rfl, by simp⟩
  | cons assignment rest ih =>
      rw [run_discoverFrom_cons]
      cases hrow : w.state.getTool assignment.toolId with
      | none =>
          obtain ⟨metas, w', hrun, hmetas⟩ := ih hnamed
          refine ⟨metas, w', hrun, fun name => ?_⟩
          rw [hmetas name]
          simp [hrow]
      | some row =>
          by_cases hregistered : w.registry.isRegistered row.name = true
          · have hsynced := hnamed.syncDbId row.name row.id
            obtain ⟨entry, hentry⟩ := ToolRegistry.isRegistered_iff.mp
              ((ToolRegistry.isRegistered_syncDbId row.name row.id row.name).trans hregistered)
            obtain ⟨metas, w', hrun, hmetas⟩ :=
              ih (w := { w with registry := w.registry.syncDbId row.name row.id }) hsynced
            refine ⟨entry.metadata :: metas, w', ?_, fun name => ?_⟩
            · simp only [if_pos hregistered, ToolRegistry.getMetadata_ok hentry]
              exact Proc.run_bind_of_ok hrun
            · have hname : entry.metadata.name = row.name := hsynced row.name entry hentry
              simp only [ToolRegistry.isRegistered_syncDbId] at hmetas
              rw [List.exists_mem_cons_iff, hmetas name, hname, List.exists_mem_cons_iff]
              constructor
              · rintro (rfl | ⟨hother, hrest⟩)
                · exact ⟨hregistered, .inl ⟨row, hrow, rfl⟩⟩
                · exact ⟨hother, .inr hrest⟩
              · rintro ⟨hother, ⟨row', hrow', hname'⟩ | hrest⟩
                · rw [hrow] at hrow'
                  obtain rfl := Option.some.inj hrow'
                  exact .inl hname'
                · exact .inr ⟨hother, hrest⟩
          · obtain ⟨metas, w', hrun, hmetas⟩ := ih hnamed
            refine ⟨metas, w', ?_, fun name => ?_⟩
            · simp only [if_neg hregistered]
              exact hrun
            · rw [hmetas name, List.exists_mem_cons_iff]
              constructor
              · rintro ⟨hother, hrest⟩
                exact ⟨hother, .inr hrest⟩
              · rintro ⟨hother, ⟨row', hrow', hname'⟩ | hrest⟩
                · rw [hrow] at hrow'
                  obtain rfl := Option.some.inj hrow'
                  exact absurd (hname' ▸ hother) hregistered
                · exact ⟨hother, hrest⟩

/-- Discovery offers the agent a tool of that name. -/
def Offered (w : ToolState F ToolTables) (agentId : Int) (name : String) : Prop :=
  ∃ metas w', (discoverAgentTools agentId).run w = .ok metas w' ∧
    ∃ metadata ∈ metas, metadata.name = name

/-- What is offered is assigned and registered. -/
theorem offered_iff {w : ToolState F ToolTables} (hnamed : w.registry.Named) {agentId : Int}
    {name : String} :
    Offered w agentId name ↔
      w.registry.isRegistered name = true ∧ w.state.Assigned agentId name := by
  obtain ⟨metas, w', hrun, hmetas⟩ := discoverFrom_spec (w.state.getByAgent agentId) hnamed
  have hdiscover : (discoverAgentTools agentId).run w = .ok metas w' := hrun
  have hoffered : Offered w agentId name ↔ ∃ metadata ∈ metas, metadata.name = name := by
    constructor
    · rintro ⟨metas', w'', hrun', hname⟩
      rw [hdiscover] at hrun'
      obtain ⟨rfl, -⟩ := EStateM.Result.ok.inj hrun'
      exact hname
    · intro hname
      exact ⟨metas, w', hdiscover, hname⟩
  rw [hoffered, hmetas name]
  refine and_congr_right fun _ => ?_
  unfold ToolTables.Assigned ToolTables.getByAgent
  constructor
  · rintro ⟨assignment, hassignment, row, hrow, hname⟩
    obtain ⟨hin, hagent⟩ := List.mem_filter.mp hassignment
    obtain ⟨htools, hid⟩ := ToolTables.getTool_eq_some.mp hrow
    exact ⟨row, htools, hname, assignment, hin, by simpa using hagent, hid.symm⟩
  · rintro ⟨row, htools, hname, assignment, hin, hagent, hid⟩
    refine ⟨assignment, List.mem_filter.mpr ⟨hin, by simpa using hagent⟩, row, ?_, hname⟩
    exact ToolTables.getTool_eq_some.mpr ⟨htools, hid.symm⟩

/-! ## What a chat is told -/

section Chat

variable (describe : ToolParameter → Chat.ToolParameter)

/-- The fields of the metadata that a request carries. -/
def ToolMetadata.shown (metadata : ToolMetadata) : Chat.ToolMetadata where
  id := metadata.id
  name := metadata.name
  description := metadata.description
  properties := metadata.parameters.properties.map fun property =>
    (property.1, describe property.2)
  required := metadata.parameters.required

/-- The service that a chat asks, over these tables and this registry. -/
def toolExecutionService (w : ToolState F ToolTables) : Chat.ToolExecutionService where
  getByAgent agentId := .ok (w.state.getByAgent agentId)
  getTool toolId := .ok (w.state.getTool toolId)
  registry := w.registry.map fun row => (row.1, row.2.metadata.shown describe)

theorem lookup_toolExecutionService (w : ToolState F ToolTables) (name : String) :
    (toolExecutionService describe w).registry.lookup name =
      (w.registry.lookup name).map fun entry => entry.metadata.shown describe := by
  unfold toolExecutionService
  dsimp only
  induction w.registry with
  | nil => rfl
  | cons row rows ih =>
      rw [List.map_cons, List.lookup_cons, List.lookup_cons, ih]
      split <;> rfl

/-- The ids in the registry do not matter: each is written before it is read. -/
theorem discoverFrom_congr {s s' : Chat.ToolExecutionService} (htool : s.getTool = s'.getTool)
    (hregistry : ∀ name, (s.registry.lookup name).map ({ · with id := 0 }) =
      (s'.registry.lookup name).map ({ · with id := 0 })) (rows : List AgentTool) :
    s.discoverFrom rows = s'.discoverFrom rows := by
  induction rows with
  | nil => rfl
  | cons assignment rest ih =>
      unfold Chat.ToolExecutionService.discoverFrom
      rw [htool, ih]
      cases s'.getTool assignment.toolId with
      | error exc => rfl
      | ok found =>
          cases found with
          | none => rfl
          | some row =>
              have hsame := hregistry row.name
              dsimp only [bind, Except.bind]
              cases hm : s.registry.lookup row.name with
              | none =>
                  rw [hm, Option.map_none, eq_comm, Option.map_eq_none_iff] at hsame
                  rw [hsame]
              | some metadata =>
                  rw [hm, Option.map_some, eq_comm, Option.map_eq_some_iff] at hsame
                  obtain ⟨metadata', hm', hids⟩ := hsame
                  have hrow : { metadata with id := row.id } = { metadata' with id := row.id } :=
                    congrArg (fun m : Chat.ToolMetadata => { m with id := row.id }) hids.symm
                  rw [hm']
                  dsimp only
                  rw [hrow]

theorem lookup_syncDbId (registry : ToolRegistry F) (name : String) (dbId : Int)
    (toolName : String) :
    (registry.syncDbId name dbId).lookup toolName =
      if toolName = name then
        (registry.lookup name).map fun entry =>
          { entry with metadata := { entry.metadata with id := dbId } }
      else registry.lookup toolName :=
  ToolRegistry.lookup_updateMetadata name toolName _

theorem discoverFrom_synced (w : ToolState F ToolTables) (name : String) (dbId : Int)
    (rows : List AgentTool) :
    (toolExecutionService describe w).discoverFrom rows = (toolExecutionService describe
      { w with registry := w.registry.syncDbId name dbId }).discoverFrom rows := by
  have htool : (toolExecutionService describe w).getTool = (toolExecutionService describe
      { w with registry := w.registry.syncDbId name dbId }).getTool := rfl
  refine discoverFrom_congr htool (fun toolName => ?_) rows
  rw [lookup_toolExecutionService, lookup_toolExecutionService, lookup_syncDbId]
  split
  · next hname =>
      subst hname
      simp only [Option.map_map]
      rfl
  · rfl

/-- The loop of the chat's model gives what this one does. -/
theorem discoverFrom_shown (rows : List AgentTool) (w : ToolState F ToolTables) :
    ∃ metas w', (discoverFrom rows).run w = .ok metas w' ∧
      (toolExecutionService describe w).discoverFrom rows =
        .ok (metas.map (ToolMetadata.shown describe)) := by
  induction rows generalizing w with
  | nil => exact ⟨[], w, rfl, rfl⟩
  | cons assignment rest ih =>
      rw [run_discoverFrom_cons]
      unfold Chat.ToolExecutionService.discoverFrom
      have htool : (toolExecutionService describe w).getTool assignment.toolId =
          .ok (w.state.getTool assignment.toolId) := rfl
      rw [htool]
      dsimp only [bind, Except.bind]
      cases hrow : w.state.getTool assignment.toolId with
      | none => exact ih w
      | some row =>
          dsimp only
          rw [lookup_toolExecutionService]
          cases hentry : w.registry.lookup row.name with
          | none =>
              have hunregistered : ¬ w.registry.isRegistered row.name = true := by
                simp [ToolRegistry.isRegistered, hentry]
              rw [if_neg hunregistered]
              exact ih w
          | some entry =>
              have hregistered : w.registry.isRegistered row.name = true :=
                ToolRegistry.isRegistered_iff.mpr ⟨entry, hentry⟩
              have hsynced := lookup_syncDbId w.registry row.name row.id row.name
              rw [if_pos rfl, hentry, Option.map_some] at hsynced
              obtain ⟨metas, w', hrun, hmetas⟩ :=
                ih { w with registry := w.registry.syncDbId row.name row.id }
              rw [← discoverFrom_synced] at hmetas
              refine ⟨{ entry.metadata with id := row.id } :: metas, w', ?_, ?_⟩
              · simp only [if_pos hregistered, ToolRegistry.getMetadata_ok hsynced]
                exact Proc.run_bind_of_ok hrun
              · dsimp only [Option.map_some]
                rw [hmetas]
                rfl

/-- **One discovery.** A chat is told of the tools that discovery finds, whoever asks. -/
theorem discoverAgentTools_shown (agentId organizationId : Int)
    (currentUser : Chat.ServiceUserProxy) (w : ToolState F ToolTables) :
    ∃ metas w', (discoverAgentTools agentId).run w = .ok metas w' ∧
      (toolExecutionService describe w).discoverAgentTools agentId organizationId currentUser =
        .ok (metas.map (ToolMetadata.shown describe)) :=
  discoverFrom_shown describe (w.state.getByAgent agentId) w

end Chat

/-! ## What may be called -/

/-- The request is validated. -/
def Passes (w : ToolState F ToolTables) (request : ToolRequest) : Prop :=
  ∃ verdict w', (validateRequest tableRepositories request).run w = .ok verdict w' ∧
    verdict.valid = true

section Resolve

variable {request : ToolRequest} {agentId : Int} {w : ToolState F ToolTables}
  {entry : ToolEntry F} {row : ToolRow}

theorem resolveTool_unregistered (h : w.registry.isRegistered request.toolName = false) :
    ∃ error w', (resolveTool tableRepositories request).run w = .error (.engine error) w' := by
  unfold resolveTool
  simp [h]

theorem resolveTool_disabled (hentry : w.registry.lookup request.toolName = some entry)
    (h : entry.metadata.enabled = false) :
    ∃ error w', (resolveTool tableRepositories request).run w = .error (.engine error) w' := by
  have hregistered := ToolRegistry.isRegistered_iff.mpr ⟨entry, hentry⟩
  unfold resolveTool
  simp [hregistered, ToolRegistry.getCallable_ok hentry, Except.mapError, h]

theorem resolveTool_unknown (hentry : w.registry.lookup request.toolName = some entry)
    (henabled : entry.metadata.enabled = true) (h : w.state.getByName request.toolName = none) :
    ∃ error w', (resolveTool tableRepositories request).run w = .error (.engine error) w' := by
  have hregistered := ToolRegistry.isRegistered_iff.mpr ⟨entry, hentry⟩
  unfold resolveTool tableRepositories
  simp [hregistered, ToolRegistry.getCallable_ok hentry, Except.mapError, henabled, h]

theorem resolveTool_unassigned (hentry : w.registry.lookup request.toolName = some entry)
    (henabled : entry.metadata.enabled = true)
    (hrow : w.state.getByName request.toolName = some row)
    (hagent : request.agentId = some agentId) (h : w.state.getAssignment agentId row.id = none) :
    ∃ error w', (resolveTool tableRepositories request).run w = .error (.engine error) w' := by
  have hregistered := ToolRegistry.isRegistered_iff.mpr ⟨entry, hentry⟩
  unfold resolveTool tableRepositories
  simp [hregistered, ToolRegistry.getCallable_ok hentry, Except.mapError, henabled, hrow, hagent, h]

theorem resolveTool_ok (hentry : w.registry.lookup request.toolName = some entry)
    (henabled : entry.metadata.enabled = true)
    (hrow : w.state.getByName request.toolName = some row)
    (hagent : request.agentId = some agentId) {assignment : AgentTool}
    (h : w.state.getAssignment agentId row.id = some assignment) :
    ∃ w', (resolveTool tableRepositories request).run w = .ok entry.metadata.parameters w' := by
  have hregistered := ToolRegistry.isRegistered_iff.mpr ⟨entry, hentry⟩
  unfold resolveTool tableRepositories
  simp [hregistered, ToolRegistry.getCallable_ok hentry, Except.mapError, henabled, hrow, hagent, h]

/-- The checks before those of the arguments, for a request of an agent: they pass exactly for
    a tool that is registered, enabled and assigned. -/
theorem resolveTool_cases (hagent : request.agentId = some agentId)
    (w : ToolState F ToolTables) :
    (∃ entry w', w.registry.lookup request.toolName = some entry ∧
      entry.metadata.enabled = true ∧ w.state.Assigned agentId request.toolName ∧
      (resolveTool tableRepositories request).run w = .ok entry.metadata.parameters w') ∨
    (∃ error w', (resolveTool tableRepositories request).run w = .error (.engine error) w') ∧
      ¬ ∃ entry, w.registry.lookup request.toolName = some entry ∧
        entry.metadata.enabled = true ∧ w.state.Assigned agentId request.toolName := by
  cases hentry : w.registry.lookup request.toolName with
  | none =>
      have hunregistered : w.registry.isRegistered request.toolName = false := by
        unfold ToolRegistry.isRegistered
        rw [hentry]
        rfl
      exact .inr ⟨resolveTool_unregistered hunregistered, by simp⟩
  | some entry =>
      by_cases henabled : entry.metadata.enabled = true
      · cases hrow : w.state.getByName request.toolName with
        | none =>
            refine .inr ⟨resolveTool_unknown hentry henabled hrow, ?_⟩
            rintro ⟨_, -, -, row, hin, hname, -⟩
            rw [ToolTables.getByName_eq_some.mpr ⟨hin, hname⟩] at hrow
            cases hrow
        | some row =>
            obtain ⟨hin, hname⟩ := ToolTables.getByName_eq_some.mp hrow
            cases hassignment : w.state.getAssignment agentId row.id with
            | none =>
                refine .inr ⟨resolveTool_unassigned hentry henabled hrow hagent hassignment, ?_⟩
                rintro ⟨_, -, -, row', hin', hname', hassigned⟩
                obtain rfl := w.state.uniqueName row' hin' row hin (hname'.trans hname.symm)
                rw [← ToolTables.getAssignment_isSome, hassignment] at hassigned
                cases hassigned
            | some assignment =>
                obtain ⟨w', hrun⟩ := resolveTool_ok hentry henabled hrow hagent hassignment
                refine .inl ⟨entry, w', rfl, henabled, ⟨row, hin, hname, ?_⟩, hrun⟩
                rw [← ToolTables.getAssignment_isSome, hassignment]
                rfl
      · refine .inr ⟨resolveTool_disabled hentry (Bool.eq_false_iff.mpr henabled), ?_⟩
        rintro ⟨_, hsame, hother, -⟩
        rw [← Option.some.inj hsame] at hother
        exact henabled hother

end Resolve

/-- The arguments of the request conform to the schema of its tool, if there is one. -/
def ConformsIn (w : ToolState F ToolTables) (request : ToolRequest) : Prop :=
  ∀ entry, w.registry.lookup request.toolName = some entry →
    entry.metadata.parameters.Conforms request.arguments

/-- What may be called is registered, enabled and assigned. -/
theorem passes_iff {w : ToolState F ToolTables} {request : ToolRequest} {agentId : Int}
    (hagent : request.agentId = some agentId) (hconforms : ConformsIn w request) :
    Passes w request ↔ ∃ entry, w.registry.lookup request.toolName = some entry ∧
      entry.metadata.enabled = true ∧ w.state.Assigned agentId request.toolName := by
  rcases resolveTool_cases hagent w with
    ⟨entry, w', hentry, henabled, hassigned, hresolve⟩ | ⟨⟨error, w', hresolve⟩, hnot⟩
  · obtain ⟨verdict, hrun, hvalid⟩ := validateRequest_of_resolved hresolve
    have haccepted := (conforms_iff.mp (hconforms entry hentry)).1
    constructor
    · intro _
      exact ⟨entry, hentry, henabled, hassigned⟩
    · intro _
      exact ⟨verdict, w', hrun, hvalid.mpr haccepted⟩
  · constructor
    · rintro ⟨verdict, w'', hrun, hvalid⟩
      obtain ⟨refusal, hrefused, hinvalid⟩ := validateRequest_of_refused hresolve
      rw [hrefused] at hrun
      obtain ⟨rfl, -⟩ := EStateM.Result.ok.inj hrun
      rw [hinvalid] at hvalid
      cases hvalid
    · intro h
      exact absurd h hnot

/-! ## Offered and called -/

/-- The tool is assigned to the agent and registered, but disabled. -/
def AssignedDisabled (w : ToolState F ToolTables) (agentId : Int) (name : String) : Prop :=
  w.state.Assigned agentId name ∧
    ∃ entry, w.registry.lookup name = some entry ∧ entry.metadata.enabled = false

theorem offered_iff_passes_iff {w : ToolState F ToolTables} (hnamed : w.registry.Named)
    {request : ToolRequest} {agentId : Int} (hagent : request.agentId = some agentId)
    (hconforms : ConformsIn w request) :
    (Offered w agentId request.toolName ↔ Passes w request) ↔
      ¬ AssignedDisabled w agentId request.toolName := by
  rw [offered_iff hnamed, passes_iff hagent hconforms, ToolRegistry.isRegistered_iff]
  constructor
  · rintro hagree ⟨hassigned, entry, hentry, hdisabled⟩
    obtain ⟨other, hother, henabled, -⟩ := hagree.mp ⟨⟨entry, hentry⟩, hassigned⟩
    rw [hentry] at hother
    rw [← Option.some.inj hother, hdisabled] at henabled
    cases henabled
  · intro hdisabled
    constructor
    · rintro ⟨⟨entry, hentry⟩, hassigned⟩
      refine ⟨entry, hentry, ?_, hassigned⟩
      by_contra hnot
      exact hdisabled ⟨hassigned, entry, hentry, Bool.eq_false_iff.mpr hnot⟩
    · rintro ⟨entry, hentry, -, hassigned⟩
      exact ⟨⟨entry, hentry⟩, hassigned⟩

/-- The change disables no tool. -/
def ToolChange.KeepsEnabled : ToolChange F → Prop
  | .register metadata _ _ => metadata.enabled = true
  | .setEnabled _ enabled => enabled = true
  | _ => True

/-- Every registered tool is enabled. -/
def AllEnabled (registry : ToolRegistry F) : Prop :=
  ∀ name entry, registry.lookup name = some entry → entry.metadata.enabled = true

theorem AllEnabled.updateMetadata {registry : ToolRegistry F} (h : AllEnabled registry)
    (name : String) {f : ToolMetadata → ToolMetadata}
    (hf : ∀ metadata, metadata.enabled = true → (f metadata).enabled = true) :
    AllEnabled (registry.updateMetadata name f) := by
  intro toolName entry hentry
  rw [ToolRegistry.lookup_updateMetadata] at hentry
  split at hentry
  · obtain ⟨old, hold, rfl⟩ := Option.map_eq_some_iff.mp hentry
    exact hf old.metadata (h name old hold)
  · exact h toolName entry hentry

theorem AllEnabled.apply {w : ToolState F ToolTables} (h : AllEnabled w.registry)
    {change : ToolChange F} (hchange : change.KeepsEnabled) :
    AllEnabled (change.apply w).registry := by
  cases change with
  | register metadata fn isAsync =>
      intro toolName entry hentry
      have hentry : (w.registry.register metadata fn isAsync).lookup toolName = some entry := hentry
      rw [ToolRegistry.lookup_register] at hentry
      split at hentry
      · obtain rfl := Option.some.inj hentry
        exact hchange
      · exact h toolName entry hentry
  | unregister name =>
      intro toolName entry hentry
      have hentry : (w.registry.unregister name).lookup toolName = some entry := hentry
      rw [ToolRegistry.lookup_unregister] at hentry
      split at hentry
      · cases hentry
      · exact h toolName entry hentry
  | setEnabled name enabled =>
      show AllEnabled (w.registry.setEnabled name enabled)
      unfold ToolRegistry.setEnabled
      exact h.updateMetadata name fun _ _ => hchange
  | syncDbId name dbId =>
      show AllEnabled (w.registry.syncDbId name dbId)
      unfold ToolRegistry.syncDbId
      exact h.updateMetadata name fun _ henabled => henabled
  | assignTool agentId toolId => exact h
  | removeTool agentId toolId => exact h

theorem allEnabled_foldl (changes : List (ToolChange F)) {w : ToolState F ToolTables}
    (h : AllEnabled w.registry) (hchanges : ∀ change ∈ changes, change.KeepsEnabled) :
    AllEnabled (changes.foldl ToolChange.apply w).registry := by
  induction changes generalizing w with
  | nil => exact h
  | cons change changes ih =>
      obtain ⟨hfirst, hrest⟩ := List.forall_mem_cons.mp hchanges
      exact ih (h.apply hfirst) hrest

section Example

/-- The tool `echo` in the database. -/
def echoTables : ToolTables where
  tools := [⟨7, "echo"⟩]
  assignments := []
  uniqueId := by simp
  uniqueName := by simp

/-- It is registered, assigned, and then disabled. -/
def disableEcho : List (ToolChange Unit) :=
  [.register echoMetadata () true, .assignTool 1 7, .setEnabled "echo" false]

theorem helloRequest_conforms : echoMetadata.parameters.Conforms helloRequest.arguments where
  required := by simp [ToolSchema.HasRequired, echoMetadata, helloRequest]
  additional := by simp [ToolSchema.NoneAdditional, echoMetadata, helloRequest]
  each := by
    intro entry hentry value hvalue
    obtain rfl : entry = ("message", { type := "string", maxLength := some 1000 }) := by
      simpa [echoMetadata] using hentry
    obtain rfl : value = .str "hi" := by simpa [helloRequest] using hvalue.symm
    refine ⟨⟨fun _ => ⟨_, rfl⟩, ?_, ?_, ?_, ?_, ?_⟩, ?_, ?_, ?_, ?_, ?_⟩ <;> simp
    decide

end Example

/-- The disabled tool is offered, but a call of it is refused. -/
theorem disableEcho_offered :
    ConformsIn (afterChanges echoTables disableEcho) helloRequest ∧
      Offered (afterChanges echoTables disableEcho) 1 "echo" ∧
      ¬ Passes (afterChanges echoTables disableEcho) helloRequest := by
  refine ⟨?_, ⟨_, _, rfl, _, List.mem_singleton_self _, rfl⟩, ?_⟩
  · intro entry hentry
    obtain rfl : entry = ⟨{ echoMetadata with enabled := false }, (), true⟩ :=
      (Option.some.inj (hentry : some _ = some entry)).symm
    exact helloRequest_conforms
  · rintro ⟨verdict, w', hrun, hvalid⟩
    obtain ⟨rfl, -⟩ := EStateM.Result.ok.inj (hrun : EStateM.Result.ok _ _ = .ok verdict w')
    cases hvalid

/-- **Discovery.** After any changes of the registry and the assignments, a tool is offered
    exactly if a conforming call of it passes, except where it is assigned and disabled; in a
    run that disables no tool, the two agree in every state. -/
theorem discovery_agrees_iff (tables : ToolTables) (changes : List (ToolChange F)) :
    (∀ (agentId : Int) (request : ToolRequest), request.agentId = some agentId →
      ConformsIn (afterChanges tables changes) request →
      ((Offered (afterChanges tables changes) agentId request.toolName ↔
          Passes (afterChanges tables changes) request) ↔
        ¬ AssignedDisabled (afterChanges tables changes) agentId request.toolName)) ∧
    ((∀ change ∈ changes, change.KeepsEnabled) →
      ∀ earlier later, changes = earlier ++ later →
      ∀ (agentId : Int) (request : ToolRequest), request.agentId = some agentId →
        ConformsIn (afterChanges tables earlier) request →
        (Offered (afterChanges tables earlier) agentId request.toolName ↔
          Passes (afterChanges tables earlier) request)) := by
  have hstate : ∀ (changes : List (ToolChange F)) (agentId : Int) (request : ToolRequest),
      request.agentId = some agentId → ConformsIn (afterChanges tables changes) request →
      ((Offered (afterChanges tables changes) agentId request.toolName ↔
          Passes (afterChanges tables changes) request) ↔
        ¬ AssignedDisabled (afterChanges tables changes) agentId request.toolName) := by
    intro changes agentId request hagent hconforms
    exact offered_iff_passes_iff (named_afterChanges tables changes) hagent hconforms
  refine ⟨hstate changes, ?_⟩
  intro hchanges earlier later hsplit agentId request hagent hconforms
  apply (hstate earlier agentId request hagent hconforms).mpr
  rintro ⟨-, entry, hentry, hdisabled⟩
  have hempty : AllEnabled (F := F) [] := fun _ _ h => by cases h
  have henabled := allEnabled_foldl earlier (w := ⟨[], tables⟩) hempty
    fun change hin => hchanges change (by rw [hsplit]; exact List.mem_append_left _ hin)
  rw [henabled request.toolName entry hentry] at hdisabled
  cases hdisabled

end AgentCorp.Tools
