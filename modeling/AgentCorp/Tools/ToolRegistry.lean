/-
  The registry of callable tools: a dictionary from names to entries.

  A callable is of any type `F`. What it does when it is called is not the registry's.

  * `lookup_register`, `lookup_unregister`, `lookup_updateMetadata`: what a change does to a
    lookup.
  * `Named`: every tool is under the name in its metadata, and each change keeps it so.
-/
import AgentCorp.Lib.Grouping
import AgentCorp.Python.WellKeyed

namespace AgentCorp.Tools

open AgentCorp.Python

variable {F : Type}

/-! ## Schemas -/

structure ToolParameter where
  type : String
  enum : Option (List String) := none
  minimum : Option Rat := none
  maximum : Option Rat := none
  minLength : Option Int := none
  maxLength : Option Int := none
  deriving DecidableEq, Repr

structure ToolSchema where
  properties : Dict ToolParameter := []
  required : List String := []
  additionalProperties : Bool := false
  deriving DecidableEq, Repr

structure ToolMetadata where
  id : Int
  name : String
  description : String
  parameters : ToolSchema
  version : String := "1.0.0"
  timeoutSeconds : Rat := 30
  maxRetries : Int := 1
  enabled : Bool := true
  category : Option String := none
  tags : List String := []
  deriving DecidableEq, Repr

/-! ## Rows -/

/-- A row of `tools`. -/
structure ToolRow where
  id : Int
  name : String
  deriving DecidableEq, Repr

/-- A row of `agent_tools`. -/
structure AgentTool where
  agentId : Int
  toolId : Int
  deriving DecidableEq, Repr

/-! ## Errors -/

/-- An instance of `ToolEngineError` that is no `ToolExecutionError`. -/
structure ToolEngineError where
  cls : String
  message : String
  fieldErrors : Dict String := []
  deriving DecidableEq, Repr

def ToolEngineError.toExn (error : ToolEngineError) : Exn :=
  .other error.cls error.message

/-! ## ToolRegistry -/

structure ToolEntry (F : Type) where
  metadata : ToolMetadata
  fn : F
  isAsync : Bool
  deriving DecidableEq, Repr

abbrev ToolRegistry (F : Type) := Dict (ToolEntry F)

namespace ToolRegistry

variable (registry : ToolRegistry F)

def register (metadata : ToolMetadata) (fn : F) (isAsync : Bool) : ToolRegistry F :=
  Dict.set registry metadata.name ⟨metadata, fn, isAsync⟩

def unregister (toolName : String) : ToolRegistry F :=
  registry.filter fun entry => entry.1 ≠ toolName

/-- `get_callable`. `get_metadata` raises the same. -/
def getCallable (toolName : String) : Except ToolEngineError (ToolEntry F) :=
  match registry.lookup toolName with
  | some entry => .ok entry
  | none => .error
      { cls := "ToolNotFoundError"
        message := "Tool '" ++ toolName ++ "' is not registered in the Tool Registry." }

def getMetadata (toolName : String) : Except ToolEngineError ToolMetadata :=
  (·.metadata) <$> registry.getCallable toolName

def isRegistered (toolName : String) : Bool :=
  (registry.lookup toolName).isSome

/-- A change of the metadata of one entry, if it is there. -/
def updateMetadata (toolName : String) (f : ToolMetadata → ToolMetadata) : ToolRegistry F :=
  registry.map fun row =>
    if row.1 = toolName then (row.1, { row.2 with metadata := f row.2.metadata }) else row

def syncDbId (toolName : String) (dbId : Int) : ToolRegistry F :=
  registry.updateMetadata toolName fun metadata => { metadata with id := dbId }

def setEnabled (toolName : String) (enabled : Bool) : ToolRegistry F :=
  registry.updateMetadata toolName fun metadata => { metadata with enabled := enabled }

/-! ### Lookups -/

variable {registry}

theorem lookup_register (metadata : ToolMetadata) (fn : F) (isAsync : Bool) (toolName : String) :
    (registry.register metadata fn isAsync).lookup toolName =
      if toolName = metadata.name then some ⟨metadata, fn, isAsync⟩
      else registry.lookup toolName :=
  lookup_set registry metadata.name _ toolName

theorem lookup_unregister (name toolName : String) :
    (registry.unregister name).lookup toolName =
      if toolName = name then none else registry.lookup toolName := by
  unfold unregister
  rw [Grouping.lookup_filter_keys (fun key => decide (key ≠ name))]
  by_cases h : toolName = name <;> simp [h]

theorem lookup_updateMetadata (name toolName : String) (f : ToolMetadata → ToolMetadata) :
    (registry.updateMetadata name f).lookup toolName =
      if toolName = name then
        (registry.lookup name).map fun entry => { entry with metadata := f entry.metadata }
      else registry.lookup toolName :=
  Table.lookup_map_at registry name (fun entry => { entry with metadata := f entry.metadata })
    toolName

theorem isRegistered_iff {toolName : String} :
    registry.isRegistered toolName = true ↔ ∃ entry, registry.lookup toolName = some entry :=
  Option.isSome_iff_exists

theorem getCallable_ok {toolName : String} {entry : ToolEntry F}
    (h : registry.lookup toolName = some entry) : registry.getCallable toolName = .ok entry := by
  unfold getCallable
  rw [h]

theorem getMetadata_ok {toolName : String} {entry : ToolEntry F}
    (h : registry.lookup toolName = some entry) :
    registry.getMetadata toolName = .ok entry.metadata := by
  unfold getMetadata
  rw [getCallable_ok h]
  rfl

/-! ### What every change keeps -/

/-- Every tool is registered under the name in its metadata. -/
def Named (registry : ToolRegistry F) : Prop :=
  ∀ toolName entry, registry.lookup toolName = some entry → entry.metadata.name = toolName

theorem Named.register (h : Named registry) (metadata : ToolMetadata) (fn : F) (isAsync : Bool) :
    Named (registry.register metadata fn isAsync) := by
  intro toolName entry hentry
  rw [lookup_register] at hentry
  split at hentry
  · next hname =>
      obtain rfl := Option.some.inj hentry
      exact hname.symm
  · exact h toolName entry hentry

theorem Named.unregister (h : Named registry) (name : String) :
    Named (registry.unregister name) := by
  intro toolName entry hentry
  rw [lookup_unregister] at hentry
  split at hentry
  · cases hentry
  · exact h toolName entry hentry

theorem Named.updateMetadata (h : Named registry) (name : String) {f : ToolMetadata → ToolMetadata}
    (hf : ∀ metadata, (f metadata).name = metadata.name) :
    Named (registry.updateMetadata name f) := by
  intro toolName entry hentry
  rw [lookup_updateMetadata] at hentry
  split at hentry
  · next hname =>
      obtain ⟨old, hold, rfl⟩ := Option.map_eq_some_iff.mp hentry
      rw [hf, h name old hold, hname]
  · exact h toolName entry hentry

theorem Named.syncDbId (h : Named registry) (name : String) (dbId : Int) :
    Named (registry.syncDbId name dbId) := by
  unfold ToolRegistry.syncDbId
  exact h.updateMetadata name fun _ => rfl

theorem Named.setEnabled (h : Named registry) (name : String) (enabled : Bool) :
    Named (registry.setEnabled name enabled) := by
  unfold ToolRegistry.setEnabled
  exact h.updateMetadata name fun _ => rfl

theorem isRegistered_updateMetadata (name toolName : String) (f : ToolMetadata → ToolMetadata) :
    (registry.updateMetadata name f).isRegistered toolName = registry.isRegistered toolName := by
  unfold isRegistered
  rw [lookup_updateMetadata]
  split
  · next h => rw [Option.isSome_map, h]
  · rfl

theorem isRegistered_syncDbId (name : String) (dbId : Int) (toolName : String) :
    (registry.syncDbId name dbId).isRegistered toolName = registry.isRegistered toolName := by
  unfold syncDbId
  exact isRegistered_updateMetadata name toolName _

end ToolRegistry

end AgentCorp.Tools
