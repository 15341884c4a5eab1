/-
  `build_timeline`: the timeline that the observatory makes of an execution trace.

  The entries of a trace are built by `build_lifecycle_entry` and kept as their dictionaries.
  `build_timeline` reads those by key.

  * `getElem?_buildTimeline`: one line per entry, in order.
  * `line_keeps`: what is read under the key that it was written under.
  * `line_duration`: the duration is written under one key and read under another.
  * `linear_iff`: the links are those of the chain, unless a later stage has no name.
  * `buildTimeline_preserves_iff`: only the empty trace survives as it was recorded.
-/
import AgentCorp.Runtime.Execution

namespace AgentCorp.Runtime

open AgentCorp.Python

/-! ## Writing: the dictionaries of the entries -/

/-- The values of a `RuntimeLifecycleEntry`. -/
inductive TraceValue where
  | none
  | text (s : String)
  | number (x : Rat)
  | snapshot (d : PyDict)
  | texts (items : List String)
  deriving DecidableEq, Repr

namespace TraceValue

/-- `bool(value)`. -/
def truthy : TraceValue → Bool
  | none => false
  | text s => s ≠ ""
  | number x => x ≠ 0
  | snapshot d => d ≠ []
  | texts items => items ≠ []

def ofText : Option String → TraceValue
  | some s => text s
  | Option.none => none

def ofNumber : Option Rat → TraceValue
  | some x => number x
  | Option.none => none

def ofSnapshot : Option PyDict → TraceValue
  | some d => snapshot d
  | Option.none => none

end TraceValue

/-- A `RuntimeLifecycleEntry` with its `input_snapshot`. -/
structure TraceEntry extends RuntimeLifecycleEntry where
  inputSnapshot : Option PyDict := none
  deriving DecidableEq, Repr

/-- The arguments of `build_lifecycle_entry`. -/
structure LifecycleStage where
  stageName : String
  startedAt : Instant
  completedAt : Instant
  status : String
  summary : String
  confidence : Option Rat := none
  requestId : Option String := none
  traceId : Option String := none
  runtimeVersion : Option String := none
  inputSnapshot : Option PyDict := none
  outputSnapshot : Option PyDict := none
  warnings : List String := []
  errors : List String := []
  deriving DecidableEq, Repr

/-- `build_lifecycle_entry`, with all its arguments. -/
def LifecycleStage.entry (stage : LifecycleStage) : TraceEntry where
  toRuntimeLifecycleEntry :=
    { buildLifecycleEntry stage.stageName stage.startedAt stage.completedAt stage.status
        stage.summary with
      confidence := stage.confidence
      requestId := stage.requestId
      traceId := stage.traceId
      runtimeVersion := stage.runtimeVersion
      outputSnapshot := stage.outputSnapshot
      warnings := stage.warnings
      errors := stage.errors }
  inputSnapshot := stage.inputSnapshot

/-- `entry.__dict__`. -/
def TraceEntry.dict (entry : TraceEntry) : Dict TraceValue :=
  [("stage_name", .text entry.stageName),
    ("started_at", .text entry.startedAt),
    ("completed_at", .text entry.completedAt),
    ("duration", .number entry.duration),
    ("status", .text entry.status),
    ("summary", .text entry.summary),
    ("confidence", .ofNumber entry.confidence),
    ("request_id", .ofText entry.requestId),
    ("trace_id", .ofText entry.traceId),
    ("runtime_version", .ofText entry.runtimeVersion),
    ("input_snapshot", .ofSnapshot entry.inputSnapshot),
    ("output_snapshot", .ofSnapshot entry.outputSnapshot),
    ("warnings", .texts entry.warnings),
    ("errors", .texts entry.errors)]

/-- The trace of the stages, as it is stored. -/
def storedTrace (stages : List LifecycleStage) : List (Dict TraceValue) :=
  stages.map fun stage => stage.entry.dict

/-! ## Reading: build_timeline -/

/-- `item.get(key, default)`. -/
def traceGetD (item : Dict TraceValue) (key : String) (default : TraceValue) : TraceValue :=
  (item.lookup key).getD default

/-- `item.get(key)`. -/
def traceGet (item : Dict TraceValue) (key : String) : TraceValue :=
  traceGetD item key .none

/-- An entry of the timeline, which is returned as its `__dict__`. -/
structure TimelineEntry where
  stageName : TraceValue
  startedAt : TraceValue
  completedAt : TraceValue
  durationSeconds : TraceValue
  parentStage : TraceValue
  childStages : List TraceValue
  status : TraceValue
  summary : TraceValue
  raw : Dict TraceValue
  deriving DecidableEq, Repr

/-- The names of the stages in `trace[index + 1 : index + 2]`. -/
def childStages (trace : List (Dict TraceValue)) (index : Nat) : List TraceValue :=
  (((trace.drop (index + 1)).take 1).map fun other => traceGet other "stage_name").filter
    TraceValue.truthy

/-- `trace[index - 1].get("stage_name") if index > 0 else None`. -/
def parentStage (trace : List (Dict TraceValue)) (index : Nat) : TraceValue :=
  if 0 < index then
    match (trace)[index - 1]? with
    | some previous => traceGet previous "stage_name"
    | none => .none
  else .none

/-- The entry for the item at one index of the trace. -/
def timelineEntry (trace : List (Dict TraceValue)) (item : Dict TraceValue) (index : Nat) :
    TimelineEntry where
  stageName := traceGetD item "stage_name" (.text "unknown")
  startedAt := traceGet item "started_at"
  completedAt := traceGet item "completed_at"
  durationSeconds := traceGet item "duration_seconds"
  parentStage := parentStage trace index
  childStages := childStages trace index
  status := traceGet item "status"
  summary := traceGet item "summary"
  raw := item

def buildTimeline (trace : List (Dict TraceValue)) : List TimelineEntry :=
  trace.zipIdx.map fun (item, index) => timelineEntry trace item index

/-! ## What a timeline should keep -/

/-- The fields of an entry that a timeline shows as well. -/
structure Keeps (entry : TraceEntry) (line : TimelineEntry) : Prop where
  stageName : line.stageName = .text entry.stageName
  startedAt : line.startedAt = .text entry.startedAt
  completedAt : line.completedAt = .text entry.completedAt
  status : line.status = .text entry.status

/-- The parent of a line is the stage before it, its only child the stage after it. -/
structure LinearLinks (entries : List TraceEntry) (lines : List TimelineEntry) : Prop where
  first : ∀ line ∈ lines.head?, line.parentStage = .none
  parents : ∀ (i : Nat) entry line, entries[i]? = some entry → lines[i + 1]? = some line →
    line.parentStage = .text entry.stageName
  children : ∀ (i : Nat) entry line, entries[i + 1]? = some entry → lines[i]? = some line →
    line.childStages = [.text entry.stageName]
  last : ∀ line ∈ lines.getLast?, line.childStages = []

/-- The timeline preserves the entries: their order, their fields, durations included, and the
    chain that they are. -/
structure PreservesTrace (entries : List TraceEntry) (lines : List TimelineEntry) : Prop where
  keeps : List.Forall₂ Keeps entries lines
  durations : lines.map TimelineEntry.durationSeconds =
    entries.map fun entry => .number entry.duration
  linear : LinearLinks entries lines

/-! ## What it keeps -/

theorem getElem?_buildTimeline (trace : List (Dict TraceValue)) (i : Nat) :
    (buildTimeline trace)[i]? = (trace)[i]?.map fun item => timelineEntry trace item i := by
  simp only [buildTimeline, List.getElem?_map, List.getElem?_zipIdx, Option.map_map]
  rw [Nat.zero_add]
  rfl

theorem length_buildTimeline (trace : List (Dict TraceValue)) :
    (buildTimeline trace).length = trace.length := by
  rw [buildTimeline, List.length_map, List.length_zipIdx]

section Stored

variable (stages : List LifecycleStage)

/-- The line of the stage at one index. -/
def lineOf (stage : LifecycleStage) (i : Nat) : TimelineEntry :=
  timelineEntry (storedTrace stages) stage.entry.dict i

theorem getElem?_timeline (i : Nat) :
    (buildTimeline (storedTrace stages))[i]? = stages[i]?.map fun stage => lineOf stages stage i := by
  rw [getElem?_buildTimeline, storedTrace, List.getElem?_map, Option.map_map]
  rfl

theorem line_keeps (stage : LifecycleStage) (i : Nat) : Keeps stage.entry (lineOf stages stage i) where
  stageName := rfl
  startedAt := rfl
  completedAt := rfl
  status := rfl

/-- `duration_seconds` is no key of an entry. -/
theorem line_duration (stage : LifecycleStage) (i : Nat) :
    (lineOf stages stage i).durationSeconds = .none :=
  rfl

theorem parentStage_zero (trace : List (Dict TraceValue)) : parentStage trace 0 = .none :=
  rfl

theorem parentStage_succ {i : Nat} {stage : LifecycleStage} (h : stages[i]? = some stage) :
    parentStage (storedTrace stages) (i + 1) = .text stage.stageName := by
  have hprevious : (storedTrace stages)[i]? = some stage.entry.dict := by
    rw [storedTrace, List.getElem?_map, h]
    rfl
  rw [parentStage, if_pos (by omega), Nat.add_sub_cancel, hprevious]
  rfl

/-- A stage has the one after it as its child, if that one has a name. -/
theorem childStages_stored (i : Nat) :
    childStages (storedTrace stages) i =
      match stages[i + 1]? with
      | some next => if next.stageName = "" then [] else [.text next.stageName]
      | none => [] := by
  rw [childStages, List.take_one, List.head?_drop, storedTrace, List.getElem?_map]
  cases stages[i + 1]? with
  | none => rfl
  | some next =>
      have hname : traceGet next.entry.dict "stage_name" = .text next.stageName := rfl
      simp only [Option.map_some, Option.toList_some, List.map_singleton, hname]
      by_cases hempty : next.stageName = ""
      · rw [if_pos hempty, hempty]
        rfl
      · rw [if_neg hempty]
        exact List.filter_cons_of_pos (decide_eq_true hempty)

/-- The entries that the trace was made of. -/
def entriesOf : List TraceEntry :=
  stages.map LifecycleStage.entry

theorem getElem?_entriesOf (i : Nat) :
    (entriesOf stages)[i]? = stages[i]?.map LifecycleStage.entry :=
  List.getElem?_map

theorem keeps_buildTimeline :
    List.Forall₂ Keeps (entriesOf stages) (buildTimeline (storedTrace stages)) := by
  rw [List.forall₂_iff_get]
  refine ⟨?_, fun i hentry hline => ?_⟩
  · rw [length_buildTimeline, entriesOf, storedTrace, List.length_map, List.length_map]
  · have hstage : i < stages.length := by simpa [entriesOf] using hentry
    have hget := getElem?_timeline stages i
    rw [List.getElem?_eq_getElem hline, List.getElem?_eq_getElem hstage, Option.map_some,
      Option.some.injEq] at hget
    have hentries : (entriesOf stages).get ⟨i, hentry⟩ = stages[i].entry := by
      simp [entriesOf]
    rw [hentries, List.get_eq_getElem, hget]
    exact line_keeps stages stages[i] i

theorem durations_buildTimeline :
    (buildTimeline (storedTrace stages)).map TimelineEntry.durationSeconds =
      stages.map fun _ => .none := by
  apply List.ext_getElem?
  intro i
  rw [List.getElem?_map, getElem?_timeline, List.getElem?_map, Option.map_map]
  rfl

/-- The children are those of the chain, unless the name of one is empty. -/
theorem linear_iff :
    LinearLinks (entriesOf stages) (buildTimeline (storedTrace stages)) ↔
      ∀ stage ∈ stages.tail, stage.stageName ≠ "" := by
  constructor
  · intro h stage hstage hempty
    obtain ⟨i, hi, hget⟩ := List.mem_iff_getElem.mp hstage
    have hnext : stages[i + 1]? = some stage := by
      rw [← hget, List.getElem_tail, List.getElem?_eq_getElem]
    obtain ⟨hlt, -⟩ := List.getElem?_eq_some_iff.mp hnext
    have hprevious : stages[i]? = some stages[i] := List.getElem?_eq_getElem (by omega)
    have hchild := h.children i stage.entry (lineOf stages stages[i] i)
      (by rw [getElem?_entriesOf, hnext]; rfl) (by rw [getElem?_timeline, hprevious]; rfl)
    have hnone : childStages (storedTrace stages) i = [] := by
      rw [childStages_stored, hnext]
      exact if_pos hempty
    simp [lineOf, timelineEntry, hnone] at hchild
  · intro hnames
    constructor
    · intro line hline
      rw [List.head?_eq_getElem?, getElem?_timeline, Option.mem_def, Option.map_eq_some_iff] at hline
      obtain ⟨stage, -, rfl⟩ := hline
      exact parentStage_zero (storedTrace stages)
    · intro i entry line hentry hline
      rw [getElem?_entriesOf, Option.map_eq_some_iff] at hentry
      rw [getElem?_timeline, Option.map_eq_some_iff] at hline
      obtain ⟨stage, hstage, rfl⟩ := hentry
      obtain ⟨next, -, rfl⟩ := hline
      exact parentStage_succ stages hstage
    · intro i entry line hentry hline
      rw [getElem?_entriesOf, Option.map_eq_some_iff] at hentry
      rw [getElem?_timeline, Option.map_eq_some_iff] at hline
      obtain ⟨next, hnext, rfl⟩ := hentry
      obtain ⟨stage, -, rfl⟩ := hline
      have hmem : next ∈ stages.tail := by
        refine List.mem_of_getElem? (i := i) ?_
        rw [List.getElem?_tail, hnext]
      show childStages (storedTrace stages) i = _
      rw [childStages_stored, hnext]
      exact if_neg (hnames next hmem)
    · intro line hline
      rw [List.getLast?_eq_getElem?, getElem?_timeline, Option.mem_def,
        Option.map_eq_some_iff] at hline
      obtain ⟨stage, hstage, rfl⟩ := hline
      obtain ⟨hlt, -⟩ := List.getElem?_eq_some_iff.mp hstage
      have hend : stages.length ≤ (buildTimeline (storedTrace stages)).length - 1 + 1 := by
        rw [length_buildTimeline, storedTrace, List.length_map]
        omega
      show childStages (storedTrace stages) _ = _
      rw [childStages_stored, List.getElem?_eq_none hend]

/-- Only the empty trace is preserved, as no duration is. -/
theorem buildTimeline_preserves_iff :
    PreservesTrace (entriesOf stages) (buildTimeline (storedTrace stages)) ↔ stages = [] := by
  constructor
  · intro h
    have hdurations := h.durations
    rw [durations_buildTimeline, entriesOf] at hdurations
    match stages with
    | [] => rfl
    | stage :: _ => simp at hdurations
  · rintro rfl
    refine ⟨keeps_buildTimeline [], rfl, (linear_iff []).mpr ?_⟩
    simp

end Stored

/-- The first entry of a request: it took one second. -/
def requestReceived : LifecycleStage where
  stageName := "Request Received"
  startedAt := ⟨0, "2026-08-02T00:00:00+00:00"⟩
  completedAt := ⟨1000000, "2026-08-02T00:00:01+00:00"⟩
  status := "COMPLETED"
  summary := "Request accepted."

/-- The second that the request took is not in the timeline. -/
theorem not_preserves_requestReceived :
    requestReceived.entry.duration = 1 ∧
      (buildTimeline (storedTrace [requestReceived])).map TimelineEntry.durationSeconds =
        [.none] ∧
      ¬ PreservesTrace (entriesOf [requestReceived])
        (buildTimeline (storedTrace [requestReceived])) := by
  refine ⟨?_, rfl, fun h => ?_⟩
  · norm_num [requestReceived, LifecycleStage.entry, buildLifecycleEntry]
  · have hdurations := h.durations
    simp [durations_buildTimeline, entriesOf] at hdurations

end AgentCorp.Runtime
