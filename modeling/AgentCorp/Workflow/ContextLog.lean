/-
  The context of a workflow execution as a log of its steps.

  Outputs and the status share one dictionary, and the history is appended to in place. A node
  named `status` overwrites the status. A step that leaves the variables as they are, since its
  node has run before with an equal output and the last step ended alike, changes nothing but
  the list that the loaded value holds as well; so the column is not written.

  * `storedContext_of_shape`: when the column is written.
  * `faithful_step_iff`: the steps after which the context still is a log.
  * `contextLog_iff`: the runs in which it is one after every step.
-/
import AgentCorp.Python.WellKeyed
import AgentCorp.Workflow.Completion

namespace AgentCorp.Workflows

open AgentCorp.Python AgentCorp.Executions WhileLoop

/-! ## Logs -/

/-- A node and the output that was merged for it. -/
abbrev LogEntry := WorkflowNode × Dict Json

/-- The status that an output stands for. -/
def statusText (output : Dict Json) : String :=
  if (getJson output "success").truthy then "completed" else "failed"

/-- The latest output of a node of this name. -/
def latestOutput (log : List LogEntry) (name : String) : Option (Dict Json) :=
  (log.reverse.find? fun entry => entry.1.name = name).map Prod.snd

/-- The variables of a context. -/
def variablesOf (context : Dict Json) : Dict Json :=
  asDict (getJson context "variables")

/-- The context says how the last step ended, has the latest output of every name, and lists all
    steps. -/
structure FaithfulContext (context : Dict Json) (log : List LogEntry) : Prop where
  status : ∀ last, log.getLast? = some last →
    getJson (variablesOf context) "status" = .str (statusText last.2)
  latest : ∀ name output, latestOutput log name = some output →
    (variablesOf context).lookup name = some (.dict output)
  history : context.lookup "node_history" =
    some (.list (log.map fun entry => historyEntry entry.1 entry.2))

/-- The last step ended alike, and the node has run before with an equal output. -/
def Repeats (log : List LogEntry) (node : WorkflowNode) (output : Dict Json) : Prop :=
  (∃ last, log.getLast? = some last ∧ statusText last.2 = statusText output) ∧
    ∃ earlier, latestOutput log node.name = some earlier ∧ eqJson output earlier = true

theorem latestOutput_concat (log : List LogEntry) (entry : LogEntry) (name : String) :
    latestOutput (log ++ [entry]) name =
      if entry.1.name = name then some entry.2 else latestOutput log name := by
  unfold latestOutput
  rw [List.reverse_concat, List.find?_cons]
  by_cases hname : entry.1.name = name
  · simp [hname]
  · simp [hname]

theorem latestOutput_isSome_iff {log : List LogEntry} {name : String} :
    (latestOutput log name).isSome ↔ ∃ entry ∈ log, entry.1.name = name := by
  unfold latestOutput
  simp

/-! ## Equal dictionaries -/

theorem eqEntries_iff {entries d : Dict Json} :
    Json.eqEntries entries d = true ↔
      ∀ entry ∈ entries, ∃ value, d.lookup entry.1 = some value ∧ entry.2.eq value = true := by
  induction entries with
  | nil => simp [Json.eqEntries]
  | cons entry entries ih =>
      obtain ⟨key, value⟩ := entry
      rw [Json.eqEntries, Bool.and_eq_true, ih, List.forall_mem_cons]
      refine and_congr_left fun _ => ?_
      cases d.lookup key <;> simp

theorem mem_of_lookup {α : Type} {d : Dict α} {key : String} {value : α}
    (h : d.lookup key = some value) : (key, value) ∈ d := by
  obtain ⟨before, after, rfl, -⟩ := List.lookup_eq_some_iff.mp h
  simp

theorem length_set {α : Type} {d : Dict α} {key : String} (h : (d.lookup key).isSome) (value : α) :
    (d.set key value).length = d.length := by
  induction d with
  | nil => cases h
  | cons entry d ih =>
      obtain ⟨k, v⟩ := entry
      unfold Dict.set
      split
      · rfl
      · next hne =>
          rw [Table.lookup_cons, if_neg (Ne.symm hne)] at h
          rw [List.length_cons, List.length_cons, ih h]

section Variables

variable {vars : Dict Json} {node : WorkflowNode} {output : Dict Json}

theorem lookup_mergeVariables (key : String) :
    (mergeVariables vars node output).lookup key =
      if key = node.name then some (.dict output)
      else if key = "status" then some (.str (statusText output)) else vars.lookup key := by
  unfold mergeVariables
  rw [lookup_set, lookup_set]
  rfl

theorem wellKeyed_mergeVariables (hvars : WellKeyedDict vars)
    (houtput : (Json.dict output).WellKeyed) :
    WellKeyedDict (mergeVariables vars node output) := by
  have hstatus : (Json.str (statusText output)).WellKeyed := by simp [Json.WellKeyed]
  exact wellKeyed_set (wellKeyed_set hvars hstatus) houtput

/-- Merging leaves the variables equal to what they were if the status and the output of the name
    were equal. -/
theorem eqJson_mergeVariables_iff (hvars : WellKeyedDict vars)
    (houtput : (Json.dict output).WellKeyed) (hname : node.name ≠ "status") :
    eqJson (mergeVariables vars node output) vars = true ↔
      (∃ status, vars.lookup "status" = some status ∧
        (Json.str (statusText output)).eq status = true) ∧
      ∃ earlier, vars.lookup node.name = some earlier ∧ (Json.dict output).eq earlier = true := by
  have hmerged : WellKeyedDict (mergeVariables vars node output) :=
    wellKeyed_mergeVariables hvars houtput
  unfold eqJson
  rw [Json.eq, Bool.and_eq_true, eqEntries_iff]
  constructor
  · rintro ⟨-, hentries⟩
    have hstatus : (mergeVariables vars node output).lookup "status" =
        some (.str (statusText output)) := by
      rw [lookup_mergeVariables, if_neg (Ne.symm hname), if_pos rfl]
    have hlatest : (mergeVariables vars node output).lookup node.name = some (.dict output) := by
      rw [lookup_mergeVariables, if_pos rfl]
    exact ⟨hentries _ (mem_of_lookup hstatus), hentries _ (mem_of_lookup hlatest)⟩
  · rintro ⟨⟨status, hstatus, heqStatus⟩, ⟨earlier, hearlier, heqEarlier⟩⟩
    have hlength : (mergeVariables vars node output).length = vars.length := by
      have hset : ((vars.set "status" (.str (statusText output))).lookup node.name).isSome := by
        rw [lookup_set, if_neg hname, hearlier]
        rfl
      exact (length_set hset _).trans (length_set (by rw [hstatus]; rfl) _)
    refine ⟨by rw [hlength, beq_self_eq_true], fun entry hentry => ?_⟩
    have hlookup := lookup_of_mem hmerged.1 hentry
    rw [lookup_mergeVariables] at hlookup
    split at hlookup
    · next hkey =>
        rw [← Option.some.inj hlookup, hkey]
        exact ⟨earlier, hearlier, heqEarlier⟩
    · split at hlookup
      · next hkey =>
          rw [← Option.some.inj hlookup, hkey]
          exact ⟨status, hstatus, heqStatus⟩
      · exact ⟨entry.2, hlookup, Json.eq_self _ (wellKeyed_of_lookup hvars hlookup)⟩

/-- A name that is new makes a difference. -/
theorem lookup_of_eqJson (h : eqJson (mergeVariables vars node output) vars = true) :
    ∃ earlier, vars.lookup node.name = some earlier := by
  have hlatest : (mergeVariables vars node output).lookup node.name = some (.dict output) := by
    rw [lookup_mergeVariables, if_pos rfl]
  unfold eqJson at h
  rw [Json.eq, Bool.and_eq_true, eqEntries_iff] at h
  obtain ⟨earlier, hearlier, -⟩ := h.2 _ (mem_of_lookup hlatest)
  exact ⟨earlier, hearlier⟩

end Variables

/-! ## The shape of a context -/

/-- A context with these variables and, after the first step, with this history. -/
def contextOf (vars : Dict Json) (history : Option (List Json)) : Dict Json :=
  ("variables", .dict vars) :: (history.map fun items => ("node_history", .list items)).toList

/-- What every context of a run is made of, written or not. -/
structure Shape (context : Dict Json) (log : List LogEntry) (vars : Dict Json)
    (history : Option (List Json)) : Prop where
  eq : context = contextOf vars history
  keyed : WellKeyedDict vars
  items : ∀ items, history = some items → Json.WellKeyedItems items
  started : history = none ↔ log = []
  names : ∀ key, (vars.lookup key).isSome ↔ key = "status" ∨ ∃ entry ∈ log, entry.1.name = key

theorem variablesOf_contextOf (vars : Dict Json) (history : Option (List Json)) :
    variablesOf (contextOf vars history) = vars := rfl

theorem lookup_contextOf (vars : Dict Json) (history : Option (List Json)) :
    (contextOf vars history).lookup "node_history" = history.map Json.list := by
  cases history <;> rfl

section Step

variable {vars : Dict Json} {history : Option (List Json)} {node : WorkflowNode}
  {output : Dict Json}

theorem merge_contextOf :
    mergeExecutionContext (contextOf vars history) node output =
      contextOf (mergeVariables vars node output)
        (some (history.getD [] ++ [historyEntry node output])) := by
  cases history <;> rfl

theorem eqJson_contextOf {vars' : Dict Json} {items : List Json}
    (hitems : Json.WellKeyedItems items) :
    eqJson (contextOf vars' (some items)) (contextOf vars (some items)) = eqJson vars' vars := by
  have hself : (Json.list items).eq (.list items) = true := Json.eq_self _ hitems
  unfold eqJson contextOf
  rw [Json.eq]
  simp [Json.eqEntries, List.lookup_cons, hself]

theorem eqJson_contextOf_none {vars' : Dict Json} {items : List Json} :
    eqJson (contextOf vars' (some items)) (contextOf vars none) = false := by
  unfold eqJson contextOf
  rw [Json.eq]
  simp

/-- The column is written unless there was a history and the variables are as before. -/
theorem storedContext_contextOf {vars' : Dict Json} {items : List Json}
    (hitems : Json.WellKeyedItems items) :
    storedContext (contextOf vars history) (contextOf vars' (some items)) =
      if history.isSome ∧ eqJson vars' vars = true then contextOf vars history
      else contextOf vars' (some items) := by
  unfold storedContext
  cases history with
  | none =>
      rw [lookup_contextOf]
      dsimp only [Option.map_none]
      rw [eqJson_contextOf_none]
      simp
  | some earlier =>
      have hshared : (contextOf vars (some earlier)).set "node_history"
          (getJson (contextOf vars' (some items)) "node_history") =
            contextOf vars (some items) := rfl
      rw [lookup_contextOf]
      dsimp only [Option.map_some]
      rw [hshared, eqJson_contextOf hitems]
      simp

theorem wellKeyedItems_concat {items : List Json} {item : Json}
    (hitems : Json.WellKeyedItems items) (hitem : item.WellKeyed) :
    Json.WellKeyedItems (items ++ [item]) := by
  induction items with
  | nil => exact ⟨hitem, trivial⟩
  | cons first items ih => exact ⟨hitems.1, ih hitems.2⟩

theorem wellKeyed_historyEntry (houtput : (Json.dict output).WellKeyed) :
    (historyEntry node output).WellKeyed := by
  unfold historyEntry
  rw [Json.WellKeyed] at houtput ⊢
  refine ⟨by simp, ?_⟩
  simpa [Json.WellKeyedEntries, Json.WellKeyed] using houtput

variable {context : Dict Json} {log : List LogEntry}

theorem Shape.wellKeyed_items (h : Shape context log vars history)
    (houtput : (Json.dict output).WellKeyed) :
    Json.WellKeyedItems (history.getD [] ++ [historyEntry node output]) := by
  refine wellKeyedItems_concat ?_ (wellKeyed_historyEntry houtput)
  cases hhistory : history with
  | none => trivial
  | some items => exact h.items items hhistory

/-- What a step stores, by what it found. -/
theorem Shape.storedContext_eq (h : Shape context log vars history)
    (houtput : (Json.dict output).WellKeyed) :
    storedContext context (mergeExecutionContext context node output) =
      if history.isSome ∧ eqJson (mergeVariables vars node output) vars = true
      then contextOf vars history
      else contextOf (mergeVariables vars node output)
        (some (history.getD [] ++ [historyEntry node output])) := by
  rw [h.eq, merge_contextOf, storedContext_contextOf (h.wellKeyed_items houtput)]

theorem Shape.step (h : Shape context log vars history)
    (houtput : (Json.dict output).WellKeyed) :
    ∃ vars' history', Shape (storedContext context (mergeExecutionContext context node output))
      (log ++ [(node, output)]) vars' history' := by
  rw [h.storedContext_eq houtput]
  split
  · next hskip =>
      obtain ⟨earlier, hearlier⟩ := lookup_of_eqJson hskip.2
      refine ⟨vars, history, rfl, h.keyed, h.items, ?_, fun key => ?_⟩
      · exact iff_of_false (fun hnone => by simp [hnone] at hskip) (by simp)
      · rw [h.names]
        constructor
        · rintro (hkey | ⟨entry, hentry, hkey⟩)
          · exact .inl hkey
          · exact .inr ⟨entry, List.mem_append_left _ hentry, hkey⟩
        · rintro (hkey | ⟨entry, hentry, hkey⟩)
          · exact .inl hkey
          · rcases List.mem_append.mp hentry with hold | hnew
            · exact .inr ⟨entry, hold, hkey⟩
            · rw [List.mem_singleton.mp hnew] at hkey
              exact (h.names key).mp (by rw [← hkey, hearlier]; rfl)
  · refine ⟨_, _, rfl, wellKeyed_mergeVariables h.keyed houtput, ?_, by simp, fun key => ?_⟩
    · intro items hitems
      rw [← Option.some.inj hitems]
      exact h.wellKeyed_items houtput
    · have hconcat : (∃ entry ∈ log ++ [(node, output)], entry.1.name = key) ↔
          (∃ entry ∈ log, entry.1.name = key) ∨ key = node.name := by
        simp only [List.mem_append, List.mem_singleton, or_and_right, exists_or, exists_eq_left]
        exact or_congr_right eq_comm
      rw [lookup_mergeVariables, hconcat, ← or_assoc, ← h.names]
      by_cases hname : key = node.name
      · simp [hname]
      · by_cases hstatus : key = "status"
        · have hfound := (h.names key).mpr (.inl hstatus)
          rw [if_neg hname, if_pos hstatus]
          exact iff_of_true rfl (.inl hfound)
        · simp [hname, hstatus]

/-- A step that is written out makes the log longer, one that is not does not. -/
theorem FaithfulContext.not_skipped (h : Shape context log vars history)
    (hfaithful : log ≠ [] → FaithfulContext context log) (hsome : history.isSome = true) :
    ¬ FaithfulContext (contextOf vars history) (log ++ [(node, output)]) := by
  intro hnext
  have hlog : log ≠ [] := fun hnil => by
    rw [h.started.mpr hnil] at hsome
    cases hsome
  have hbefore := (hfaithful hlog).history
  rw [h.eq, hnext.history] at hbefore
  have hlength := congrArg List.length (Json.list.inj (Option.some.inj hbefore))
  simp at hlength

/-- With the context faithful before, a step repeats an earlier one if the variables stay. -/
theorem repeats_iff (h : Shape context log vars history)
    (hfaithful : log ≠ [] → FaithfulContext context log) (hname : node.name ≠ "status")
    (houtput : (Json.dict output).WellKeyed) :
    history.isSome ∧ eqJson (mergeVariables vars node output) vars = true ↔
      Repeats log node output := by
  rw [eqJson_mergeVariables_iff h.keyed houtput hname]
  have hvars : variablesOf context = vars := by rw [h.eq, variablesOf_contextOf]
  constructor
  · rintro ⟨hsome, ⟨status, hstatus, heqStatus⟩, ⟨earlier, hearlier, heqEarlier⟩⟩
    have hlog : log ≠ [] := fun hnil => by
      rw [h.started.mpr hnil] at hsome
      cases hsome
    have hfaithful := hfaithful hlog
    constructor
    · obtain ⟨last, hlast⟩ := Option.ne_none_iff_exists'.mp fun hnone =>
        hlog (List.getLast?_eq_none_iff.mp hnone)
      refine ⟨last, hlast, ?_⟩
      have htext := hfaithful.status last hlast
      rw [hvars, getJson, hstatus] at htext
      obtain rfl : status = .str (statusText last.2) := htext
      rw [Json.eq, beq_iff_eq] at heqStatus
      exact heqStatus.symm
    · rcases (h.names node.name).mp (by rw [hearlier]; rfl) with heq | hmem
      · exact absurd heq hname
      · obtain ⟨output', houtput'⟩ := Option.isSome_iff_exists.mp
          (latestOutput_isSome_iff.mpr hmem)
        have hlookup := hfaithful.latest node.name output' houtput'
        rw [hvars, hearlier] at hlookup
        obtain rfl := Option.some.inj hlookup
        exact ⟨output', houtput', heqEarlier⟩
  · rintro ⟨⟨last, hlast, htext⟩, ⟨earlier, hearlier, heqEarlier⟩⟩
    have hlog : log ≠ [] := fun hnil => by
      rw [hnil] at hlast
      cases hlast
    have hfaithful := hfaithful hlog
    refine ⟨?_, ?_, ?_⟩
    · rw [Option.isSome_iff_ne_none]
      exact fun hnone => hlog (h.started.mp hnone)
    · have hstatus := hfaithful.status last hlast
      obtain ⟨status, hfound⟩ := Option.isSome_iff_exists.mp ((h.names "status").mpr (.inl rfl))
      rw [hvars, getJson, hfound] at hstatus
      obtain rfl : status = .str (statusText last.2) := hstatus
      exact ⟨_, hfound, by simp [Json.eq, htext]⟩
    · have hlookup := hfaithful.latest node.name earlier hearlier
      rw [hvars] at hlookup
      exact ⟨_, hlookup, heqEarlier⟩

/-- A step that is written out keeps the log faithful, unless its node is named `status`. -/
theorem FaithfulContext.written_iff (h : Shape context log vars history)
    (hfaithful : log ≠ [] → FaithfulContext context log) :
    FaithfulContext (contextOf (mergeVariables vars node output)
        (some (history.getD [] ++ [historyEntry node output]))) (log ++ [(node, output)]) ↔
      node.name ≠ "status" := by
  constructor
  · intro hnext hname
    have hstatus := hnext.status (node, output) List.getLast?_concat
    rw [variablesOf_contextOf, getJson, lookup_mergeVariables, if_pos hname.symm] at hstatus
    cases hstatus
  · intro hname
    have hvars : variablesOf context = vars := by rw [h.eq, variablesOf_contextOf]
    refine ⟨fun last hlast => ?_, fun name output' hlatest => ?_, ?_⟩
    · rw [List.getLast?_concat] at hlast
      rw [← Option.some.inj hlast, variablesOf_contextOf, getJson, lookup_mergeVariables,
        if_neg (Ne.symm hname), if_pos rfl]
      rfl
    · rw [latestOutput_concat] at hlatest
      rw [variablesOf_contextOf, lookup_mergeVariables]
      by_cases hsame : node.name = name
      · rw [if_pos hsame] at hlatest
        obtain rfl : output = output' := Option.some.inj hlatest
        rw [if_pos hsame.symm]
      · rw [if_neg hsame] at hlatest
        have hmem := latestOutput_isSome_iff.mp (by rw [hlatest]; rfl)
        obtain ⟨entry, hentry, -⟩ := id hmem
        have hlog : log ≠ [] := List.ne_nil_of_mem hentry
        have hbefore := (hfaithful hlog).latest name output' hlatest
        rw [hvars] at hbefore
        rw [if_neg (Ne.symm hsame), if_neg, hbefore]
        -- No earlier node is named `status` either.
        rintro rfl
        obtain ⟨last, hlast⟩ := Option.ne_none_iff_exists'.mp fun hnone =>
          hlog (List.getLast?_eq_none_iff.mp hnone)
        have hstatus := (hfaithful hlog).status last hlast
        rw [hvars, getJson, hbefore] at hstatus
        cases hstatus
    · rw [lookup_contextOf, Option.map_some, List.map_append]
      by_cases hlog : log = []
      · rw [h.started.mpr hlog, hlog]
        rfl
      · have hbefore := (hfaithful hlog).history
        rw [h.eq, lookup_contextOf] at hbefore
        obtain ⟨items, hitems, hlist⟩ := Option.map_eq_some_iff.mp hbefore
        rw [hitems, ← Json.list.inj hlist]
        rfl

/-- The steps after which the context still is a log. -/
theorem faithful_step_iff (h : Shape context log vars history)
    (hfaithful : log ≠ [] → FaithfulContext context log)
    (houtput : (Json.dict output).WellKeyed) :
    FaithfulContext (storedContext context (mergeExecutionContext context node output))
        (log ++ [(node, output)]) ↔
      node.name ≠ "status" ∧ ¬ Repeats log node output := by
  rw [h.storedContext_eq houtput]
  split
  · next hskip =>
      refine iff_of_false (FaithfulContext.not_skipped h hfaithful hskip.1) ?_
      rintro ⟨hname, hrepeats⟩
      exact hrepeats ((repeats_iff h hfaithful hname houtput).mp hskip)
  · next hskip =>
      rw [FaithfulContext.written_iff h hfaithful]
      refine (and_iff_left_of_imp fun hname => ?_).symm
      rwa [← repeats_iff h hfaithful hname houtput]

end Step

/-! ## Runs -/

/-- What was merged for a step: its output, or its error. -/
def WorkflowStep.merged (step : WorkflowStep) : Dict Json :=
  if step.status = .failed then
    [("success", .bool false), ("error", .str (step.errorMessage.getD ""))]
  else step.outputData

/-- The executed nodes, with what was merged for their steps. -/
def RunState.log (s : RunState) : List LogEntry :=
  s.executed.zip (s.steps.map WorkflowStep.merged)

/-- The stored context is a log of the steps, one entry for each of their rows. -/
structure FaithfulLog (s : RunState) : Prop where
  context : FaithfulContext s.execution.executionContext s.log
  rows : s.log.map (fun entry => entry.1.id) = s.steps.map (·.nodeId)

/-- The rows after a step of an execution. -/
def AfterStep (env : WorkflowEnv) (workflow : Workflow) (t : RunState) : Prop :=
  ∃ s node record, Reaches (loopBody env workflow) (startRun env workflow) s ∧
    s.current = some node ∧
    recordNode env s.executed.length node (entered s node) = .ok record ∧
    t = recorded s node record

/-- No step is that of a node named `status`, and none repeats an earlier one. -/
def NoRepeats (log : List LogEntry) : Prop :=
  ∀ before node output after, log = before ++ (node, output) :: after →
    node.name ≠ "status" ∧ ¬ Repeats before node output

theorem NoRepeats.of_initial {log log' : List LogEntry} (h : NoRepeats log)
    (hbefore : log' <+: log) : NoRepeats log' := by
  obtain ⟨rest, rfl⟩ := hbefore
  intro before node output after hlog
  exact h before node output (after ++ rest) (by rw [hlog, List.append_assoc, List.cons_append])

theorem wellKeyedItems_map {α : Type} {f : α → Json} (hf : ∀ a, (f a).WellKeyed) (l : List α) :
    Json.WellKeyedItems (l.map f) := by
  induction l with
  | nil => trivial
  | cons a l ih => exact ⟨hf a, ih⟩

theorem wellKeyed_toJson (memory : MemoryHit) : memory.toJson.WellKeyed := by
  cases htitle : memory.title <;>
    simp [MemoryHit.toJson, optionalText, htitle, Json.WellKeyed, Json.WellKeyedEntries]

theorem wellKeyed_dumpResult (latency : Rat) (result : Tools.ToolCallResult) :
    (dumpResult latency result).WellKeyed := by
  cases hcode : result.errorCode <;>
    simp [dumpResult, optionalText, hcode, Json.WellKeyed, Json.WellKeyedEntries]

/-- No output has a key twice. -/
theorem wellKeyed_attemptNode {L : Lower} {T : TextTables} {organizationId agentId : Int}
    {node : WorkflowNode} {execution : WorkflowExecution} {services : NodeServices}
    {output : Dict Json}
    (h : attemptNode L T organizationId agentId node execution services = .ok output) :
    (Json.dict output).WellKeyed := by
  unfold attemptNode at h
  dsimp only at h
  split_ifs at h
  · rw [← Except.ok.inj h]
    simp [Json.WellKeyed, Json.WellKeyedEntries]
  · obtain ⟨memories, -, h⟩ := Proc.bind_ok h
    rw [← Except.ok.inj h]
    simp [Json.WellKeyed, Json.WellKeyedEntries, wellKeyedItems_map wellKeyed_toJson]
  · split at h
    · rw [← Except.ok.inj h]
      simp [Json.WellKeyed, Json.WellKeyedEntries]
    · obtain ⟨context, -, h⟩ := Proc.bind_ok h
      rw [← Except.ok.inj h]
      simp [Json.WellKeyed, Json.WellKeyedEntries]
  · rw [← Except.ok.inj h]
    simp [Json.WellKeyed, Json.WellKeyedEntries]
  · obtain ⟨request, -, h⟩ := Proc.bind_ok h
    obtain ⟨result, -, h⟩ := Proc.bind_ok h
    rw [← Except.ok.inj h]
    simp [Json.WellKeyed, Json.WellKeyedEntries, wellKeyedItems_map (wellKeyed_dumpResult _)]
  · rw [← Except.ok.inj h]
    simp [Json.WellKeyed, Json.WellKeyedEntries]

section Record

variable {env : WorkflowEnv} {index : Nat} {node : WorkflowNode} {execution : WorkflowExecution}
  {record : Recorded}

/-- The merged context has what was merged for the step. -/
theorem recordNode_context (h : recordNode env index node execution = .ok record) :
    record.context =
      mergeExecutionContext execution.executionContext node record.step.merged := by
  unfold recordNode at h
  dsimp only at h
  split at h
  · rw [← Except.ok.inj h]
    rfl
  · rw [← Except.ok.inj h]
    rfl
  · cases h

theorem recordNode_wellKeyed (h : recordNode env index node execution = .ok record) :
    (Json.dict record.step.merged).WellKeyed := by
  unfold recordNode at h
  dsimp only at h
  split at h
  · next output retries hok =>
      rw [← Except.ok.inj h]
      exact wellKeyed_attemptNode (executeNode_ok hok)
  · rw [← Except.ok.inj h]
    simp [WorkflowStep.merged, Json.WellKeyed, Json.WellKeyedEntries]
  · cases h

end Record

section Runs

variable {env : WorkflowEnv} {workflow : Workflow}

theorem length_executed {s : RunState}
    (h : Reaches (loopBody env workflow) (startRun env workflow) s) :
    s.executed.length = s.steps.length := by
  have hsteps := congrArg List.length (Logged.of_reaches h).steps
  rw [List.length_map, List.length_map] at hsteps
  exact hsteps.symm

/-- A step adds its node and what was merged to the log. -/
theorem log_recorded {s : RunState}
    (h : Reaches (loopBody env workflow) (startRun env workflow) s) (node : WorkflowNode)
    (record : Recorded) :
    (recorded s node record).log = s.log ++ [(node, record.step.merged)] := by
  unfold RunState.log recorded
  rw [List.map_append, List.zip_append (by rw [List.length_map, length_executed h])]
  rfl

theorem stored_recorded {s : RunState} {node : WorkflowNode} {record : Recorded}
    (h : recordNode env s.executed.length node (entered s node) = .ok record) :
    (recorded s node record).execution.executionContext =
      storedContext s.execution.executionContext
        (mergeExecutionContext s.execution.executionContext node record.step.merged) :=
  congrArg (storedContext _) (recordNode_context h)

/-- Where the context of a reached state comes from. -/
theorem shape_of_reaches {s : RunState}
    (h : Reaches (loopBody env workflow) (startRun env workflow) s) :
    ∃ vars history, Shape s.execution.executionContext s.log vars history := by
  induction h with
  | refl =>
      refine ⟨[("status", .str "pending")], none, rfl, ?_, nofun, iff_of_true rfl rfl, ?_⟩
      · simp [WellKeyedDict, Json.WellKeyed]
      · intro key
        by_cases hkey : key = "status"
        · exact iff_of_true (by rw [hkey]; rfl) (.inl hkey)
        · rw [Table.lookup_cons, if_neg hkey]
          refine iff_of_false nofun ?_
          rintro (heq | ⟨entry, hentry, -⟩)
          · exact hkey heq
          · cases hentry
  | @tail s t hreach hstep ih =>
      obtain ⟨node, record, hcurrent, hrecord, -, rfl⟩ := loopBody_next hstep
      obtain ⟨vars, history, hshape⟩ := ih
      have hnext : ∃ vars' history', Shape (recorded s node record).execution.executionContext
          (recorded s node record).log vars' history' := by
        rw [stored_recorded hrecord, log_recorded hreach]
        exact hshape.step (recordNode_wellKeyed hrecord)
      exact hnext

/-- One step: what keeps the stored context a log. -/
theorem faithful_recorded_iff {s : RunState}
    (h : Reaches (loopBody env workflow) (startRun env workflow) s)
    (hfaithful : s.log ≠ [] → FaithfulContext s.execution.executionContext s.log)
    {node : WorkflowNode} {record : Recorded}
    (hrecord : recordNode env s.executed.length node (entered s node) = .ok record) :
    FaithfulContext (recorded s node record).execution.executionContext
        (recorded s node record).log ↔
      node.name ≠ "status" ∧ ¬ Repeats s.log node record.step.merged := by
  obtain ⟨vars, history, hshape⟩ := shape_of_reaches h
  rw [stored_recorded hrecord, log_recorded h]
  exact faithful_step_iff hshape hfaithful (recordNode_wellKeyed hrecord)

/-- A run without repetitions keeps the context a log. -/
theorem faithful_of_noRepeats {s : RunState}
    (h : Reaches (loopBody env workflow) (startRun env workflow) s) (hlog : NoRepeats s.log) :
    s.log ≠ [] → FaithfulContext s.execution.executionContext s.log := by
  induction h with
  | refl => exact fun hne => absurd rfl hne
  | @tail s t hreach hstep ih =>
      obtain ⟨node, record, hcurrent, hrecord, -, rfl⟩ := loopBody_next hstep
      have heq : (recorded s node record).log = s.log ++ [(node, record.step.merged)] :=
        log_recorded hreach node record
      have hbefore : s.log <+: (recorded s node record).log := ⟨_, heq.symm⟩
      have hlast := hlog s.log node record.step.merged [] heq
      exact fun _ => (faithful_recorded_iff hreach (ih (hlog.of_initial hbefore)) hrecord).mpr hlast

/-- The step that added an entry to the log. -/
def StepAt (env : WorkflowEnv) (workflow : Workflow) (before : List LogEntry)
    (entry : LogEntry) : Prop :=
  ∃ s record, Reaches (loopBody env workflow) (startRun env workflow) s ∧ s.log = before ∧
    s.current = some entry.1 ∧
    recordNode env s.executed.length entry.1 (entered s entry.1) = .ok record ∧
    entry.2 = record.step.merged

/-- Every entry after a step was added by a step. -/
theorem stepAt_recorded {s : RunState}
    (h : Reaches (loopBody env workflow) (startRun env workflow) s)
    (hbefore : ∀ before entry after, s.log = before ++ entry :: after →
      StepAt env workflow before entry)
    {node : WorkflowNode} {record : Recorded} (hcurrent : s.current = some node)
    (hrecord : recordNode env s.executed.length node (entered s node) = .ok record)
    {before after : List LogEntry} {entry : LogEntry}
    (hlog : (recorded s node record).log = before ++ entry :: after) :
    StepAt env workflow before entry := by
  rw [log_recorded h] at hlog
  rcases List.eq_nil_or_concat after with rfl | ⟨init, last, rfl⟩
  · obtain ⟨rfl, hentry⟩ := List.append_inj' hlog rfl
    obtain ⟨rfl, -⟩ := List.cons.inj hentry
    exact ⟨s, record, h, rfl, hcurrent, hrecord, rfl⟩
  · rw [List.concat_eq_append, ← List.cons_append, ← List.append_assoc] at hlog
    exact hbefore before entry init (List.append_inj_left' hlog rfl)

theorem stepAt_of_reaches {s : RunState}
    (h : Reaches (loopBody env workflow) (startRun env workflow) s) :
    ∀ before entry after, s.log = before ++ entry :: after → StepAt env workflow before entry := by
  induction h with
  | refl =>
      intro before entry after hlog
      exact absurd hlog.symm (List.append_ne_nil_of_right_ne_nil _ (List.cons_ne_nil _ _))
  | tail hreach hstep ih =>
      obtain ⟨node, record, hcurrent, hrecord, -, rfl⟩ := loopBody_next hstep
      exact fun before entry after hlog => stepAt_recorded hreach ih hcurrent hrecord hlog

theorem AfterStep.stepAt {t : RunState} (h : AfterStep env workflow t)
    {before after : List LogEntry} {entry : LogEntry} (hlog : t.log = before ++ entry :: after) :
    StepAt env workflow before entry := by
  obtain ⟨s, node, record, hreach, hcurrent, hrecord, rfl⟩ := h
  exact stepAt_recorded hreach (stepAt_of_reaches hreach) hcurrent hrecord hlog

/-- What a reached state has stored was stored after a step. -/
theorem afterStep_of_reaches {s : RunState}
    (h : Reaches (loopBody env workflow) (startRun env workflow) s) (hlog : s.log ≠ []) :
    ∃ u, AfterStep env workflow u ∧ u.log = s.log ∧
      u.execution.executionContext = s.execution.executionContext := by
  rcases h.cases_tail with heq | ⟨u, hreach, hstep⟩
  · rw [heq] at hlog
    exact absurd rfl hlog
  · obtain ⟨node, record, hcurrent, hrecord, -, rfl⟩ := loopBody_next hstep
    exact ⟨recorded u node record, ⟨u, node, record, hreach, hcurrent, hrecord, rfl⟩, rfl, rfl⟩

theorem AfterStep.rows {t : RunState} (h : AfterStep env workflow t) :
    t.log.map (fun entry => entry.1.id) = t.steps.map (·.nodeId) := by
  obtain ⟨s, node, record, hreach, hcurrent, hrecord, rfl⟩ := h
  have hbefore : s.log.map (fun entry => entry.1.id) = s.steps.map (·.nodeId) := by
    have hfst : s.log.map Prod.fst = s.executed :=
      List.map_fst_zip (by rw [List.length_map, length_executed hreach])
    rw [(Logged.of_reaches hreach).steps, ← hfst, List.map_map]
    rfl
  show (recorded s node record).log.map _ = (s.steps ++ [record.step]).map _
  rw [log_recorded hreach, List.map_append, List.map_append, hbefore, List.map_singleton,
    List.map_singleton, recordNode_nodeId hrecord]

/-- **Contexts as logs.** After every step of an execution the stored context is a log of its
    steps, exactly if no step is that of a node named `status` and none repeats an earlier one. -/
theorem contextLog_iff {t : RunState} (h : AfterStep env workflow t) :
    (∀ u, AfterStep env workflow u → u.log <+: t.log → FaithfulLog u) ↔ NoRepeats t.log := by
  constructor
  · intro hfaithful before node output after hlog
    obtain ⟨u, record, hreach, rfl, hcurrent, hrecord, houtput⟩ := h.stepAt hlog
    obtain rfl : output = record.step.merged := houtput
    have hafter : AfterStep env workflow (recorded u node record) :=
      ⟨u, node, record, hreach, hcurrent, hrecord, rfl⟩
    have hbefore : (recorded u node record).log <+: t.log := by
      rw [log_recorded hreach, hlog]
      exact ⟨after, by simp⟩
    refine (faithful_recorded_iff hreach (fun hne => ?_) hrecord).mp
      (hfaithful _ hafter hbefore).context
    obtain ⟨v, hv, hvlog, hvcontext⟩ := afterStep_of_reaches hreach hne
    rw [← hvlog, ← hvcontext]
    refine (hfaithful v hv ?_).context
    rw [hvlog, hlog]
    exact List.prefix_append _ _
  · intro hlog u hu hbefore
    refine ⟨?_, hu.rows⟩
    obtain ⟨s, node, record, hreach, hcurrent, hrecord, rfl⟩ := hu
    have hlog' := hlog.of_initial hbefore
    have heq := log_recorded hreach node record
    refine (faithful_recorded_iff hreach (faithful_of_noRepeats hreach ?_) hrecord).mpr
      (hlog' s.log node record.step.merged [] heq)
    exact hlog'.of_initial ⟨_, heq.symm⟩

end Runs

/-! ## Both defects -/

/-- A start node with the name of a key. -/
def statusStep : WorkflowNode where
  id := 1
  nodeType := "start"
  name := "status"

def statusWorkflow : Workflow where
  nodes := [statusStep]
  edges := []

/-- The output of the node stands where the status should. -/
theorem statusWorkflow_not_faithful :
    ∃ t, AfterStep quietEnv statusWorkflow t ∧ ¬ FaithfulLog t := by
  refine ⟨_, ⟨startRun quietEnv statusWorkflow, statusStep, _, .refl, rfl, rfl, rfl⟩, ?_⟩
  intro h
  have hstatus := h.context.status _ rfl
  cases hstatus

/-- How many entries a context lists. -/
def historyLength (context : Dict Json) : Nat :=
  match context.lookup "node_history" with
  | some (.list items) => items.length
  | _ => 0

theorem FaithfulLog.length {t : RunState} (h : FaithfulLog t) :
    historyLength t.execution.executionContext = t.steps.length := by
  have hrows := congrArg List.length h.rows
  rw [List.length_map, List.length_map] at hrows
  unfold historyLength
  rw [h.context.history]
  dsimp only
  rw [List.length_map, hrows]

/-- After a start, a draft, a review and a second draft like the first one, the stored history has
    three entries. -/
theorem cyclicWorkflow_not_faithful :
    ∃ t, AfterStep quietEnv cyclicWorkflow t ∧ ¬ FaithfulLog t := by
  obtain ⟨t, u, v, record, ht, hu, hv, hcurrent, hrecord, hhistory, hsteps⟩ :
      ∃ t u v record,
        loopBody quietEnv cyclicWorkflow (startRun quietEnv cyclicWorkflow) = .next t ∧
        loopBody quietEnv cyclicWorkflow t = .next u ∧
        loopBody quietEnv cyclicWorkflow u = .next v ∧
        v.current = some draftStep ∧
        recordNode quietEnv v.executed.length draftStep (entered v draftStep) = .ok record ∧
        historyLength (recorded v draftStep record).execution.executionContext = 3 ∧
        (recorded v draftStep record).steps.length = 4 :=
    ⟨_, _, _, _, rfl, rfl, rfl, rfl, rfl, rfl, rfl⟩
  have hreach : Reaches (loopBody quietEnv cyclicWorkflow) (startRun quietEnv cyclicWorkflow) v :=
    Relation.ReflTransGen.tail (Relation.ReflTransGen.tail (Relation.ReflTransGen.single ht) hu) hv
  refine ⟨recorded v draftStep record, ⟨v, draftStep, record, hreach, hcurrent, hrecord, rfl⟩, ?_⟩
  intro h
  have hlength := h.length
  rw [hhistory, hsteps] at hlength
  cases hlength

/-- Both graphs are accepted. -/
theorem contextLog_not_faithful :
    (validateGraph quietEnv.L statusWorkflow = .ok () ∧
      ∃ t, AfterStep quietEnv statusWorkflow t ∧ ¬ FaithfulLog t) ∧
    (validateGraph quietEnv.L cyclicWorkflow = .ok () ∧
      ∃ t, AfterStep quietEnv cyclicWorkflow t ∧ ¬ FaithfulLog t) :=
  ⟨⟨rfl, statusWorkflow_not_faithful⟩, ⟨rfl, cyclicWorkflow_not_faithful⟩⟩

theorem noRepeats_of_names {log : List LogEntry} (hnames : (log.map (·.1.name)).Nodup)
    (hstatus : ∀ entry ∈ log, entry.1.name ≠ "status") : NoRepeats log := by
  rintro before node output after rfl
  refine ⟨hstatus _ (List.mem_append_right _ List.mem_cons_self), ?_⟩
  rintro ⟨-, earlier, hearlier, -⟩
  obtain ⟨entry, hentry, hname⟩ :=
    latestOutput_isSome_iff.mp (Option.isSome_iff_exists.mpr ⟨earlier, hearlier⟩)
  rw [List.map_append, List.map_cons] at hnames
  exact (List.nodup_append.mp hnames).2.2 entry.1.name (List.mem_map_of_mem hentry) node.name
    List.mem_cons_self hname

/-- Up to the review, the cycle repeats nothing, and the stored context is a log of its three
    steps. -/
theorem cyclicWorkflow_contextLog :
    ∃ t, AfterStep quietEnv cyclicWorkflow t ∧ t.steps.length = 3 ∧ FaithfulLog t := by
  obtain ⟨t, u, record, ht, hu, hcurrent, hrecord, hsteps, hnames⟩ :
      ∃ t u record,
        loopBody quietEnv cyclicWorkflow (startRun quietEnv cyclicWorkflow) = .next t ∧
        loopBody quietEnv cyclicWorkflow t = .next u ∧
        u.current = some reviewStep ∧
        recordNode quietEnv u.executed.length reviewStep (entered u reviewStep) = .ok record ∧
        (recorded u reviewStep record).steps.length = 3 ∧
        (recorded u reviewStep record).log.map (·.1.name) = ["Start", "Draft", "Review"] :=
    ⟨_, _, _, rfl, rfl, rfl, rfl, rfl, rfl⟩
  have hreach : Reaches (loopBody quietEnv cyclicWorkflow) (startRun quietEnv cyclicWorkflow) u :=
    Relation.ReflTransGen.tail (Relation.ReflTransGen.single ht) hu
  have hafter : AfterStep quietEnv cyclicWorkflow (recorded u reviewStep record) :=
    ⟨u, reviewStep, record, hreach, hcurrent, hrecord, rfl⟩
  have hlog : NoRepeats (recorded u reviewStep record).log := by
    refine noRepeats_of_names (by rw [hnames]; decide) fun entry hentry => ?_
    have hname : entry.1.name ∈ ["Start", "Draft", "Review"] :=
      hnames ▸ List.mem_map_of_mem hentry
    exact fun hstatus => absurd (hstatus ▸ hname) (by decide)
  exact ⟨_, hafter, hsteps, (contextLog_iff hafter).mpr hlog _ hafter (List.prefix_refl _)⟩

end AgentCorp.Workflows
