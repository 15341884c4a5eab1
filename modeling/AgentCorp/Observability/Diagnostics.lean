/-
  The diagnostics registry: the maps of what is active, and procedures that register in them.

  Every `register_*` and `unregister_*` of the source changes one map under a lock that nobody
  holds while waiting, so each of them is one step, and raises nothing. A procedure is modelled
  with the list of its steps (`Diagnosed`): calls that run concurrently take theirs in a
  shuffle.

  * `lookup_applyAll`: an entry is what the last step on it has left.
  * `applyAll_eq_self`: steps on new keys that are all unregistered change nothing.
  * `lookup_of_registered`: an entry in a map that nobody unregisters from stays.
  * `Settles.release`: what an `unregister_*` makes of the keys still to be unregistered.
  * `Forgets.bind`, `.skip_bind`, `.tryFinally`: the rules for a procedure without its
    registrations.
-/
import AgentCorp.Python.Effects
import AgentCorp.Python.WellKeyed

namespace AgentCorp.Observability

open AgentCorp.Python

variable {μ : Type}

/-! ## The maps -/

/-- The `active_*` maps that a snapshot reports. -/
inductive DiagnosticsMap where
  | executions | streams | sessions | workflows | cognitiveAnalyses | planningRuns
  | executionEngines | capabilityEvents | reflectionReports | evaluationReports
  | learningReports | learningPolicies | adaptivePlans | longTermIntelligence
  | runtimeOptimizations | runtimeGovernance | goalReports | goalTraces | taskReports
  | taskTraces | autonomousExecutions | multiAgentOrchestrations
  deriving DecidableEq, Repr

abbrev Registry (μ : Type) := DiagnosticsMap → Dict μ

/-- No map has an entry. -/
def Registry.empty : Registry μ :=
  fun _ => []

inductive Operation (μ : Type) where
  | register (map : DiagnosticsMap) (key : String) (metadata : μ)
  | unregister (map : DiagnosticsMap) (key : String)

/-- The map and the key that an operation is on. -/
def Operation.place : Operation μ → DiagnosticsMap × String
  | .register map key _ => (map, key)
  | .unregister map key => (map, key)

/-- What an operation leaves there. -/
def Operation.leaves : Operation μ → Option μ
  | .register _ _ metadata => some metadata
  | .unregister _ _ => none

def Registry.apply (registry : Registry μ) : Operation μ → Registry μ
  | .register map key metadata => Function.update registry map ((registry map).set key metadata)
  | .unregister map key => Function.update registry map ((registry map).pop key)

def Registry.applyAll (registry : Registry μ) (operations : List (Operation μ)) : Registry μ :=
  operations.foldl Registry.apply registry

section Functions

variable (key : String) (metadata : μ)

def registerExecution : Operation μ := .register .executions key metadata
def unregisterExecution : Operation μ := .unregister .executions key
def registerCognitiveAnalysis : Operation μ := .register .cognitiveAnalyses key metadata
def unregisterCognitiveAnalysis : Operation μ := .unregister .cognitiveAnalyses key
def registerPlanningRun : Operation μ := .register .planningRuns key metadata
def unregisterPlanningRun : Operation μ := .unregister .planningRuns key
def registerExecutionEngine : Operation μ := .register .executionEngines key metadata
def registerCapabilityEvent : Operation μ := .register .capabilityEvents key metadata
def registerReflectionReport : Operation μ := .register .reflectionReports key metadata
def registerEvaluationReport : Operation μ := .register .evaluationReports key metadata
def registerLearningReport : Operation μ := .register .learningReports key metadata
def registerLearningPolicy : Operation μ := .register .learningPolicies key metadata
def registerAdaptivePlan : Operation μ := .register .adaptivePlans key metadata
def registerLongTermIntelligence : Operation μ := .register .longTermIntelligence key metadata
def registerRuntimeOptimization : Operation μ := .register .runtimeOptimizations key metadata
def registerRuntimeGovernance : Operation μ := .register .runtimeGovernance key metadata

end Functions

/-! ## What a sequence of operations leaves -/

section Registry

variable (registry : Registry μ) (operations : List (Operation μ))

/-- What the last operation on a map and a key leaves there, if there is one. -/
def lastOn (place : DiagnosticsMap × String) : Option (Option μ) :=
  (operations.filterMap fun op => if op.place = place then some op.leaves else none).getLast?

theorem lastOn_append (later : List (Operation μ)) (place : DiagnosticsMap × String) :
    lastOn (operations ++ later) place = (lastOn later place).or (lastOn operations place) := by
  unfold lastOn
  rw [List.filterMap_append, List.getLast?_append]

theorem lastOn_singleton (op : Operation μ) (place : DiagnosticsMap × String) :
    lastOn [op] place = if op.place = place then some op.leaves else none := by
  unfold lastOn
  rw [List.filterMap_cons]
  split
  · next h => 
      rw [h]
      rfl
  · next h => 
      rw [h]
      rfl

theorem lookup_apply (op : Operation μ) (map : DiagnosticsMap) (key : String) :
    (registry.apply op map).lookup key =
      if op.place = (map, key) then op.leaves else (registry map).lookup key := by
  cases op with
  | register map' key' metadata =>
      show (Function.update registry map' _ map).lookup key =
        if (map', key') = (map, key) then some metadata else _
      by_cases hmap : map = map'
      · subst hmap
        rw [Function.update_self, lookup_set]
        simp [eq_comm]
      · rw [Function.update_of_ne hmap]
        simp [Ne.symm hmap]
  | unregister map' key' =>
      show (Function.update registry map' _ map).lookup key =
        if (map', key') = (map, key) then none else _
      by_cases hmap : map = map'
      · subst hmap
        rw [Function.update_self, lookup_pop]
        simp [eq_comm]
      · rw [Function.update_of_ne hmap]
        simp [Ne.symm hmap]

theorem lookup_applyAll (map : DiagnosticsMap) (key : String) :
    (registry.applyAll operations map).lookup key =
      (lastOn operations (map, key)).getD ((registry map).lookup key) := by
  induction operations generalizing registry with
  | nil => rfl
  | cons op operations ih =>
      have happend : lastOn (op :: operations) (map, key) =
          (lastOn operations (map, key)).or (lastOn [op] (map, key)) :=
        lastOn_append [op] operations (map, key)
      show ((registry.apply op).applyAll operations map).lookup key = _
      rw [ih, lookup_apply, happend, lastOn_singleton]
      cases lastOn operations (map, key) with
      | none =>
          by_cases hplace : op.place = (map, key)
          · rw [if_pos hplace, if_pos hplace]
            rfl
          · rw [if_neg hplace, if_neg hplace]
            rfl
      | some left => rfl

/-- The entries that no operation is on stay as they are, in their order. -/
theorem filter_applyAll {map : DiagnosticsMap} {p : String → Bool}
    (hp : ∀ op ∈ operations, op.place.1 = map → p op.place.2 = false) :
    (registry.applyAll operations map).filter (fun entry => p entry.1) =
      (registry map).filter fun entry => p entry.1 := by
  induction operations generalizing registry with
  | nil => rfl
  | cons op operations ih =>
      rw [List.forall_mem_cons] at hp
      show ((registry.apply op).applyAll operations map).filter _ = _
      rw [ih _ hp.2]
      cases op with
      | register map' key metadata =>
          show (Function.update registry map' _ map).filter _ = _
          by_cases hmap : map = map'
          · subst hmap
            rw [Function.update_self]
            exact filter_set (hp.1 rfl) _ _
          · rw [Function.update_of_ne hmap]
      | unregister map' key =>
          show (Function.update registry map' _ map).filter _ = _
          by_cases hmap : map = map'
          · subst hmap
            rw [Function.update_self]
            exact filter_pop (hp.1 rfl) _
          · rw [Function.update_of_ne hmap]

/-- Operations on keys that the registry does not have, and of which the last one on each key
    unregisters it. -/
theorem applyAll_eq_self
    (hfresh : ∀ op ∈ operations, (registry op.place.1).lookup op.place.2 = none)
    (hlast : ∀ place metadata, lastOn operations place ≠ some (some metadata)) :
    registry.applyAll operations = registry := by
  funext map
  let p : String → Bool := fun key => decide (∀ op ∈ operations, op.place ≠ (map, key))
  have hp : ∀ op ∈ operations, op.place.1 = map → p op.place.2 = false := by
    intro op hop hmap
    rw [decide_eq_false_iff_not]
    intro hno
    exact hno op hop (Prod.ext hmap rfl)
  -- Neither map has an entry under a key that an operation is on.
  have hold : ∀ entry ∈ registry map, p entry.1 = true := by
    intro entry hentry
    rw [decide_eq_true_iff]
    intro op hop hplace
    have hnone := hfresh op hop
    rw [hplace, List.lookup_eq_none_iff] at hnone
    simpa using hnone entry hentry
  have hnew : ∀ entry ∈ registry.applyAll operations map, p entry.1 = true := by
    intro entry hentry
    rw [decide_eq_true_iff]
    intro op hop hplace
    have hnone : (registry.applyAll operations map).lookup entry.1 = none := by
      rw [lookup_applyAll]
      cases hl : lastOn operations (map, entry.1) with
      | none =>
          have hfind := hfresh op hop
          rw [hplace] at hfind
          exact hfind
      | some left =>
          cases left with
          | none => rfl
          | some metadata => exact absurd hl (hlast _ metadata)
    rw [List.lookup_eq_none_iff] at hnone
    simpa using hnone entry hentry
  have hfilter := filter_applyAll registry operations hp
  rwa [List.filter_eq_self.mpr hnew, List.filter_eq_self.mpr hold] at hfilter

/-- An entry in a map that nothing is unregistered from. -/
theorem lookup_of_registered {map : DiagnosticsMap} {key : String} {metadata : μ}
    (hreg : .register map key metadata ∈ operations)
    (hkept : ∀ key, .unregister map key ∉ operations) :
    (registry.applyAll operations map).lookup key ≠ none := by
  have hmarked : some metadata ∈
      operations.filterMap fun op => if op.place = (map, key) then some op.leaves else none :=
    List.mem_filterMap.mpr ⟨_, hreg, if_pos rfl⟩
  obtain ⟨left, hleft⟩ : ∃ left, lastOn operations (map, key) = some left :=
    Option.ne_none_iff_exists'.mp
      (mt List.getLast?_eq_none_iff.mp (List.ne_nil_of_mem hmarked))
  obtain ⟨op, hop, hmark⟩ := List.mem_filterMap.mp (List.mem_of_getLast? hleft)
  rw [lookup_applyAll, hleft]
  have hplace : op.place = (map, key) := by
    by_contra hne
    rw [if_neg hne] at hmark
    cases hmark
  rw [if_pos hplace] at hmark
  obtain rfl := Option.some.inj hmark
  cases op with
  | register map' key' metadata' => exact Option.some_ne_none metadata'
  | unregister map' key' =>
      obtain ⟨rfl, rfl⟩ := Prod.mk.inj hplace
      exact absurd hop (hkept key')

end Registry

/-! ## Procedures that register -/

/-- A state, and the operations on the registry so far. -/
structure Diagnosed (σ μ : Type) where
  state : σ
  operations : List (Operation μ)

variable {σ α β : Type}

/-- A procedure that leaves the registry alone. -/
def onState (p : Py σ α) : Py (Diagnosed σ μ) α := fun s =>
  match p.run s.state with
  | .ok a t => .ok a { s with state := t }
  | .error raised t => .error raised { s with state := t }

def emit (op : Operation μ) : Py (Diagnosed σ μ) Unit :=
  modify fun s => { s with operations := s.operations ++ [op] }

@[simp] theorem emit_run (op : Operation μ) (s : Diagnosed σ μ) :
    (emit op).run s = .ok () { s with operations := s.operations ++ [op] } := rfl

theorem onState_operations (p : Py σ α) (s : Diagnosed σ μ) :
    (Proc.after (onState p) s).operations = s.operations := by
  unfold Proc.after EStateM.run onState
  cases p.run s.state <;> rfl

/-- What is added to the operations satisfies `Q`. -/
def Adds (Q : List (Operation μ) → Prop) (s t : Diagnosed σ μ) : Prop :=
  ∃ later, t.operations = s.operations ++ later ∧ Q later

section Adds

variable {Q : List (Operation μ) → Prop}

theorem Adds.isPreorder (hnil : Q []) (happend : ∀ l l', Q l → Q l' → Q (l ++ l')) :
    IsPreorder (Diagnosed σ μ) (Adds Q) where
  refl s := ⟨[], (List.append_nil _).symm, hnil⟩
  trans s t u := by
    intro ⟨l, hl, hQ⟩ ⟨l', hl', hQ'⟩
    exact ⟨l ++ l', by rw [hl', hl, List.append_assoc], happend l l' hQ hQ'⟩

theorem Adds.of_operations_eq (hnil : Q []) {s t : Diagnosed σ μ}
    (h : t.operations = s.operations) : Adds Q s t :=
  ⟨[], h.trans (List.append_nil _).symm, hnil⟩

theorem Adds.onState (hnil : Q []) (p : Py σ α) :
    Proc.Within (Adds Q) (onState p : Py (Diagnosed σ μ) α) :=
  fun s => .of_operations_eq hnil (onState_operations p s)

theorem Adds.emit {op : Operation μ} (h : Q [op]) :
    Proc.Within (Adds Q) (emit op : Py (Diagnosed σ μ) Unit) :=
  fun _ => ⟨[op], rfl, h⟩

end Adds

/-- All operations satisfy `P`. -/
def Every (P : Operation μ → Prop) (operations : List (Operation μ)) : Prop :=
  ∀ op ∈ operations, P op

theorem every_nil (P : Operation μ → Prop) : Every P [] :=
  fun _ hop => absurd hop List.not_mem_nil

theorem every_singleton {P : Operation μ → Prop} {op : Operation μ} (h : P op) : Every P [op] :=
  fun _ hop => List.mem_singleton.mp hop ▸ h

instance (P : Operation μ → Prop) : IsPreorder (Diagnosed σ μ) (Adds (Every P)) :=
  Adds.isPreorder (every_nil P) fun _ _ h h' op hop =>
    (List.mem_append.mp hop).elim (h op) (h' op)

/-- The operations are on places that are `own`, and leave entries at most on those that are
    `pending`. -/
structure Settles (own pending : DiagnosticsMap × String → Prop)
    (operations : List (Operation μ)) : Prop where
  own : ∀ op ∈ operations, own op.place
  last : ∀ place, ¬ pending place → ∀ metadata, lastOn operations place ≠ some (some metadata)

section Settles

variable {own pending : DiagnosticsMap × String → Prop}

theorem Settles.nil : Settles own pending ([] : List (Operation μ)) where
  own := fun _ hop => absurd hop List.not_mem_nil
  last := fun _ _ _ h => Option.some_ne_none _ h.symm

theorem Settles.append {l l' : List (Operation μ)} (h : Settles own pending l)
    (h' : Settles own pending l') : Settles own pending (l ++ l') where
  own := fun op hop => (List.mem_append.mp hop).elim (h.own op) (h'.own op)
  last := by
    intro place hplace metadata
    rw [lastOn_append]
    cases hl : lastOn l' place with
    | none => exact h.last place hplace metadata
    | some left =>
        rw [← hl]
        exact hl ▸ h'.last place hplace metadata

theorem Settles.singleton {op : Operation μ} (hown : own op.place) (hpending : pending op.place) :
    Settles own pending [op] where
  own := fun _ hop => List.mem_singleton.mp hop ▸ hown
  last := by
    intro place hplace metadata
    rw [lastOn_singleton]
    have hne : op.place ≠ place := by
      intro heq
      exact hplace (heq ▸ hpending)
    rw [if_neg hne]
    exact fun h => nomatch h

instance : IsPreorder (Diagnosed σ μ) (Adds (Settles own pending)) :=
  Adds.isPreorder .nil fun _ _ h h' => h.append h'

/-- After an `unregister_*`, its place is no longer pending. -/
theorem Settles.release (op : Operation μ) (hop : op.leaves = none) (hown : own op.place)
    {s t : Diagnosed σ μ}
    (h : Adds (Settles own fun place => place = op.place ∨ pending place) s t) :
    Adds (Settles own pending) s (Proc.after (emit op) t) := by
  obtain ⟨later, hlater, hsettles⟩ := h
  refine ⟨later ++ [op], ?_, ?_, ?_⟩
  · show t.operations ++ [op] = _
    rw [hlater, List.append_assoc]
  · intro op' hop'
    rcases List.mem_append.mp hop' with hold | hnew
    · exact hsettles.own op' hold
    · rw [List.mem_singleton.mp hnew]
      exact hown
  · intro place hplace metadata
    rw [lastOn_append, lastOn_singleton]
    by_cases heq : op.place = place
    · rw [if_pos heq, hop]
      exact fun h => nomatch h
    · rw [if_neg heq]
      have hpending : ¬ (place = op.place ∨ pending place) :=
        not_or.mpr ⟨Ne.symm heq, hplace⟩
      exact hsettles.last place hpending metadata

end Settles

/-! ## A procedure without its registrations -/

/-- The result of a run, with the registry forgotten. -/
def forget : EStateM.Result BaseExn (Diagnosed σ μ) α → EStateM.Result BaseExn σ α
  | .ok a s => .ok a s.state
  | .error raised s => .error raised s.state

/-- But for what it registers, `p` is `q`. -/
def Forgets (p : Py (Diagnosed σ μ) α) (q : Py σ α) : Prop :=
  ∀ s, forget (p.run s) = q.run s.state

theorem forgets_pure (a : α) : Forgets (pure a : Py (Diagnosed σ μ) α) (pure a) :=
  fun _ => rfl

theorem forgets_ofExcept (r : Except BaseExn α) :
    Forgets (Proc.ofExcept r : Py (Diagnosed σ μ) α) (Proc.ofExcept r) := by
  intro s
  cases r <;> rfl

theorem forgets_onState (p : Py σ α) : Forgets (onState p : Py (Diagnosed σ μ) α) p := by
  intro s
  show forget (onState p s) = p s.state
  unfold onState EStateM.run
  cases p s.state <;> rfl

theorem forgets_emit (op : Operation μ) : Forgets (emit op : Py (Diagnosed σ μ) Unit) (pure ()) :=
  fun _ => rfl

theorem Forgets.bind {p : Py (Diagnosed σ μ) α} {q : Py σ α} {f : α → Py (Diagnosed σ μ) β}
    {g : α → Py σ β} (hp : Forgets p q) (hf : ∀ a, Forgets (f a) (g a)) :
    Forgets (p >>= f) (q >>= g) := by
  intro s
  rw [EStateM.run_bind, EStateM.run_bind, ← hp s]
  cases p.run s with
  | ok a t => exact hf a t
  | error raised t => rfl

/-- A part that only registers is not seen, be it the first one or the last. -/
theorem Forgets.skip_bind {p : Py (Diagnosed σ μ) α} {f : α → Py (Diagnosed σ μ) β} {q : Py σ β}
    {a : α} (hp : Forgets p (pure a)) (hf : Forgets (f a) q) : Forgets (p >>= f) q := by
  intro s
  have hrun := hp s
  rw [EStateM.run_bind]
  cases h : p.run s with
  | ok b t =>
      rw [h] at hrun
      obtain ⟨rfl, hstate⟩ := EStateM.Result.ok.inj hrun
      rw [← hstate]
      exact hf t
  | error raised t =>
      rw [h] at hrun
      cases hrun

theorem Forgets.bind_skip {p : Py (Diagnosed σ μ) α} {f : α → Py (Diagnosed σ μ) α} {q : Py σ α}
    (hp : Forgets p q) (hf : ∀ a, Forgets (f a) (pure a)) : Forgets (p >>= f) q := by
  have hbind := hp.bind hf
  rwa [bind_pure] at hbind

theorem Forgets.emit_bind {op : Operation μ} {f : Unit → Py (Diagnosed σ μ) β} {q : Py σ β}
    (hf : Forgets (f ()) q) : Forgets (emit op >>= f) q :=
  Forgets.skip_bind (forgets_emit op) hf

/-- A finalizer that only registers leaves nothing. -/
theorem Forgets.tryFinally {p : Py (Diagnosed σ μ) α} {q : Py σ α}
    {last : Py (Diagnosed σ μ) Unit} (hp : Forgets p q) (hlast : Forgets last (pure ())) :
    Forgets (tryFinally p last) q := by
  intro s
  rw [Proc.run_tryFinally, ← hp s]
  cases p.run s with
  | ok a t => exact hlast.skip_bind (forgets_pure a) t
  | error raised t =>
      have hthrow : Forgets (throw raised : Py (Diagnosed σ μ) α) (throw raised) := fun _ => rfl
      exact hlast.skip_bind hthrow t

end AgentCorp.Observability
