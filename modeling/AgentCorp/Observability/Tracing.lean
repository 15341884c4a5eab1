/-
  `Tracer` and `Span`: the traces of programs of nested `with tracer.start_span(..)` blocks.

  The active span is a context variable that a block sets and, at its end, resets to what it was.
  Tags are dictionaries by reference: a block that is given a dictionary with entries keeps it,
  and any other makes one of its own. What `uuid4` returns is a parameter.

  * `blocks`: the blocks that a program enters, as a forest, with what left each of them.
  * `exec_traces`: what a run adds to the finished spans is that forest, in postorder.
  * `exec_faithful_iff`: when the error tags are right as well.
-/
import AgentCorp.Lib.Forest
import AgentCorp.Chat.Prompt
import AgentCorp.Python.WellKeyed
import Mathlib.Logic.Function.Basic

namespace AgentCorp.Observability

open AgentCorp.Python

/-! ## Spans -/

/-- A span, with its tags by reference: a dictionary of the program, or one that a span made. -/
structure Span (ρ : Type) where
  name : String
  spanId : String
  traceId : String
  parentId : Option String
  correlationId : String
  tags : ρ ⊕ Nat
  deriving DecidableEq, Repr

/-- The two context variables, the dictionaries, how many of them spans have made and how many
    identifiers were drawn, and `finished_spans`. -/
structure TraceState (ρ : Type) where
  active : Option (Span ρ) := none
  correlationId : Option String := none
  dicts : ρ ⊕ Nat → Dict Json
  made : Nat := 0
  ids : Nat := 0
  finished : List (Span ρ) := []

/-- `str(exc)`. -/
def text : BaseExn → String
  | .exception exc => exc.text
  | .cancelledError => ""
  | .generatorExit => ""

/-- `exc_type.__name__`. -/
def typeName : BaseExn → String
  | .exception exc => exc.className
  | .cancelledError => "CancelledError"
  | .generatorExit => "GeneratorExit"

section Code

variable {ρ : Type} [DecidableEq ρ] (uuid : Nat → String)

/-- `tags or {}`. -/
def orEmpty (tags : Option ρ) (w : TraceState ρ) : (ρ ⊕ Nat) × TraceState ρ :=
  let fresh : (ρ ⊕ Nat) × TraceState ρ :=
    (.inr w.made, { w with dicts := Function.update w.dicts (.inr w.made) [], made := w.made + 1 })
  match tags with
  | none => fresh
  | some r => if w.dicts (.inl r) ≠ [] then (.inl r, w) else fresh

/-- `Span.__init__`, as `Tracer.start_span` calls it. -/
def startSpan (name : String) (tags : Option ρ) (w : TraceState ρ) : Span ρ × TraceState ρ :=
  let spanId := uuid w.ids
  let traceId := match w.active with
    | some parent => parent.traceId
    | none => uuid (w.ids + 1)
  let ids := if w.active.isSome then w.ids + 1 else w.ids + 2
  let (ref, w') := orEmpty tags { w with ids := ids }
  ({ name := name
     spanId := spanId
     traceId := traceId
     parentId := w.active.map Span.spanId
     correlationId := (Chat.nonempty w.correlationId).getD traceId
     tags := ref }, w')

namespace Span

variable (span : Span ρ)

def addTag (key : String) (value : Json) (w : TraceState ρ) : TraceState ρ :=
  { w with dicts := Function.update w.dicts span.tags ((w.dicts span.tags).set key value) }

/-- `finish`, with the value that the token of the context variable remembers. -/
def finish (token : Option (Span ρ)) (w : TraceState ρ) : TraceState ρ :=
  { w with active := token, finished := w.finished ++ [span] }

/-- `__exit__`. -/
def exit (raised : Option BaseExn) (token : Option (Span ρ)) (w : TraceState ρ) : TraceState ρ :=
  span.finish token (match raised with
    | none => w
    | some exc =>
        span.addTag "error.type" (.str (typeName exc))
          (span.addTag "error.message" (.str (text exc))
            (span.addTag "error" (.bool true) w)))

end Span

/-! ## Programs -/

/-- A program of blocks, exceptions and handlers. A handler that does not catch raises again. -/
inductive Program (ρ : Type) where
  | skip
  | raise (raised : BaseExn)
  | seq (first second : Program ρ)
  | tryExcept (body : Program ρ) (handler : BaseExn → Program ρ)
  | withSpan (name : String) (tags : Option ρ) (body : Program ρ)

/-- What a program raises, and the state it leaves. -/
def exec : Program ρ → TraceState ρ → Option BaseExn × TraceState ρ
  | .skip, w => (none, w)
  | .raise raised, w => (some raised, w)
  | .seq first second, w =>
      match exec first w with
      | (none, w') => exec second w'
      | (some raised, w') => (some raised, w')
  | .tryExcept body handler, w =>
      match exec body w with
      | (none, w') => (none, w')
      | (some raised, w') => exec (handler raised) w'
  | .withSpan name tags body, w =>
      let (span, w₁) := startSpan uuid name tags w
      let token := w₁.active
      let (raised, w₂) := exec body { w₁ with active := some span }
      (raised, span.exit raised token w₂)

/-! ## What the blocks of a program are -/

/-- An entered block, with the exception that left it. -/
structure Block (ρ : Type) where
  name : String
  tags : Option ρ
  raised : Option BaseExn
  deriving DecidableEq, Repr

/-- The blocks that a program enters, each above those that it encloses, and what the program
    raises. -/
def blocks : Program ρ → Forest (Block ρ) × Option BaseExn
  | .skip => (.nil, none)
  | .raise raised => (.nil, some raised)
  | .seq first second =>
      match blocks first with
      | (before, none) => (before ++ (blocks second).1, (blocks second).2)
      | (before, some raised) => (before, some raised)
  | .tryExcept body handler =>
      match blocks body with
      | (before, none) => (before, none)
      | (before, some raised) =>
          (before ++ (blocks (handler raised)).1, (blocks (handler raised)).2)
  | .withSpan name tags body =>
      (.cons ⟨name, tags, (blocks body).2⟩ (blocks body).1 .nil, (blocks body).2)

end Code

/-! ## Error tags -/

/-- The dictionary has the three error tags. -/
def Tagged (d : Dict Json) : Prop :=
  (d.lookup "error").isSome ∧ (d.lookup "error.message").isSome ∧ (d.lookup "error.type").isSome

/-- The tags of an exception. -/
def errorTags (exc : BaseExn) (d : Dict Json) : Dict Json :=
  ((d.set "error" (.bool true)).set "error.message" (.str (text exc))).set "error.type"
    (.str (typeName exc))

theorem tagged_errorTags (exc : BaseExn) (d : Dict Json) : Tagged (errorTags exc d) := by
  unfold Tagged errorTags
  simp [lookup_set]

theorem not_tagged_nil : ¬ Tagged [] := by
  intro h
  cases h.1

/-- The dictionary that a block is given. -/
def TraceState.given {ρ : Type} (w : TraceState ρ) (tags : Option ρ) : Dict Json :=
  match tags with
  | none => []
  | some r => w.dicts (.inl r)

section Steps

variable {ρ : Type} [DecidableEq ρ] {uuid : Nat → String}

/-! ### start_span -/

/-- What `start_span` does. -/
structure Started (uuid : Nat → String) (name : String) (tags : Option ρ) (w : TraceState ρ)
    (span : Span ρ) (w' : TraceState ρ) : Prop where
  name : span.name = name
  spanId : span.spanId = uuid w.ids
  ids : w.ids < w'.ids
  parentId : span.parentId = w.active.map Span.spanId
  traceId : ∀ parent, w.active = some parent → span.traceId = parent.traceId
  active : w'.active = w.active
  finished : w'.finished = w.finished
  tags : (∃ r, tags = some r ∧ span.tags = .inl r ∧ w.dicts (.inl r) ≠ [] ∧
      w'.dicts = w.dicts ∧ w'.made = w.made) ∨
    (span.tags = .inr w.made ∧ w.given tags = [] ∧
      w'.dicts = Function.update w.dicts (.inr w.made) [] ∧ w'.made = w.made + 1)

variable (uuid) in
theorem started_startSpan (name : String) (tags : Option ρ) (w : TraceState ρ) :
    Started uuid name tags w (startSpan uuid name tags w).1 (startSpan uuid name tags w).2 := by
  have hids : w.ids < if w.active.isSome then w.ids + 1 else w.ids + 2 := by
    split <;> omega
  have htrace : ∀ parent, w.active = some parent →
      (match w.active with
        | some parent => parent.traceId
        | none => uuid (w.ids + 1)) = parent.traceId := by
    intro parent hparent
    rw [hparent]
  cases tags with
  | none =>
      exact ⟨rfl, rfl, hids, rfl, htrace, rfl, rfl, .inr ⟨rfl, rfl, rfl, rfl⟩⟩
  | some r =>
      by_cases hr : w.dicts (.inl r) ≠ []
      · have horEmpty : ∀ ids, orEmpty (some r) { w with ids := ids } =
            (.inl r, { w with ids := ids }) := fun ids => if_pos hr
        unfold startSpan
        dsimp only
        rw [horEmpty]
        exact ⟨rfl, rfl, hids, rfl, htrace, rfl, rfl, .inl ⟨r, rfl, rfl, hr, rfl, rfl⟩⟩
      · have horEmpty : ∀ ids, orEmpty (some r) { w with ids := ids } =
            (.inr w.made, { w with
              ids := ids
              dicts := Function.update w.dicts (.inr w.made) []
              made := w.made + 1 }) := fun ids => if_neg hr
        unfold startSpan
        dsimp only
        rw [horEmpty]
        exact ⟨rfl, rfl, hids, rfl, htrace, rfl, rfl, .inr ⟨rfl, not_not.mp hr, rfl, rfl⟩⟩

/-! ### exit -/

namespace Span

variable (span : Span ρ) (raised : Option BaseExn) (token : Option (Span ρ)) (w : TraceState ρ)

theorem exit_eq : span.exit raised token w =
    { w with
      active := token
      finished := w.finished ++ [span]
      dicts := match raised with
        | none => w.dicts
        | some exc => Function.update w.dicts span.tags (errorTags exc (w.dicts span.tags)) } := by
  cases raised with
  | none => rfl
  | some exc =>
      unfold exit finish addTag errorTags
      simp only [Function.update_idem, Function.update_self]

theorem dicts_exit_of_ne {ref : ρ ⊕ Nat} (h : ref ≠ span.tags) :
    (span.exit raised token w).dicts ref = w.dicts ref := by
  rw [exit_eq]
  cases raised with
  | none => rfl
  | some exc => exact Function.update_of_ne h _ _

/-- Exactly an exception adds its tags. -/
theorem tagged_exit : Tagged ((span.exit raised token w).dicts span.tags) ↔
    raised.isSome ∨ Tagged (w.dicts span.tags) := by
  rw [exit_eq]
  cases raised with
  | none => simp
  | some exc => simp [tagged_errorTags]

theorem exit_ne_nil (h : w.dicts span.tags ≠ []) :
    (span.exit raised token w).dicts span.tags ≠ [] := by
  rw [exit_eq]
  cases raised with
  | none => exact h
  | some exc =>
      show Function.update w.dicts span.tags _ span.tags ≠ []
      rw [Function.update_self]
      exact set_ne_nil _ _ _

end Span

end Steps

/-! ## Runs -/

section Runs

variable {ρ : Type}

/-- A run from `w` to `w'` has finished the spans of `g`, each with its block. -/
structure Traces (uuid : Nat → String) (w w' : TraceState ρ) (g : Forest (Span ρ × Block ρ)) :
    Prop where
  finished : w'.finished = w.finished ++ g.postorder.map Prod.fst
  active : w'.active = w.active
  ids : w.ids ≤ w'.ids
  names : ∀ node ∈ g.postorder, node.1.name = node.2.name
  drawn : ∀ node ∈ g.postorder, ∃ k, w.ids ≤ k ∧ k < w'.ids ∧ node.1.spanId = uuid k
  distinct : (g.postorder.map (·.1.spanId)).Nodup
  roots : ∀ root ∈ g.roots, root.1.parentId = w.active.map Span.spanId
  edges : ∀ edge ∈ g.edges, edge.2.1.parentId = some edge.1.1.spanId
  inherited : ∀ parent, w.active = some parent →
    ∀ node ∈ g.postorder, node.1.traceId = parent.traceId
  trees : ∀ tree ∈ g.trees, ∀ node ∈ tree.2.postorder, node.1.traceId = tree.1.1.traceId

/-- What the run has made of the dictionaries. -/
structure Tags (w w' : TraceState ρ) (g : Forest (Span ρ × Block ρ)) : Prop where
  made : w.made ≤ w'.made
  empty : ∀ r, w'.dicts (.inl r) = [] ↔ w.dicts (.inl r) = []
  tagged : ∀ r, Tagged (w'.dicts (.inl r)) ↔ Tagged (w.dicts (.inl r)) ∨
    w.dicts (.inl r) ≠ [] ∧ ∃ node ∈ g.postorder, node.2.tags = some r ∧ node.2.raised.isSome
  old : ∀ k < w.made, w'.dicts (.inr k) = w.dicts (.inr k)
  kept : ∀ node ∈ g.postorder, ∀ r, node.1.tags = .inl r →
    node.2.tags = some r ∧ w.dicts (.inl r) ≠ []
  own : ∀ node ∈ g.postorder, ∀ k, node.1.tags = .inr k →
    w.made ≤ k ∧ k < w'.made ∧ w.given node.2.tags = [] ∧
      (Tagged (w'.dicts (.inr k)) ↔ node.2.raised.isSome)

variable {uuid : Nat → String} {w w₁ w₂ w' : TraceState ρ} {g g₁ g₂ : Forest (Span ρ × Block ρ)}

theorem Traces.refl (uuid : Nat → String) (w : TraceState ρ) : Traces uuid w w .nil where
  finished := (List.append_nil _).symm
  active := rfl
  ids := Nat.le_refl _
  names _ h := absurd h List.not_mem_nil
  drawn _ h := absurd h List.not_mem_nil
  distinct := List.nodup_nil
  roots _ h := absurd h List.not_mem_nil
  edges _ h := absurd h List.not_mem_nil
  inherited _ _ _ h := absurd h List.not_mem_nil
  trees _ h := absurd h List.not_mem_nil

theorem Tags.refl (w : TraceState ρ) : Tags w w .nil where
  made := Nat.le_refl _
  empty _ := Iff.rfl
  tagged r := by
    have hnone : ¬ ∃ node ∈ (Forest.nil : Forest (Span ρ × Block ρ)).postorder,
        node.2.tags = some r ∧ node.2.raised.isSome := fun ⟨_, h, _⟩ => List.not_mem_nil h
    simp only [hnone, and_false, or_false]
  old _ _ := rfl
  kept _ h := absurd h List.not_mem_nil
  own _ h := absurd h List.not_mem_nil

/-- One run after another. -/
theorem Traces.append (huuid : Function.Injective uuid) (h₁ : Traces uuid w w₁ g₁)
    (h₂ : Traces uuid w₁ w' g₂) : Traces uuid w w' (g₁ ++ g₂) where
  finished := by
    rw [h₂.finished, h₁.finished, Forest.postorder_append, List.map_append, List.append_assoc]
  active := h₂.active.trans h₁.active
  ids := h₁.ids.trans h₂.ids
  names := by
    rw [Forest.postorder_append]
    exact List.forall_mem_append.mpr ⟨h₁.names, h₂.names⟩
  drawn := by
    rw [Forest.postorder_append]
    refine List.forall_mem_append.mpr ⟨fun node hnode => ?_, fun node hnode => ?_⟩
    · obtain ⟨k, hlow, hhigh, hk⟩ := h₁.drawn node hnode
      exact ⟨k, hlow, hhigh.trans_le h₂.ids, hk⟩
    · obtain ⟨k, hlow, hhigh, hk⟩ := h₂.drawn node hnode
      exact ⟨k, h₁.ids.trans hlow, hhigh, hk⟩
  distinct := by
    rw [Forest.postorder_append, List.map_append]
    refine List.Nodup.append h₁.distinct h₂.distinct fun id hid₁ hid₂ => ?_
    obtain ⟨node₁, hnode₁, rfl⟩ := List.mem_map.mp hid₁
    obtain ⟨node₂, hnode₂, heq⟩ := List.mem_map.mp hid₂
    obtain ⟨k₁, -, hhigh, hk₁⟩ := h₁.drawn node₁ hnode₁
    obtain ⟨k₂, hlow, -, hk₂⟩ := h₂.drawn node₂ hnode₂
    have hsame : k₂ = k₁ := huuid (by rw [← hk₁, ← hk₂, heq])
    omega
  roots := by
    rw [Forest.roots_append]
    refine List.forall_mem_append.mpr ⟨h₁.roots, fun root hroot => ?_⟩
    rw [h₂.roots root hroot, h₁.active]
  edges := by
    rw [Forest.edges_append]
    exact List.forall_mem_append.mpr ⟨h₁.edges, h₂.edges⟩
  inherited parent hparent := by
    rw [Forest.postorder_append]
    exact List.forall_mem_append.mpr
      ⟨h₁.inherited parent hparent, h₂.inherited parent (h₁.active.trans hparent)⟩
  trees := by
    rw [Forest.trees_append]
    exact List.forall_mem_append.mpr ⟨h₁.trees, h₂.trees⟩

theorem TraceState.given_eq_nil (hempty : ∀ r, w₁.dicts (.inl r) = [] ↔ w.dicts (.inl r) = [])
    (tags : Option ρ) : w₁.given tags = [] ↔ w.given tags = [] := by
  cases tags with
  | none => exact Iff.rfl
  | some r => exact hempty r

theorem Tags.append (h₁ : Tags w w₁ g₁) (h₂ : Tags w₁ w' g₂) : Tags w w' (g₁ ++ g₂) where
  made := h₁.made.trans h₂.made
  empty r := (h₂.empty r).trans (h₁.empty r)
  tagged r := by
    have hne : w₁.dicts (.inl r) ≠ [] ↔ w.dicts (.inl r) ≠ [] := not_congr (h₁.empty r)
    rw [h₂.tagged, h₁.tagged, hne, Forest.postorder_append, or_assoc, ← and_or_left]
    simp only [List.mem_append, or_and_right, exists_or]
  old k hk := (h₂.old k (hk.trans_le h₁.made)).trans (h₁.old k hk)
  kept := by
    rw [Forest.postorder_append]
    refine List.forall_mem_append.mpr ⟨h₁.kept, fun node hnode r hr => ?_⟩
    obtain ⟨htags, hne⟩ := h₂.kept node hnode r hr
    exact ⟨htags, fun hnil => hne ((h₁.empty r).mpr hnil)⟩
  own := by
    rw [Forest.postorder_append]
    refine List.forall_mem_append.mpr ⟨fun node hnode k hk => ?_, fun node hnode k hk => ?_⟩
    · obtain ⟨hlow, hhigh, hgiven, htagged⟩ := h₁.own node hnode k hk
      exact ⟨hlow, hhigh.trans_le h₂.made, hgiven, by rw [h₂.old k hhigh, htagged]⟩
    · obtain ⟨hlow, hhigh, hgiven, htagged⟩ := h₂.own node hnode k hk
      exact ⟨h₁.made.trans hlow, hhigh, (TraceState.given_eq_nil h₁.empty _).mp hgiven, htagged⟩

/-! ### One block -/

theorem mem_postorder_block {a node : Span ρ × Block ρ} :
    node ∈ (Forest.cons a g .nil).postorder ↔ node ∈ g.postorder ∨ node = a := by
  show node ∈ g.postorder ++ [a] ↔ _
  rw [List.mem_append, List.mem_singleton]

variable [DecidableEq ρ] {name : String} {tags : Option ρ} {span : Span ρ}

/-- A block around a run. -/
theorem Traces.block (huuid : Function.Injective uuid) (hstart : Started uuid name tags w span w₁)
    (h : Traces uuid { w₁ with active := some span } w₂ g) (raised : Option BaseExn) :
    Traces uuid w (span.exit raised w₁.active w₂) (.cons (span, ⟨name, tags, raised⟩) g .nil) := by
  have hids : w₁.ids ≤ w₂.ids := h.ids
  have hwithin := hstart.ids
  rw [Span.exit_eq]
  constructor
  case finished =>
    show w₂.finished ++ [span] = w.finished ++ (g.postorder ++ [_]).map Prod.fst
    rw [h.finished, hstart.finished, List.map_append, List.append_assoc]
    rfl
  case active => exact hstart.active
  case ids => exact (hstart.ids.le).trans hids
  case names =>
    intro node hnode
    rcases mem_postorder_block.mp hnode with hbelow | rfl
    · exact h.names node hbelow
    · exact hstart.name
  case drawn =>
    intro node hnode
    rcases mem_postorder_block.mp hnode with hbelow | rfl
    · obtain ⟨k, hlow, hhigh, hk⟩ := h.drawn node hbelow
      have hlow' : w₁.ids ≤ k := hlow
      exact ⟨k, by omega, hhigh, hk⟩
    · exact ⟨w.ids, Nat.le_refl _, show w.ids < w₂.ids by omega, hstart.spanId⟩
  case distinct =>
    show ((g.postorder ++ [_]).map _).Nodup
    rw [List.map_append]
    refine List.Nodup.append h.distinct (List.nodup_singleton _) fun id hid hspan => ?_
    obtain rfl := List.mem_singleton.mp hspan
    obtain ⟨node, hnode, heq⟩ := List.mem_map.mp hid
    obtain ⟨k, hlow, -, hk⟩ := h.drawn node hnode
    have hlow' : w₁.ids ≤ k := hlow
    have hsame : k = w.ids := huuid ((hk.symm.trans heq).trans hstart.spanId)
    omega
  case roots =>
    intro root hroot
    obtain rfl := List.mem_singleton.mp hroot
    exact hstart.parentId
  case edges =>
    intro edge hedge
    rcases List.mem_append.mp hedge with hhere | hnil
    · rcases List.mem_append.mp hhere with hroot | hbelow
      · obtain ⟨root, hmem, rfl⟩ := List.mem_map.mp hroot
        exact h.roots root hmem
      · exact h.edges edge hbelow
    · cases hnil
  case inherited =>
    intro parent hparent node hnode
    have hspan := hstart.traceId parent hparent
    rcases mem_postorder_block.mp hnode with hbelow | rfl
    · rw [h.inherited span rfl node hbelow, hspan]
    · exact hspan
  case trees =>
    intro tree htree
    obtain rfl := List.mem_singleton.mp htree
    exact h.inherited span rfl

/-! What `start_span` leaves as it was. -/

theorem Started.made_le (h : Started uuid name tags w span w₁) : w.made ≤ w₁.made := by
  rcases h.tags with ⟨_, _, _, _, _, hmade⟩ | ⟨_, _, _, hmade⟩ <;> omega

theorem Started.dicts_inl (h : Started uuid name tags w span w₁) (r : ρ) :
    w₁.dicts (.inl r) = w.dicts (.inl r) := by
  rcases h.tags with ⟨_, _, _, _, hdicts, _⟩ | ⟨_, _, hdicts, _⟩
  · rw [hdicts]
  · rw [hdicts, Function.update_of_ne (by simp)]

theorem Started.dicts_old (h : Started uuid name tags w span w₁) {k : Nat} (hk : k < w.made) :
    w₁.dicts (.inr k) = w.dicts (.inr k) ∧ .inr k ≠ span.tags := by
  rcases h.tags with ⟨_, _, hspan, _, hdicts, _⟩ | ⟨hspan, _, hdicts, _⟩
  · rw [hdicts, hspan]
    exact ⟨rfl, by simp⟩
  · have hne : (.inr k : ρ ⊕ Nat) ≠ .inr w.made := fun heq => by
      have hsame := Sum.inr.inj heq
      omega
    rw [hdicts, hspan, Function.update_of_ne hne]
    exact ⟨rfl, hne⟩

/-- A dictionary of the program that a block keeps has entries, and is the one it is given. -/
theorem Started.tags_inl (h : Started uuid name tags w span w₁) {r : ρ} (hr : span.tags = .inl r) :
    tags = some r ∧ w.dicts (.inl r) ≠ [] := by
  rcases h.tags with ⟨r', htags, hspan, hne, _, _⟩ | ⟨hspan, _, _, _⟩
  · obtain rfl := Sum.inl.inj (hr.symm.trans hspan)
    exact ⟨htags, hne⟩
  · cases hr.symm.trans hspan

/-- Any other one with entries is not given to it. -/
theorem Started.tags_ne (h : Started uuid name tags w span w₁) {r : ρ} (hr : .inl r ≠ span.tags)
    (hne : w.dicts (.inl r) ≠ []) : tags ≠ some r := by
  rintro rfl
  rcases h.tags with ⟨r', htags, hspan, _, _, _⟩ | ⟨_, hgiven, _, _⟩
  · obtain rfl := Option.some.inj htags
    exact hr hspan.symm
  · exact hne hgiven

/-- One that a block makes is new and empty. -/
theorem Started.tags_inr (h : Started uuid name tags w span w₁) {k : Nat}
    (hk : span.tags = .inr k) :
    k = w.made ∧ w.given tags = [] ∧ w₁.made = w.made + 1 ∧ w₁.dicts (.inr w.made) = [] := by
  rcases h.tags with ⟨_, _, hspan, _, _, _⟩ | ⟨hspan, hgiven, hdicts, hmade⟩
  · cases hk.symm.trans hspan
  · obtain rfl := Sum.inr.inj (hk.symm.trans hspan)
    refine ⟨rfl, hgiven, hmade, ?_⟩
    rw [hdicts, Function.update_self]

theorem Started.ne_of_made_le (h : Started uuid name tags w span w₁) {k : Nat}
    (hk : w₁.made ≤ k) : .inr k ≠ span.tags := by
  intro heq
  obtain ⟨rfl, -, hmade, -⟩ := h.tags_inr heq.symm
  omega

theorem Tags.block (hstart : Started uuid name tags w span w₁)
    (h : Tags { w₁ with active := some span } w₂ g) (raised : Option BaseExn) :
    Tags w (span.exit raised w₁.active w₂) (.cons (span, ⟨name, tags, raised⟩) g .nil) := by
  have hmade : w₁.made ≤ w₂.made := h.made
  have hstarted := hstart.made_le
  have hexit : (span.exit raised w₁.active w₂).made = w₂.made := by rw [Span.exit_eq]
  have hempty : ∀ r, w₂.dicts (.inl r) = [] ↔ w.dicts (.inl r) = [] := by
    intro r
    rw [← hstart.dicts_inl r]
    exact h.empty r
  constructor
  case made => omega
  case empty =>
    intro r
    by_cases hr : .inl r = span.tags
    · have hne := (hstart.tags_inl hr.symm).2
      have hkept := span.exit_ne_nil raised w₁.active w₂ (by rw [← hr, ne_eq, hempty]; exact hne)
      rw [← hr] at hkept
      exact iff_of_false hkept hne
    · rw [span.dicts_exit_of_ne raised w₁.active w₂ hr, hempty]
  case tagged =>
    intro r
    have hbody : Tagged (w₂.dicts (.inl r)) ↔ Tagged (w.dicts (.inl r)) ∨
        w.dicts (.inl r) ≠ [] ∧
          ∃ node ∈ g.postorder, node.2.tags = some r ∧ node.2.raised.isSome := by
      rw [← hstart.dicts_inl r]
      exact h.tagged r
    simp only [mem_postorder_block, or_and_right, exists_or, exists_eq_left]
    by_cases hr : .inl r = span.tags
    · obtain ⟨rfl, hne⟩ := hstart.tags_inl hr.symm
      rw [hr, span.tagged_exit, ← hr, hbody]
      simp only [hne, ne_eq, not_false_eq_true, true_and]
      rw [or_left_comm, or_comm (a := raised.isSome = true)]
    · have hother : w.dicts (.inl r) ≠ [] → tags ≠ some r := hstart.tags_ne hr
      rw [span.dicts_exit_of_ne raised w₁.active w₂ hr, hbody]
      by_cases hne : w.dicts (.inl r) = []
      · simp [hne]
      · simp [hother hne]
  case old =>
    intro k hk
    obtain ⟨hold, hne⟩ := hstart.dicts_old hk
    rw [span.dicts_exit_of_ne raised w₁.active w₂ hne, ← hold]
    exact h.old k (show k < w₁.made by omega)
  case kept =>
    intro node hnode r hr
    rcases mem_postorder_block.mp hnode with hbelow | rfl
    · obtain ⟨htags, hne⟩ := h.kept node hbelow r hr
      exact ⟨htags, by rw [← hstart.dicts_inl r]; exact hne⟩
    · exact hstart.tags_inl hr
  case own =>
    intro node hnode k hk
    rw [hexit]
    rcases mem_postorder_block.mp hnode with hbelow | rfl
    · obtain ⟨hlow, hhigh, hgiven, htagged⟩ := h.own node hbelow k hk
      have hlow' : w₁.made ≤ k := hlow
      rw [span.dicts_exit_of_ne raised w₁.active w₂ (hstart.ne_of_made_le hlow')]
      exact ⟨by omega, hhigh, (TraceState.given_eq_nil (fun r => by rw [← hstart.dicts_inl r]) _).mp
        hgiven, htagged⟩
    · obtain ⟨rfl, hgiven, hnew, hfresh⟩ := hstart.tags_inr hk
      have hold : w₂.dicts (.inr w.made) = w₁.dicts (.inr w.made) :=
        h.old _ (show w.made < w₁.made by omega)
      refine ⟨Nat.le_refl _, by omega, hgiven, ?_⟩
      have hspan : span.tags = .inr w.made := hk
      rw [← hspan, span.tagged_exit, hspan, hold, hfresh]
      simp [not_tagged_nil]

/-! ### Programs -/

section Equations

variable (uuid : Nat → String) (first second body : Program ρ) (handler : BaseExn → Program ρ)
  (w : TraceState ρ)

theorem exec_seq : exec uuid (.seq first second) w =
    match (exec uuid first w).1 with
    | none => exec uuid second (exec uuid first w).2
    | some _ => exec uuid first w := by
  conv_lhs => unfold exec
  obtain ⟨raised, w'⟩ := exec uuid first w
  cases raised <;> rfl

theorem exec_tryExcept : exec uuid (.tryExcept body handler) w =
    match (exec uuid body w).1 with
    | none => exec uuid body w
    | some raised => exec uuid (handler raised) (exec uuid body w).2 := by
  conv_lhs => unfold exec
  obtain ⟨raised, w'⟩ := exec uuid body w
  cases raised <;> rfl

omit [DecidableEq ρ] in
theorem blocks_seq : blocks (.seq first second) =
    match (blocks first).2 with
    | none => ((blocks first).1 ++ (blocks second).1, (blocks second).2)
    | some _ => blocks first := by
  conv_lhs => unfold blocks
  obtain ⟨before, raised⟩ := blocks first
  cases raised <;> rfl

omit [DecidableEq ρ] in
theorem blocks_tryExcept : blocks (.tryExcept body handler) =
    match (blocks body).2 with
    | none => blocks body
    | some raised =>
        ((blocks body).1 ++ (blocks (handler raised)).1, (blocks (handler raised)).2) := by
  conv_lhs => unfold blocks
  obtain ⟨before, raised⟩ := blocks body
  cases raised <;> rfl

end Equations

/-- **Runs.** -/
theorem exec_traces (huuid : Function.Injective uuid) (p : Program ρ) (w : TraceState ρ) :
    (exec uuid p w).1 = (blocks p).2 ∧
      ∃ g : Forest (Span ρ × Block ρ), g.map Prod.snd = (blocks p).1 ∧
        Traces uuid w (exec uuid p w).2 g ∧ Tags w (exec uuid p w).2 g := by
  induction p generalizing w with
  | skip => exact ⟨rfl, .nil, rfl, .refl uuid w, .refl w⟩
  | raise raised => exact ⟨rfl, .nil, rfl, .refl uuid w, .refl w⟩
  | seq first second ihfirst ihsecond =>
      obtain ⟨hraised₁, g₁, hblocks₁, htraces₁, htags₁⟩ := ihfirst w
      obtain ⟨hraised₂, g₂, hblocks₂, htraces₂, htags₂⟩ := ihsecond (exec uuid first w).2
      rw [exec_seq, blocks_seq, hraised₁]
      cases (blocks first).2 with
      | none =>
          refine ⟨hraised₂, g₁ ++ g₂, ?_, htraces₁.append huuid htraces₂, htags₁.append htags₂⟩
          rw [Forest.map_append, hblocks₁, hblocks₂]
      | some raised => exact ⟨hraised₁, g₁, hblocks₁, htraces₁, htags₁⟩
  | tryExcept body handler ihbody ihhandler =>
      obtain ⟨hraised₁, g₁, hblocks₁, htraces₁, htags₁⟩ := ihbody w
      rw [exec_tryExcept, blocks_tryExcept, hraised₁]
      cases (blocks body).2 with
      | none => exact ⟨hraised₁, g₁, hblocks₁, htraces₁, htags₁⟩
      | some raised =>
          obtain ⟨hraised₂, g₂, hblocks₂, htraces₂, htags₂⟩ :=
            ihhandler raised (exec uuid body w).2
          refine ⟨hraised₂, g₁ ++ g₂, ?_, htraces₁.append huuid htraces₂, htags₁.append htags₂⟩
          rw [Forest.map_append, hblocks₁, hblocks₂]
  | withSpan name tags body ih =>
      have hstart := started_startSpan uuid name tags w
      obtain ⟨hraised, g, hblocks, htraces, htags⟩ := ih
        { (startSpan uuid name tags w).2 with active := some (startSpan uuid name tags w).1 }
      refine ⟨hraised, .cons ((startSpan uuid name tags w).1, ⟨name, tags, (blocks body).2⟩) g .nil,
        ?_, ?_, ?_⟩
      · show Forest.cons (Block.mk name tags _) (g.map Prod.snd) .nil = _
        rw [hblocks]
        rfl
      · rw [← hraised]
        exact htraces.block huuid hstart _
      · rw [← hraised]
        exact htags.block hstart _

/-! ## Faithful traces -/

/-- The finished spans are the entered blocks, and say of them what holds. -/
structure FaithfulForest (w w' : TraceState ρ) (g : Forest (Span ρ × Block ρ)) : Prop where
  finished : w'.finished = w.finished ++ g.postorder.map Prod.fst
  distinct : (g.postorder.map (·.1.spanId)).Nodup
  roots : ∀ root ∈ g.roots, root.1.parentId = w.active.map Span.spanId
  edges : ∀ edge ∈ g.edges, edge.2.1.parentId = some edge.1.1.spanId
  trees : ∀ tree ∈ g.trees, ∀ node ∈ tree.2.postorder, node.1.traceId = tree.1.1.traceId
  before : ∀ edge ∈ g.edges, [edge.2, edge.1].Sublist g.postorder
  errors : ∀ node ∈ g.postorder, Tagged (w'.dicts node.1.tags) ↔
    node.2.raised.isSome ∨ Tagged (w.given node.2.tags)
  active : w'.active = w.active

def Faithful (p : Program ρ) (w w' : TraceState ρ) : Prop :=
  ∃ g : Forest (Span ρ × Block ρ), g.map Prod.snd = (blocks p).1 ∧ FaithfulForest w w' g

/-- No dictionary with entries, but without error tags, is given both to a block that an exception
    leaves and to one that none leaves. -/
def Unshared (p : Program ρ) (w : TraceState ρ) : Prop :=
  ∀ a ∈ (blocks p).1.postorder, ∀ b ∈ (blocks p).1.postorder, ∀ r,
    a.tags = some r → b.tags = some r → w.dicts (.inl r) ≠ [] → ¬ Tagged (w.dicts (.inl r)) →
      a.raised.isSome → b.raised.isSome

omit [DecidableEq ρ] in
/-- A block that is given a dictionary with entries has it as its tags. -/
theorem Tags.tags_of_given (h : Tags w w' g) {node : Span ρ × Block ρ} (hnode : node ∈ g.postorder)
    {r : ρ} (hr : node.2.tags = some r) (hne : w.dicts (.inl r) ≠ []) :
    node.1.tags = .inl r := by
  cases htags : node.1.tags with
  | inl r' =>
      obtain ⟨hr', -⟩ := h.kept node hnode r' htags
      rw [Option.some.inj (hr.symm.trans hr')]
  | inr k =>
      obtain ⟨-, -, hgiven, -⟩ := h.own node hnode k htags
      rw [hr] at hgiven
      exact absurd hgiven hne

omit [DecidableEq ρ] in
/-- The finished spans and the blocks determine the pairs. -/
theorem FaithfulForest.postorder_eq (h : FaithfulForest w w' g₁) (h₂ : Traces uuid w w' g₂)
    (hblocks : g₁.map Prod.snd = g₂.map Prod.snd) : g₁.postorder = g₂.postorder := by
  have hfst : g₁.postorder.map Prod.fst = g₂.postorder.map Prod.fst :=
    List.append_cancel_left (h.finished.symm.trans h₂.finished)
  have hsnd : g₁.postorder.map Prod.snd = g₂.postorder.map Prod.snd := by
    rw [← Forest.postorder_map, ← Forest.postorder_map, hblocks]
  rw [List.zip_of_prod hfst hsnd]
  exact (List.zip_of_prod rfl rfl).symm

theorem Faithful.unshared (huuid : Function.Injective uuid) {p : Program ρ}
    (h : Faithful p w (exec uuid p w).2) : Unshared p w := by
  intro a ha b hb r har hbr hne huntagged hraised
  obtain ⟨-, g, hblocks, htraces, htags⟩ := exec_traces huuid p w
  obtain ⟨g', hblocks', hfaithful⟩ := h
  rw [← hblocks, Forest.postorder_map] at ha hb
  obtain ⟨nodeA, hnodeA, rfl⟩ := List.mem_map.mp ha
  obtain ⟨nodeB, hnodeB, rfl⟩ := List.mem_map.mp hb
  have hsame := hfaithful.postorder_eq htraces (hblocks'.trans hblocks.symm)
  have herrors := hfaithful.errors nodeB (by rw [hsame]; exact hnodeB)
  -- the exception that left the first block has tagged the dictionary of the second
  have htagged : Tagged ((exec uuid p w).2.dicts nodeB.1.tags) := by
    rw [htags.tags_of_given hnodeB hbr hne]
    exact (htags.tagged r).mpr (.inr ⟨hne, nodeA, hnodeA, har, hraised⟩)
  rw [hbr] at herrors
  exact (herrors.mp htagged).resolve_right huntagged

theorem Unshared.faithful (huuid : Function.Injective uuid) {p : Program ρ}
    (h : Unshared p w) : Faithful p w (exec uuid p w).2 := by
  obtain ⟨-, g, hblocks, htraces, htags⟩ := exec_traces huuid p w
  have hmem : ∀ node ∈ g.postorder, node.2 ∈ (blocks p).1.postorder := by
    intro node hnode
    rw [← hblocks, Forest.postorder_map]
    exact List.mem_map_of_mem hnode
  refine ⟨g, hblocks, htraces.finished, htraces.distinct, htraces.roots, htraces.edges,
    htraces.trees, fun edge hedge => Forest.before_of_edge hedge, fun node hnode => ?_,
    htraces.active⟩
  cases hspan : node.1.tags with
  | inl r =>
      obtain ⟨hr, hne⟩ := htags.kept node hnode r hspan
      have hgiven : w.given node.2.tags = w.dicts (.inl r) := by rw [hr]; rfl
      rw [htags.tagged r, hgiven]
      constructor
      · intro htagged
        by_cases hold : Tagged (w.dicts (.inl r))
        · exact .inr hold
        · obtain ⟨-, other, hother, hother', hraised⟩ := htagged.resolve_left hold
          exact .inl (h other.2 (hmem other hother) node.2 (hmem node hnode) r hother' hr hne hold
            hraised)
      · intro htagged
        rcases htagged with hraised | hold
        · exact .inr ⟨hne, node, hnode, hr, hraised⟩
        · exact .inl hold
  | inr k =>
      obtain ⟨-, -, hgiven, htagged⟩ := htags.own node hnode k hspan
      rw [htagged, hgiven]
      simp [not_tagged_nil]

end Runs

section Example

/-- Identifiers of different lengths. -/
def unaryUuid (n : Nat) : String :=
  String.ofList (List.replicate n 'x')

theorem unaryUuid_injective : Function.Injective unaryUuid := by
  intro m n h
  have hlists := congrArg String.toList h
  simpa [unaryUuid] using congrArg List.length hlists

/-- A dictionary of tags that a program passes on. -/
def chatTags : TraceState Unit where
  dicts := fun _ => [("runtime", .str "v1")]

/-- One block after the other, both with the dictionary; an exception leaves the second. -/
def twoBlocks : Program Unit :=
  .seq (.withSpan "first" (some ()) .skip)
    (.tryExcept (.withSpan "second" (some ()) (.raise (.exception (.valueError "boom"))))
      fun _ => .skip)

/-- The same with a dictionary of their own for each, and one around them. -/
def ownTags : Program Unit :=
  .withSpan "chat" none
    (.seq (.withSpan "first" none .skip)
      (.tryExcept (.withSpan "second" (some ()) (.raise (.exception (.valueError "boom"))))
        fun _ => .skip))

end Example

/-- The first span has the error tags of the second. -/
theorem twoBlocks_leak :
    let w := (exec unaryUuid twoBlocks chatTags).2
    w.finished.map (fun span => (span.name, (w.dicts span.tags).lookup "error.message")) =
        [("first", some (.str "boom")), ("second", some (.str "boom"))] ∧
      ¬ Faithful twoBlocks chatTags w := by
  intro w
  refine ⟨rfl, fun h => ?_⟩
  have hunshared := h.unshared unaryUuid_injective
  have hfirst := hunshared ⟨"second", some (), some (.exception (.valueError "boom"))⟩
    (by simp [twoBlocks, blocks, Forest.postorder]) ⟨"first", some (), none⟩
    (by simp [twoBlocks, blocks, Forest.postorder]) () rfl rfl (by simp [chatTags])
    (fun htagged => by cases htagged.1) rfl
  cases hfirst

/-- **Traces.** A run of a program of blocks raises what the program raises, and its trace is
    faithful exactly if no dictionary of tags is given both to a block that an exception leaves
    and to one that none leaves. -/
theorem exec_faithful_iff {ρ : Type} [DecidableEq ρ] {uuid : Nat → String}
    (huuid : Function.Injective uuid) (p : Program ρ) (w : TraceState ρ) :
    (exec uuid p w).1 = (blocks p).2 ∧ (Faithful p w (exec uuid p w).2 ↔ Unshared p w) :=
  ⟨(exec_traces huuid p w).1, fun h => h.unshared huuid, fun h => h.faithful huuid⟩

theorem ownTags_faithful : Faithful ownTags chatTags (exec unaryUuid ownTags chatTags).2 := by
  refine (exec_faithful_iff unaryUuid_injective ownTags chatTags).2.mpr ?_
  intro a ha b hb r har hbr _ _ _
  have hblocks : (blocks ownTags).1.postorder =
      [⟨"first", none, none⟩, ⟨"second", some (), some (.exception (.valueError "boom"))⟩,
        ⟨"chat", none, none⟩] := by rfl
  rw [hblocks] at hb
  rcases List.mem_cons.mp hb with rfl | hb
  · cases hbr
  · rcases List.mem_cons.mp hb with rfl | hb
    · rfl
    · obtain rfl := List.mem_singleton.mp hb
      cases hbr

end AgentCorp.Observability
