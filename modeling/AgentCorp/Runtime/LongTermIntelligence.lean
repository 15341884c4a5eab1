/-
  Long-term intelligence: what the runtime keeps of the memories of an agent.

  A memory is a dictionary, here with one optional field for each key that is read. The loops
  over the memories are groupings by the normalized title, and the only part that can raise is
  the age of a memory: a date without a time zone cannot be subtracted from the clock.

  * `consolidate_fst`, `evolve_fst`: both loops are groupings.
  * `consolidated_titles_nodup`: a consolidated title occurs once.
  * `shouldForget_ok_iff`: when the age of a memory is not needed, or can be had.
  * `assessMemories_ok_iff`: which memories are assessed without an exception.
-/
import AgentCorp.Lib.Grouping
import AgentCorp.Runtime.AdaptivePlanning

namespace AgentCorp.Runtime

open AgentCorp.Python

/-! ## Memories -/

/-- A `datetime`: its microseconds, in UTC if it has a time zone. -/
structure PyDatetime where
  micros : Int
  aware : Bool
  deriving DecidableEq, Repr

/-- What a memory has under `created_at` or `updated_at`. -/
inductive Timestamp where
  | absent
  | text (s : String)
  | datetime (d : PyDatetime)
  deriving DecidableEq, Repr

/-- `bool(value)`. -/
def Timestamp.truthy : Timestamp → Bool
  | .absent => false
  | .text s => s ≠ ""
  | .datetime _ => true

structure MemoryRecord where
  title : Option String := none
  content : Option String := none
  memoryType : Option String := none
  confidenceScore : Option Rat := none
  importanceScore : Option Rat := none
  createdAt : Timestamp := .absent
  updatedAt : Timestamp := .absent
  source : Option String := none
  provenance : Option (List String) := none
  /-- The entries under the other keys, in the order of the keys. -/
  others : PyDict := []
  deriving DecidableEq, Repr

namespace MemoryRecord

/-- `memory.get("confidence_score", 0.0)`. -/
def confidence (memory : MemoryRecord) : Rat :=
  memory.confidenceScore.getD 0

/-- `memory.get("importance_score", 0.0)`. -/
def importance (memory : MemoryRecord) : Rat :=
  memory.importanceScore.getD 0

/-- `memory.get("title", "").strip().lower()`. -/
def normalizedTitle (L : Lower) (memory : MemoryRecord) : String :=
  L.lower (String.ofList (strip (memory.title.getD "").toList))

/-- `other.get("updated_at") or memory.get("updated_at")`. -/
def laterUpdate (memory other : MemoryRecord) : Timestamp :=
  if other.updatedAt.truthy then other.updatedAt else memory.updatedAt

end MemoryRecord

/-! ## MemoryConsolidationEngine -/

/-- A further memory of the same title. -/
def mergeMemory (current memory : MemoryRecord) : MemoryRecord :=
  { current with
    confidenceScore := some (roundDigits (max current.confidence memory.confidence) 2)
    importanceScore := some (roundDigits (max current.importance memory.importance) 2)
    content := some (current.content.getD "")
    updatedAt := current.laterUpdate memory
    provenance := some (current.provenance.getD [] ++ [memory.source.getD "memory"]) }

/-- The loop of `MemoryConsolidationEngine.consolidate` for one memory: the dictionary by title,
    and the memories to forget. -/
def consolidateStep (L : Lower) (s : Dict MemoryRecord × List MemoryRecord)
    (memory : MemoryRecord) : Dict MemoryRecord × List MemoryRecord :=
  let title := memory.normalizedTitle L
  if title = "" then s
  else
    (Grouping.upsert s.1 title memory (mergeMemory · memory),
      if title ∈ Grouping.keys s.1 ∧ (memory.confidence < 25 / 100 ∨
        memory.importance < 2 / 10) then s.2 ++ [memory] else s.2)

def consolidate (L : Lower) (memories : List MemoryRecord) :
    List MemoryRecord × List MemoryRecord :=
  let (merged, forgotten) := memories.foldl (consolidateStep L) ([], [])
  (merged.map Prod.snd, forgotten)

/-! ## ForgettingPolicy -/

/-- `now - created_at`, in days. -/
def ageInDays (now : Instant) (createdAt : PyDatetime) : Except Exn Int :=
  if createdAt.aware then .ok ((now.micros - createdAt.micros) / 86400000000)
  else .error (.typeError "can't subtract offset-naive and offset-aware datetimes")

/-- The date that is compared with the clock. `fromisoformat` is that of `datetime`. -/
def dateOf (fromisoformat : String → Option PyDatetime) : Timestamp → Option PyDatetime
  | .absent => none
  | .text s => fromisoformat s
  | .datetime d => some d

/-- `ForgettingPolicy.should_forget`, with its defaults. -/
def shouldForget (fromisoformat : String → Option PyDatetime) (now : Instant)
    (memory : MemoryRecord) : Except Exn Bool :=
  if memory.confidence < 25 / 100 then .ok true
  else
    match dateOf fromisoformat memory.createdAt with
    | none => .ok false
    | some createdAt => do
        let days ← ageInDays now createdAt
        return decide (90 < days ∧ memory.confidence < 7 / 10)

/-! ## PreferenceEvolutionEngine -/

/-- A memory of a bucket. The first one is added to its own copy. -/
def evolveMemory (bucket memory : MemoryRecord) : MemoryRecord :=
  { bucket with
    confidenceScore :=
      some (roundDigits (max bucket.confidence memory.confidence + 5 / 100) 2)
    updatedAt := bucket.laterUpdate memory }

/-- The loop of `PreferenceEvolutionEngine.evolve` for one memory. -/
def evolveStep (L : Lower) (s : Dict MemoryRecord × List MemoryRecord) (memory : MemoryRecord) :
    Dict MemoryRecord × List MemoryRecord :=
  let title := memory.normalizedTitle L
  if memory.memoryType ≠ some "semantic" ∨ title = "" then s
  else
    (Grouping.upsert s.1 title (evolveMemory memory memory) (evolveMemory · memory),
      if memory.confidence < 3 / 10 then s.2 ++ [memory] else s.2)

def evolve (L : Lower) (memories : List MemoryRecord) : List MemoryRecord × List MemoryRecord :=
  let (buckets, expired) := memories.foldl (evolveStep L) ([], [])
  (buckets.map Prod.snd, expired)

/-! ## PatternDiscoveryEngine and CapabilityScoringEngine -/

structure DiscoveredPattern where
  patternType : String
  title : String
  summary : String
  confidence : Rat
  deriving DecidableEq, Repr

/-- `PatternDiscoveryEngine.discover`. -/
def discover (learning : LearningReport) (adaptive : Option AdaptivePlanningReport) :
    List DiscoveredPattern :=
  (learning.reusableExecutionPatterns.map fun pattern =>
    ⟨"successful_execution_sequence", pattern.title, pattern.summary, pattern.confidence⟩) ++
  (adaptive.map fun report =>
    (⟨"replanning_rationale", "Adaptive replanning", report.replanningReason,
      report.planningConfidence⟩ : DiscoveredPattern)).toList

/-- The categories, with the word that is searched for. -/
def capabilityCategories : List (String × String) :=
  [("Memory", "memory"), ("Knowledge", "knowledge"), ("RAG", "rag"), ("Workflow", "workflow"),
    ("Tool Execution", "tool"), ("Provider", "provider"), ("Multi-Agent", "multi-agent")]

/-- The statistics of a category with `related` memories. -/
def capabilityStats (related : Nat) : Dict Rat :=
  let successRate := roundDigits (min 1 (35 / 100 + 1 / 10 * related)) 2
  [("success_rate", successRate),
    ("average_latency", roundDigits (max (5 / 100) (3 / 2 - 5 / 100 * related)) 2),
    ("confidence", roundDigits (min (99 / 100) (4 / 10 + 8 / 100 * related)) 2),
    ("historical_usage", related),
    ("failure_frequency", roundDigits (max 0 (1 - successRate)) 2)]

/-- `CapabilityScoringEngine.score`. -/
def scoreCapabilities (L : Lower) (memories : List MemoryRecord) : Dict (Dict Rat) :=
  capabilityCategories.map fun (category, word) =>
    (category, capabilityStats (memories.filter fun memory =>
      contains (L.lower (memory.title.getD "")) word ||
        contains (L.lower (memory.content.getD "")) word).length)

/-! ## LongTermIntelligenceEngine -/

/-- The arguments of `MemoryService.create_memory`. -/
structure NewMemory where
  orgId : Int
  agentId : Int
  title : String
  content : String
  memoryType : String
  importanceScore : Rat
  confidenceScore : Rat
  userId : Int
  deriving DecidableEq, Repr

structure LongTermKnowledge where
  title : String
  summary : String
  confidence : Rat
  knowledgeType : String
  deriving DecidableEq, Repr

structure LongTermIntelligenceReport where
  consolidatedMemories : List MemoryRecord
  forgottenMemories : List MemoryRecord
  evolvedPreferences : List MemoryRecord
  discoveredPatterns : List DiscoveredPattern
  capabilityScores : Dict (Dict Rat)
  longTermKnowledge : List LongTermKnowledge
  intelligenceConfidence : Rat
  persisted : Bool
  deriving DecidableEq, Repr

/-- The evolved preferences that are too old. The clock is read once for each. -/
def forgetAll (fromisoformat : String → Option PyDatetime) (clock : Clock)
    (memories : List MemoryRecord) : Except Exn (List MemoryRecord) := do
  let marked ← memories.zipIdx.mapM fun (memory, i) => do
    let forget ← shouldForget fromisoformat (clock i) memory
    return if forget then [memory] else []
  return marked.flatten

/-- The confidence of the report. -/
def intelligenceConfidence (learning : LearningReport) (adaptive : Option AdaptivePlanningReport) :
    Rat :=
  roundDigits (min (99 / 100) ((learning.confidence +
    ((adaptive.map AdaptivePlanningReport.planningConfidence).getD (1 / 2)) + 1 / 2) / 3)) 2

/-- The two records that every run stores. -/
def knowledgeRecords (learning : LearningReport) (confidence : Rat) : List LongTermKnowledge :=
  [⟨"Execution strategy", learning.summary, learning.confidence, "execution_strategy"⟩,
    ⟨"Capability scores", "Persisted capability effectiveness statistics.", confidence,
      "capability_statistics"⟩]

/-- A knowledge record as a memory. -/
def LongTermKnowledge.toMemory (knowledge : LongTermKnowledge)
    (organizationId agentId userId : Int) : NewMemory where
  orgId := organizationId
  agentId := agentId
  title := knowledge.title
  content := knowledge.summary
  memoryType := "long_term"
  importanceScore := knowledge.confidence
  confidenceScore := knowledge.confidence
  userId := userId

/-- What the engine makes of the memories. -/
def assessMemories (L : Lower) (fromisoformat : String → Option PyDatetime) (clock : Clock)
    (learning : LearningReport) (adaptive : Option AdaptivePlanningReport)
    (memories : List MemoryRecord) : Except Exn LongTermIntelligenceReport := do
  let (consolidated, forgottenFromConsolidation) := consolidate L memories
  let (evolved, expired) := evolve L consolidated
  let forgotten ← forgetAll fromisoformat clock evolved
  let confidence := intelligenceConfidence learning adaptive
  return {
    consolidatedMemories := consolidated
    forgottenMemories := forgotten ++ forgottenFromConsolidation ++ expired
    evolvedPreferences := evolved
    discoveredPatterns := discover learning adaptive
    capabilityScores := scoreCapabilities L evolved
    longTermKnowledge := knowledgeRecords learning confidence
    intelligenceConfidence := confidence
    persisted := true }

/-- The report of a runtime without a memory service. -/
def unavailableReport : LongTermIntelligenceReport where
  consolidatedMemories := []
  forgottenMemories := []
  evolvedPreferences := []
  discoveredPatterns := []
  capabilityScores := []
  longTermKnowledge := []
  intelligenceConfidence := 1 / 2
  persisted := false

/-! ## Consolidated memories -/

section Consolidation

variable (L : Lower)

/-- The memories with a title. -/
def titled (memories : List MemoryRecord) : List MemoryRecord :=
  memories.filter fun memory => memory.normalizedTitle L ≠ ""

theorem consolidateStep_fst (memories : List MemoryRecord) (d : Dict MemoryRecord)
    (forgotten : List MemoryRecord) :
    (memories.foldl (consolidateStep L) (d, forgotten)).1 =
      (titled L memories).foldl
        (fun d memory => Grouping.upsert d (memory.normalizedTitle L) memory
          (mergeMemory · memory)) d := by
  induction memories generalizing d forgotten with
  | nil => rfl
  | cons memory memories ih =>
      unfold titled at ih ⊢
      by_cases htitle : memory.normalizedTitle L = ""
      · have hstep : consolidateStep L (d, forgotten) memory = (d, forgotten) := by
          simp only [consolidateStep, htitle, if_true]
        rw [List.foldl_cons, hstep, List.filter_cons_of_neg (by simpa using htitle)]
        exact ih d forgotten
      · rw [List.foldl_cons, List.filter_cons_of_pos (by simpa using htitle), List.foldl_cons]
        simp only [consolidateStep, if_neg htitle]
        exact ih _ _

/-- The consolidation groups the memories by title. -/
theorem consolidate_fst (memories : List MemoryRecord) :
    (consolidate L memories).1 =
      (Grouping.group (MemoryRecord.normalizedTitle L) id mergeMemory
        (titled L memories)).map Prod.snd := by
  show (memories.foldl (consolidateStep L) ([], [])).1.map Prod.snd = _
  rw [consolidateStep_fst]
  rfl

/-- What the later memories of a title leave of the first one. -/
theorem foldl_mergeMemory (first : MemoryRecord) (rest : List MemoryRecord) :
    (rest.foldl mergeMemory first).title = first.title ∧
      (rest.foldl mergeMemory first).memoryType = first.memoryType ∧
      (rest.foldl mergeMemory first).createdAt = first.createdAt := by
  induction rest generalizing first with
  | nil => exact ⟨rfl, rfl, rfl⟩
  | cons memory rest ih => exact ih (mergeMemory first memory)

/-- The confidence of a title: the greatest one, rounded each time a memory is merged. -/
def groupConfidence (first : MemoryRecord) (rest : List MemoryRecord) : Rat :=
  rest.foldl (fun confidence memory => roundDigits (max confidence memory.confidence) 2)
    first.confidence

theorem foldl_mergeMemory_confidence (first : MemoryRecord) (rest : List MemoryRecord) :
    (rest.foldl mergeMemory first).confidence = groupConfidence first rest := by
  unfold groupConfidence
  induction rest generalizing first with
  | nil => rfl
  | cons memory rest ih => exact ih (mergeMemory first memory)

theorem mem_consolidate {memories : List MemoryRecord} {memory : MemoryRecord} :
    memory ∈ (consolidate L memories).1 ↔
      ∃ title first rest,
        (titled L memories).filter (fun m => m.normalizedTitle L = title) = first :: rest ∧
        memory = rest.foldl mergeMemory first := by
  rw [consolidate_fst, List.mem_map]
  constructor
  · rintro ⟨⟨title, m⟩, hmem, rfl⟩
    obtain ⟨first, rest, hfilter, hm⟩ := (Grouping.mem_group _ _ _).mp hmem
    exact ⟨title, first, rest, hfilter, hm⟩
  · rintro ⟨title, first, rest, hfilter, rfl⟩
    exact ⟨(title, _), (Grouping.mem_group _ _ _).mpr ⟨first, rest, hfilter, rfl⟩, rfl⟩

/-- An entry of the consolidation stands under its own title. -/
theorem normalizedTitle_of_mem_group {memories : List MemoryRecord} {title : String}
    {memory : MemoryRecord}
    (h : (title, memory) ∈ Grouping.group (MemoryRecord.normalizedTitle L) id mergeMemory
      (titled L memories)) :
    memory.normalizedTitle L = title ∧ title ≠ "" := by
  obtain ⟨first, rest, hfilter, rfl⟩ := (Grouping.mem_group _ _ _).mp h
  obtain ⟨htitled, htitle⟩ := List.mem_filter.mp
    (hfilter ▸ List.mem_cons_self : first ∈ List.filter _ _)
  have hfirst : first.normalizedTitle L = title := by simpa using htitle
  have hsame : (rest.foldl mergeMemory first).normalizedTitle L = first.normalizedTitle L := by
    unfold MemoryRecord.normalizedTitle
    rw [(foldl_mergeMemory first rest).1]
  refine ⟨hsame.trans hfirst, ?_⟩
  rw [← hfirst]
  simpa using (List.mem_filter.mp htitled).2

/-- The titles of the consolidated memories are the keys of the groups. -/
theorem titles_consolidate (memories : List MemoryRecord) :
    (consolidate L memories).1.map (MemoryRecord.normalizedTitle L) =
      Grouping.keys (Grouping.group (MemoryRecord.normalizedTitle L) id mergeMemory
        (titled L memories)) := by
  rw [consolidate_fst, List.map_map]
  refine List.map_congr_left fun entry hentry => ?_
  exact (normalizedTitle_of_mem_group L hentry).1

/-- A title occurs once in the consolidated memories. -/
theorem consolidated_titles_nodup (memories : List MemoryRecord) :
    ((consolidate L memories).1.map (MemoryRecord.normalizedTitle L)).Nodup := by
  rw [titles_consolidate]
  exact Grouping.nodup_keys_group _ _ _ _

/-! ## Evolved preferences -/

/-- The semantic memories with a title. -/
def semanticTitled (memories : List MemoryRecord) : List MemoryRecord :=
  memories.filter fun memory =>
    memory.memoryType = some "semantic" ∧ memory.normalizedTitle L ≠ ""

theorem evolveStep_fst (memories : List MemoryRecord) (d : Dict MemoryRecord)
    (expired : List MemoryRecord) :
    (memories.foldl (evolveStep L) (d, expired)).1 =
      (semanticTitled L memories).foldl
        (fun d memory => Grouping.upsert d (memory.normalizedTitle L)
          (evolveMemory memory memory) (evolveMemory · memory)) d := by
  induction memories generalizing d expired with
  | nil => rfl
  | cons memory memories ih =>
      unfold semanticTitled at ih ⊢
      by_cases hskip : memory.memoryType ≠ some "semantic" ∨ memory.normalizedTitle L = ""
      · have hstep : evolveStep L (d, expired) memory = (d, expired) := by
          simp only [evolveStep, if_pos hskip]
        rw [List.foldl_cons, hstep, List.filter_cons_of_neg (by
          simp only [decide_eq_true_eq]
          tauto)]
        exact ih d expired
      · rw [List.foldl_cons, List.filter_cons_of_pos (by
          simp only [decide_eq_true_eq]
          tauto), List.foldl_cons]
        simp only [evolveStep, if_neg hskip]
        exact ih _ _

/-- The evolution groups the semantic memories by title. -/
theorem evolve_fst (memories : List MemoryRecord) :
    (evolve L memories).1 =
      (Grouping.group (MemoryRecord.normalizedTitle L) (fun memory => evolveMemory memory memory)
        evolveMemory (semanticTitled L memories)).map Prod.snd := by
  show (memories.foldl (evolveStep L) ([], [])).1.map Prod.snd = _
  rw [evolveStep_fst]
  rfl

/-- Of memories whose titles differ, each semantic one evolves by itself. -/
theorem evolve_of_nodup {memories : List MemoryRecord}
    (h : (memories.map (MemoryRecord.normalizedTitle L)).Nodup) :
    (evolve L memories).1 =
      (semanticTitled L memories).map fun memory => evolveMemory memory memory := by
  have hnodup : ((semanticTitled L memories).map (MemoryRecord.normalizedTitle L)).Nodup :=
    List.Nodup.sublist (List.filter_sublist.map _) h
  rw [evolve_fst, Grouping.group_of_nodup _ _ _ hnodup, List.map_map]
  rfl

/-- The preference that the memories of a title leave. -/
theorem mem_evolved {memories : List MemoryRecord} {memory : MemoryRecord} :
    memory ∈ (evolve L (consolidate L memories).1).1 ↔
      ∃ title first rest,
        (titled L memories).filter (fun m => m.normalizedTitle L = title) = first :: rest ∧
        first.memoryType = some "semantic" ∧
        memory = evolveMemory (rest.foldl mergeMemory first) (rest.foldl mergeMemory first) := by
  rw [evolve_of_nodup L (consolidated_titles_nodup L memories), List.mem_map]
  unfold semanticTitled
  simp only [List.mem_filter, decide_eq_true_eq]
  constructor
  · rintro ⟨merged, ⟨hmem, hsemantic, -⟩, rfl⟩
    obtain ⟨title, first, rest, hgroup, rfl⟩ := (mem_consolidate L).mp hmem
    rw [(foldl_mergeMemory first rest).2.1] at hsemantic
    exact ⟨title, first, rest, hgroup, hsemantic, rfl⟩
  · rintro ⟨title, first, rest, hgroup, hsemantic, rfl⟩
    have hentry := (Grouping.mem_group (MemoryRecord.normalizedTitle L) id mergeMemory
      (a := rest.foldl mergeMemory first)).mpr ⟨first, rest, hgroup, rfl⟩
    obtain ⟨hown, hne⟩ := normalizedTitle_of_mem_group L hentry
    refine ⟨_, ⟨(mem_consolidate L).mpr ⟨title, first, rest, hgroup, rfl⟩, ?_, ?_⟩, rfl⟩
    · rw [(foldl_mergeMemory first rest).2.1]
      exact hsemantic
    · rw [hown]
      exact hne

theorem evolved_confidence (first : MemoryRecord) (rest : List MemoryRecord) :
    (evolveMemory (rest.foldl mergeMemory first) (rest.foldl mergeMemory first)).confidence =
      roundDigits (groupConfidence first rest + 5 / 100) 2 := by
  rw [← foldl_mergeMemory_confidence]
  show roundDigits (max (rest.foldl mergeMemory first).confidence
    (rest.foldl mergeMemory first).confidence + 5 / 100) 2 = _
  rw [max_self]

end Consolidation

/-! ## What can be dated -/

section Forgetting

variable (fromisoformat : String → Option PyDatetime)

/-- The memory has a date without a time zone. -/
def NaiveDate (memory : MemoryRecord) : Prop :=
  ∃ createdAt, dateOf fromisoformat memory.createdAt = some createdAt ∧ createdAt.aware = false

/-- A title keeps the date of its first memory. -/
theorem naiveDate_evolved (first : MemoryRecord) (rest : List MemoryRecord) :
    NaiveDate fromisoformat
        (evolveMemory (rest.foldl mergeMemory first) (rest.foldl mergeMemory first)) ↔
      NaiveDate fromisoformat first := by
  have hdate : (evolveMemory (rest.foldl mergeMemory first)
      (rest.foldl mergeMemory first)).createdAt = first.createdAt :=
    (foldl_mergeMemory first rest).2.2
  unfold NaiveDate
  rw [hdate]

theorem shouldForget_ok_iff (now : Instant) (memory : MemoryRecord) :
    (∃ forget, shouldForget fromisoformat now memory = .ok forget) ↔
      (NaiveDate fromisoformat memory → memory.confidence < 25 / 100) := by
  unfold shouldForget NaiveDate
  by_cases hlow : memory.confidence < 25 / 100
  · simp [hlow]
  · rw [if_neg hlow]
    cases hdate : dateOf fromisoformat memory.createdAt with
    | none => simp
    | some createdAt =>
        unfold ageInDays
        cases haware : createdAt.aware with
        | true => simp [haware, bind, Except.bind, pure, Except.pure]
        | false => simp [haware, hlow, bind, Except.bind]

/-- The memory, if it is forgotten: what `forgetAll` makes of each memory. -/
def forgetOne (now : Instant) (memory : MemoryRecord) : Except Exn (List MemoryRecord) := do
  let forget ← shouldForget fromisoformat now memory
  return if forget then [memory] else []

theorem forgetOne_ok_iff (now : Instant) (memory : MemoryRecord) :
    (∃ marked, forgetOne fromisoformat now memory = .ok marked) ↔
      (NaiveDate fromisoformat memory → memory.confidence < 25 / 100) := by
  rw [← shouldForget_ok_iff fromisoformat now memory]
  unfold forgetOne
  cases shouldForget fromisoformat now memory <;> simp [bind, Except.bind, pure, Except.pure]

theorem forgetAll_eq (clock : Clock) (memories : List MemoryRecord) :
    forgetAll fromisoformat clock memories =
      (memories.zipIdx.mapM fun entry => forgetOne fromisoformat (clock entry.2) entry.1).map
        List.flatten :=
  rfl

theorem forgetAll_ok_iff (clock : Clock) (memories : List MemoryRecord) :
    (∃ forgotten, forgetAll fromisoformat clock memories = .ok forgotten) ↔
      ∀ memory ∈ memories, NaiveDate fromisoformat memory → memory.confidence < 25 / 100 := by
  have hflatten : (∃ forgotten, forgetAll fromisoformat clock memories = .ok forgotten) ↔
      ∃ marked, memories.zipIdx.mapM (fun entry =>
        forgetOne fromisoformat (clock entry.2) entry.1) = .ok marked := by
    rw [forgetAll_eq]
    cases memories.zipIdx.mapM fun entry => forgetOne fromisoformat (clock entry.2) entry.1 <;>
      simp [Except.map]
  rw [hflatten, Proc.mapM_ok_iff]
  constructor
  · intro h memory hmemory
    obtain ⟨i, hi, rfl⟩ := List.getElem_of_mem hmemory
    have hentry : (memories[i], i) ∈ memories.zipIdx :=
      List.mk_mem_zipIdx_iff_getElem?.mpr (by simp [hi])
    exact (forgetOne_ok_iff fromisoformat (clock i) memories[i]).mp (h (memories[i], i) hentry)
  · intro h entry hentry
    exact (forgetOne_ok_iff fromisoformat (clock entry.2) entry.1).mpr
      (h entry.1 (List.fst_mem_of_mem_zipIdx hentry))

/-- No title needs the age of a memory that has none: where the first memory of a title is
    semantic and its date has no time zone, the title's confidence is too low to be kept. -/
def Datable (L : Lower) (memories : List MemoryRecord) : Prop :=
  ∀ title first rest,
    (titled L memories).filter (fun memory => memory.normalizedTitle L = title) = first :: rest →
    first.memoryType = some "semantic" → NaiveDate fromisoformat first →
    roundDigits (groupConfidence first rest + 5 / 100) 2 < 25 / 100

/-- The memories are assessed without an exception exactly if they can be dated. -/
theorem assessMemories_ok_iff (L : Lower) (clock : Clock) (learning : LearningReport)
    (adaptive : Option AdaptivePlanningReport) (memories : List MemoryRecord) :
    (∃ report, assessMemories L fromisoformat clock learning adaptive memories = .ok report) ↔
      Datable fromisoformat L memories := by
  have hforget : (∃ report,
        assessMemories L fromisoformat clock learning adaptive memories = .ok report) ↔
      ∃ forgotten, forgetAll fromisoformat clock (evolve L (consolidate L memories).1).1 =
        .ok forgotten := by
    unfold assessMemories
    cases h : forgetAll fromisoformat clock (evolve L (consolidate L memories).1).1 <;>
      simp [h, bind, Except.bind, pure, Except.pure]
  rw [hforget, forgetAll_ok_iff]
  constructor
  · intro h title first rest hgroup hsemantic hnaive
    have hlow := h _ ((mem_evolved L).mpr ⟨title, first, rest, hgroup, hsemantic, rfl⟩)
      ((naiveDate_evolved fromisoformat first rest).mpr hnaive)
    rwa [evolved_confidence] at hlow
  · intro h memory hmemory hnaive
    obtain ⟨title, first, rest, hgroup, hsemantic, rfl⟩ := (mem_evolved L).mp hmemory
    rw [evolved_confidence]
    exact h title first rest hgroup hsemantic
      ((naiveDate_evolved fromisoformat first rest).mp hnaive)

end Forgetting

end AgentCorp.Runtime
