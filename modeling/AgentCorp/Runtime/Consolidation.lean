/-
  What the consolidation of memories keeps and forgets, title by title.

  A memory of a title that is new is kept as it is; each further one is merged into it, and
  forgotten if it scores low.

  * `titles_eq_eraseDups`: the titles, in the order in which they first occur.
  * `foldl_merge_score`: rounding at every merge gives the rounded maximum.
  * `forgotten_filter`: what is forgotten of a title.
  * `consolidate_consolidate`: the second consolidation changes and forgets nothing.
-/
import AgentCorp.Python.Rounding
import AgentCorp.Runtime.LongTermIntelligence
import Mathlib.Order.Bounds.Basic

namespace AgentCorp.Runtime

open AgentCorp.Python

/-! ## Rounded maxima -/

/-- The maximum of a score over the memories that follow, from a first value. -/
def greatest (score : MemoryRecord → ℚ) (first : ℚ) (rest : List MemoryRecord) : ℚ :=
  rest.foldl (fun best memory => max best (score memory)) first

theorem isGreatest_greatest (score : MemoryRecord → ℚ) (first : MemoryRecord)
    (rest : List MemoryRecord) :
    IsGreatest {x | ∃ memory ∈ first :: rest, score memory = x}
      (greatest score (score first) rest) := by
  -- `best` is the maximum of the memories before.
  have key : ∀ (before : List MemoryRecord) (best : ℚ),
      IsGreatest {x | ∃ memory ∈ before, score memory = x} best →
      IsGreatest {x | ∃ memory ∈ before ++ rest, score memory = x} (greatest score best rest) := by
    induction rest with
    | nil => intro before best h; simpa [greatest] using h
    | cons memory rest ih =>
        intro before best h
        have hnext : IsGreatest {x | ∃ m ∈ before ++ [memory], score m = x}
            (max best (score memory)) := by
          have hunion : {x | ∃ m ∈ before ++ [memory], score m = x} =
              {x | ∃ m ∈ before, score m = x} ∪ {score memory} := by
            ext x
            simp [or_and_right, exists_or, eq_comm, or_comm]
          rw [hunion]
          exact h.union isGreatest_singleton
        have hrest := ih (before ++ [memory]) _ hnext
        rw [List.append_assoc] at hrest
        exact hrest
  have hone : IsGreatest {x | ∃ memory ∈ [first], score memory = x} (score first) := by
    simp
  exact key [first] (score first) hone

/-- **Rounding at every merge** gives the rounded maximum, for a score that merging rounds. -/
theorem foldl_merge_score {score : MemoryRecord → Option ℚ}
    (hmerge : ∀ current memory, score (mergeMemory current memory) =
      some (roundDigits (max ((score current).getD 0) ((score memory).getD 0)) 2))
    (first memory : MemoryRecord) (rest : List MemoryRecord) :
    score ((memory :: rest).foldl mergeMemory first) =
      some (roundDigits (greatest (fun m => (score m).getD 0) ((score first).getD 0)
        (memory :: rest)) 2) := by
  -- `best` is the maximum so far, of which the memory has the rounded value.
  have key : ∀ (rest : List MemoryRecord) (current : MemoryRecord) (best : ℚ),
      score current = some (roundDigits best 2) →
      score (rest.foldl mergeMemory current) =
        some (roundDigits (greatest (fun m => (score m).getD 0) best rest) 2) := by
    intro rest
    induction rest with
    | nil => intro current best h; exact h
    | cons memory rest ih =>
        intro current best h
        refine ih _ (max best ((score memory).getD 0)) ?_
        rw [hmerge, h, Option.getD_some, roundDigits_max_roundDigits]
  exact key rest _ _ (hmerge first memory)

section Consolidation

variable (L : Lower)

/-! ## One record for each title -/

/-- The memories of a title. -/
def titleGroup (memories : List MemoryRecord) (title : String) : List MemoryRecord :=
  memories.filter fun memory => memory.normalizedTitle L = title

variable {L}

theorem mem_titleGroup {memories : List MemoryRecord} {title : String} {memory : MemoryRecord} :
    memory ∈ titleGroup L memories title ↔
      memory ∈ memories ∧ memory.normalizedTitle L = title := by
  simp [titleGroup]

theorem length_titleGroup (memories : List MemoryRecord) (title : String) :
    (titleGroup L memories title).length =
      (memories.map (MemoryRecord.normalizedTitle L)).count title := by
  rw [List.count_eq_countP, List.countP_map, List.countP_eq_length_filter]
  rfl

theorem filter_titled {title : String} (htitle : title ≠ "") (memories : List MemoryRecord) :
    (titled L memories).filter (fun memory => memory.normalizedTitle L = title) =
      titleGroup L memories title := by
  unfold titled titleGroup
  rw [List.filter_filter]
  refine List.filter_congr fun memory _ => ?_
  by_cases h : memory.normalizedTitle L = title
  · simp [h, htitle]
  · simp [h]

/-- The titles are in the order in which they first occur. -/
theorem titles_eq_eraseDups (memories : List MemoryRecord) :
    (consolidate L memories).1.map (MemoryRecord.normalizedTitle L) =
      ((memories.map (MemoryRecord.normalizedTitle L)).filter (· ≠ "")).eraseDups := by
  rw [titles_consolidate, Grouping.keys_group, List.filter_map]
  rfl

/-- A record is made of the memories of its title. -/
theorem mem_consolidate_iff {memories : List MemoryRecord} {record : MemoryRecord} :
    record ∈ (consolidate L memories).1 ↔
      ∃ title first rest, title ≠ "" ∧ titleGroup L memories title = first :: rest ∧
        record = rest.foldl mergeMemory first := by
  rw [mem_consolidate]
  constructor
  · rintro ⟨title, first, rest, hgroup, rfl⟩
    have hentry := (Grouping.mem_group (MemoryRecord.normalizedTitle L) id mergeMemory
      (a := rest.foldl mergeMemory first)).mpr ⟨first, rest, hgroup, rfl⟩
    have htitle := (normalizedTitle_of_mem_group L hentry).2
    exact ⟨title, first, rest, htitle, filter_titled htitle memories ▸ hgroup, rfl⟩
  · rintro ⟨title, first, rest, htitle, hgroup, rfl⟩
    exact ⟨title, first, rest, (filter_titled htitle memories).trans hgroup, rfl⟩

theorem normalizedTitle_foldl (first : MemoryRecord) (rest : List MemoryRecord) :
    (rest.foldl mergeMemory first).normalizedTitle L = first.normalizedTitle L := by
  unfold MemoryRecord.normalizedTitle
  rw [(foldl_mergeMemory first rest).1]

theorem title_of_titleGroup {memories : List MemoryRecord} {title : String}
    {first : MemoryRecord} {rest : List MemoryRecord}
    (h : titleGroup L memories title = first :: rest) :
    first ∈ memories ∧ first.normalizedTitle L = title :=
  mem_titleGroup.mp (h ▸ List.mem_cons_self)

/-- The scores of a title that occurs more than once. -/
theorem scores_of_repeated {memories : List MemoryRecord} {record : MemoryRecord}
    (hrecord : record ∈ (consolidate L memories).1)
    (hrepeated : 1 < (titleGroup L memories (record.normalizedTitle L)).length) :
    ∃ confidence importance,
      IsGreatest {x | ∃ memory ∈ titleGroup L memories (record.normalizedTitle L),
        memory.confidence = x} confidence ∧
      IsGreatest {x | ∃ memory ∈ titleGroup L memories (record.normalizedTitle L),
        memory.importance = x} importance ∧
      record.confidenceScore = some (roundDigits confidence 2) ∧
      record.importanceScore = some (roundDigits importance 2) := by
  obtain ⟨title, first, rest, -, hgroup, rfl⟩ := mem_consolidate_iff.mp hrecord
  rw [normalizedTitle_foldl, (title_of_titleGroup hgroup).2, hgroup] at hrepeated ⊢
  cases rest with
  | nil => simp at hrepeated
  | cons memory rest =>
      exact ⟨_, _, isGreatest_greatest MemoryRecord.confidence first _,
        isGreatest_greatest MemoryRecord.importance first _,
        foldl_merge_score (fun _ _ => rfl) first memory rest,
        foldl_merge_score (fun _ _ => rfl) first memory rest⟩

/-! ## What is forgotten -/

/-- The test of a memory that is merged. -/
def ScoresLow (memory : MemoryRecord) : Prop :=
  memory.confidence < 25 / 100 ∨ memory.importance < 2 / 10

instance : DecidablePred ScoresLow :=
  fun _ => inferInstanceAs (Decidable (_ ∨ _))

theorem consolidate_snd (memories : List MemoryRecord) :
    (consolidate L memories).2 = (memories.foldl (consolidateStep L) ([], [])).2 := rfl

theorem mem_keys_iff (memories : List MemoryRecord) {title : String} (htitle : title ≠ "") :
    title ∈ Grouping.keys (memories.foldl (consolidateStep L) ([], [])).1 ↔
      titleGroup L memories title ≠ [] := by
  have hkeys : (memories.foldl (consolidateStep L) ([], [])).1 =
      Grouping.group (MemoryRecord.normalizedTitle L) id mergeMemory (titled L memories) :=
    consolidateStep_fst L memories [] []
  rw [hkeys, Grouping.mem_keys_group, List.mem_map, ← filter_titled htitle, ne_eq,
    List.filter_eq_nil_iff]
  simp

/-- **Forgotten memories** of a title: those that score low, the first one apart. -/
theorem forgotten_filter (memories : List MemoryRecord) {title : String} (htitle : title ≠ "") :
    titleGroup L (consolidate L memories).2 title =
      (titleGroup L memories title).tail.filter fun memory => ScoresLow memory := by
  simp only [consolidate_snd]
  induction memories using List.reverseRecOn with
  | nil => rfl
  | append_singleton memories memory ih =>
      rw [List.foldl_append, List.foldl_cons, List.foldl_nil]
      have happend : titleGroup L (memories ++ [memory]) title =
          titleGroup L memories title ++ titleGroup L [memory] title := List.filter_append ..
      rw [happend]
      by_cases hown : memory.normalizedTitle L = title
      · have hone : titleGroup L [memory] title = [memory] := by simp [titleGroup, hown]
        have hkeys := mem_keys_iff (L := L) memories htitle
        simp only [consolidateStep, hown, if_neg htitle, hone]
        by_cases hnew : titleGroup L memories title = []
        · rw [if_neg fun h => hkeys.mp h.1 hnew, ih, hnew]
          rfl
        · rw [List.tail_append_of_ne_nil hnew, List.filter_append, ← ih]
          by_cases hlow : ScoresLow memory
          · rw [if_pos ⟨hkeys.mpr hnew, hlow⟩]
            simp [titleGroup, hown, hlow]
          · rw [if_neg fun h => hlow h.2]
            simp [hlow]
      · have hnone : titleGroup L [memory] title = [] := by simp [titleGroup, hown]
        rw [hnone, List.append_nil, ← ih]
        -- The step adds nothing, or a memory of another title.
        unfold consolidateStep
        dsimp only
        split
        · rfl
        · split
          · simp [titleGroup, hown]
          · rfl

/-- Only memories with a title are forgotten. -/
theorem title_of_forgotten {memories : List MemoryRecord} {memory : MemoryRecord}
    (h : memory ∈ (consolidate L memories).2) : memory.normalizedTitle L ≠ "" := by
  rw [consolidate_snd] at h
  induction memories using List.reverseRecOn with
  | nil => simp at h
  | append_singleton memories other ih =>
      rw [List.foldl_append, List.foldl_cons, List.foldl_nil] at h
      unfold consolidateStep at h
      dsimp only at h
      split at h
      · exact ih h
      · next htitle =>
          split at h
          · rcases List.mem_append.mp h with hold | hnew
            · exact ih hold
            · rwa [List.mem_singleton.mp hnew]
          · exact ih h

/-- Memories with distinct titles stay as they are, and none is forgotten. -/
theorem consolidate_of_nodup {memories : List MemoryRecord}
    (hnodup : (memories.map (MemoryRecord.normalizedTitle L)).Nodup)
    (htitled : ∀ memory ∈ memories, memory.normalizedTitle L ≠ "") :
    consolidate L memories = (memories, []) := by
  have hall : titled L memories = memories :=
    List.filter_eq_self.mpr fun memory hmem => by simpa using htitled memory hmem
  have hfst : (consolidate L memories).1 = memories := by
    rw [consolidate_fst, hall, Grouping.group_of_nodup _ _ _ hnodup, List.map_map]
    exact List.map_id _
  have hsnd : (consolidate L memories).2 = [] := by
    refine List.eq_nil_iff_forall_not_mem.mpr fun memory hmem => ?_
    have hown : memory ∈ titleGroup L (consolidate L memories).2 (memory.normalizedTitle L) :=
      mem_titleGroup.mpr ⟨hmem, rfl⟩
    rw [forgotten_filter memories (title_of_forgotten hmem)] at hown
    -- A title that occurs once has no further memories.
    have hlength : (titleGroup L memories (memory.normalizedTitle L)).length ≤ 1 := by
      rw [length_titleGroup]
      exact List.nodup_iff_count_le_one.mp hnodup _
    have htail : (titleGroup L memories (memory.normalizedTitle L)).tail = [] := by
      rw [← List.length_eq_zero_iff, List.length_tail]
      omega
    rw [htail] at hown
    exact absurd hown List.not_mem_nil
  exact Prod.ext hfst hsnd

/-- The second consolidation changes nothing and forgets nothing. -/
theorem consolidate_consolidate (memories : List MemoryRecord) :
    consolidate L (consolidate L memories).1 = ((consolidate L memories).1, []) := by
  refine consolidate_of_nodup (consolidated_titles_nodup L memories) fun record hrecord => ?_
  obtain ⟨title, first, rest, htitle, hgroup, rfl⟩ := mem_consolidate_iff.mp hrecord
  rwa [normalizedTitle_foldl, (title_of_titleGroup hgroup).2]

end Consolidation

/-- **Consolidation.** There is one record for each title that is not blank, in the order in which
    the titles first occur; a title that occurs more than once has the rounded maxima of its
    scores; and consolidating the records again changes and forgets nothing. -/
theorem consolidate_closure (L : Lower) (memories : List MemoryRecord) :
    (consolidate L memories).1.map (MemoryRecord.normalizedTitle L) =
      ((memories.map (MemoryRecord.normalizedTitle L)).filter (· ≠ "")).eraseDups ∧
    (∀ record ∈ (consolidate L memories).1,
      1 < (titleGroup L memories (record.normalizedTitle L)).length →
      ∃ confidence importance,
        IsGreatest {x | ∃ memory ∈ titleGroup L memories (record.normalizedTitle L),
          memory.confidence = x} confidence ∧
        IsGreatest {x | ∃ memory ∈ titleGroup L memories (record.normalizedTitle L),
          memory.importance = x} importance ∧
        record.confidenceScore = some (roundDigits confidence 2) ∧
        record.importanceScore = some (roundDigits importance 2)) ∧
    consolidate L (consolidate L memories).1 = ((consolidate L memories).1, []) :=
  ⟨titles_eq_eraseDups memories, fun _ hrecord => scores_of_repeated hrecord,
    consolidate_consolidate memories⟩

end AgentCorp.Runtime
