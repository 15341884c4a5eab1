/-
  The order in which memories are consolidated.

  The first memory of a title gives the record its content and is never tested for forgetting, so
  both depend on the order, whereas the scores do not.

  * `views_of_perm`: where memories of one title agree, two orders leave the same records.
  * `forgotten_of_perm`: they forget the same ones.
  * `orderFree_iff`: the order does not matter exactly if memories of one title are the same, or
    have the same content and score high enough to be kept.
-/
import AgentCorp.Memory.Consolidator
import AgentCorp.Runtime.Consolidation

namespace AgentCorp.Runtime

open AgentCorp.Python

section Order

variable (L : Lower)

/-- What is compared of a record: its normalised title, content, confidence and importance. -/
def MemoryRecord.view (record : MemoryRecord) : String × String × ℚ × ℚ :=
  (record.normalizedTitle L, record.content.getD "", record.confidence, record.importance)

/-- Each record has the content of a memory of its title that no other one exceeds in confidence. -/
def KeepsMostConfident (memories : List MemoryRecord) : Prop :=
  ∀ record ∈ (consolidate L memories).1,
    ∃ kept ∈ titleGroup L memories (record.normalizedTitle L),
      (∀ other ∈ titleGroup L memories (record.normalizedTitle L),
        other.confidence ≤ kept.confidence) ∧
      record.content.getD "" = kept.content.getD ""

/-- Every order of the memories gives the same records and forgets the same memories, and the
    content is the one with the highest confidence. -/
def OrderFree (memories : List MemoryRecord) : Prop :=
  ∀ permuted, permuted.Perm memories →
    {view | ∃ record ∈ (consolidate L permuted).1, record.view L = view} =
      {view | ∃ record ∈ (consolidate L memories).1, record.view L = view} ∧
    (consolidate L permuted).2.Perm (consolidate L memories).2 ∧
    KeepsMostConfident L permuted

/-- Memories of one title are the same, or have the same content and are not forgotten. -/
def TitlesAgree (memories : List MemoryRecord) : Prop :=
  ∀ a ∈ memories, ∀ b ∈ memories, a.normalizedTitle L = b.normalizedTitle L →
    a.normalizedTitle L ≠ "" →
    a = b ∨ (a.content.getD "" = b.content.getD "" ∧ ¬ ScoresLow a ∧ ¬ ScoresLow b)

variable {L}

theorem titleGroup_perm {permuted memories : List MemoryRecord} (h : permuted.Perm memories)
    (title : String) : (titleGroup L permuted title).Perm (titleGroup L memories title) :=
  h.filter _

theorem TitlesAgree.of_perm {permuted memories : List MemoryRecord} (h : TitlesAgree L memories)
    (hperm : permuted.Perm memories) : TitlesAgree L permuted :=
  fun a ha b hb => h a (hperm.mem_iff.mp ha) b (hperm.mem_iff.mp hb)

theorem TitlesAgree.content {memories : List MemoryRecord} (h : TitlesAgree L memories)
    {title : String} (htitle : title ≠ "") {a b : MemoryRecord}
    (ha : a ∈ titleGroup L memories title) (hb : b ∈ titleGroup L memories title) :
    a.content.getD "" = b.content.getD "" := by
  obtain ⟨hin, rfl⟩ := mem_titleGroup.mp ha
  obtain ⟨hin', hsame⟩ := mem_titleGroup.mp hb
  rcases h a hin b hin' hsame.symm htitle with rfl | ⟨hcontent, -⟩
  · rfl
  · exact hcontent

/-- The first memory of a title gives the content. -/
theorem content_foldl (first : MemoryRecord) (rest : List MemoryRecord) :
    (rest.foldl mergeMemory first).content.getD "" = first.content.getD "" := by
  induction rest generalizing first with
  | nil => rfl
  | cons memory rest ih => exact ih (mergeMemory first memory)

/-- A score that merging rounds does not depend on the order. -/
theorem score_of_perm (score : MemoryRecord → Option ℚ)
    (hmerge : ∀ current memory, score (mergeMemory current memory) =
      some (roundDigits (max ((score current).getD 0) ((score memory).getD 0)) 2))
    {first first' : MemoryRecord} {rest rest' : List MemoryRecord}
    (h : (first :: rest).Perm (first' :: rest')) :
    score (rest.foldl mergeMemory first) = score (rest'.foldl mergeMemory first') := by
  have hlength := h.length_eq
  cases rest with
  | nil =>
      have hone := List.singleton_perm.mp h
      obtain ⟨rfl, rfl⟩ := List.cons.inj hone
      rfl
  | cons memory rest =>
      cases rest' with
      | nil => simp at hlength
      | cons memory' rest' =>
          have hset : {x | ∃ m ∈ first :: memory :: rest, (score m).getD 0 = x} =
              {x | ∃ m ∈ first' :: memory' :: rest', (score m).getD 0 = x} := by
            ext x
            exact exists_congr fun m => and_congr_left fun _ => h.mem_iff
          have hgreatest := isGreatest_greatest (fun m => (score m).getD 0) first (memory :: rest)
          rw [hset] at hgreatest
          rw [foldl_merge_score hmerge, foldl_merge_score hmerge, hgreatest.unique
            (isGreatest_greatest (fun m => (score m).getD 0) first' (memory' :: rest'))]

/-! ## Orders that agree -/

/-- Where titles agree, a record of one order has a counterpart in the other. -/
theorem exists_view_of_perm {permuted memories : List MemoryRecord}
    (hperm : permuted.Perm memories) (h : TitlesAgree L memories) {record : MemoryRecord}
    (hrecord : record ∈ (consolidate L permuted).1) :
    ∃ other ∈ (consolidate L memories).1, other.view L = record.view L := by
  obtain ⟨title, first, rest, htitle, hgroup, rfl⟩ := mem_consolidate_iff.mp hrecord
  have hgroups := titleGroup_perm (L := L) hperm title
  rw [hgroup] at hgroups
  cases hother : titleGroup L memories title with
  | nil => simp [hother] at hgroups
  | cons first' rest' =>
      have hmem : rest'.foldl mergeMemory first' ∈ (consolidate L memories).1 :=
        mem_consolidate_iff.mpr ⟨title, first', rest', htitle, hother, rfl⟩
      refine ⟨_, hmem, ?_⟩
      have hcontent : first'.content.getD "" = first.content.getD "" :=
        h.content htitle (hother ▸ List.mem_cons_self) (hgroups.mem_iff.mp List.mem_cons_self)
      rw [hother] at hgroups
      have hconfidence := score_of_perm MemoryRecord.confidenceScore (fun _ _ => rfl) hgroups
      have himportance := score_of_perm MemoryRecord.importanceScore (fun _ _ => rfl) hgroups
      simp only [MemoryRecord.view, normalizedTitle_foldl, content_foldl, MemoryRecord.confidence,
        MemoryRecord.importance, hconfidence, himportance, hcontent,
        (title_of_titleGroup hgroup).2, (title_of_titleGroup hother).2]

theorem views_of_perm {permuted memories : List MemoryRecord} (hperm : permuted.Perm memories)
    (h : TitlesAgree L memories) :
    {view | ∃ record ∈ (consolidate L permuted).1, record.view L = view} =
      {view | ∃ record ∈ (consolidate L memories).1, record.view L = view} := by
  refine Set.Subset.antisymm ?_ ?_
  · rintro _ ⟨record, hrecord, rfl⟩
    exact exists_view_of_perm hperm h hrecord
  · rintro _ ⟨record, hrecord, rfl⟩
    exact exists_view_of_perm hperm.symm (h.of_perm hperm) hrecord

/-- What is forgotten, memory by memory. -/
theorem count_forgotten (memories : List MemoryRecord) {memory : MemoryRecord}
    (htitle : memory.normalizedTitle L ≠ "") :
    (consolidate L memories).2.count memory =
      if ScoresLow memory then
        (titleGroup L memories (memory.normalizedTitle L)).tail.count memory
      else 0 := by
  have hown : (consolidate L memories).2.count memory =
      (titleGroup L (consolidate L memories).2 (memory.normalizedTitle L)).count memory := by
    rw [titleGroup, List.count_filter (by simp)]
  rw [hown, forgotten_filter memories htitle]
  split
  · next hlow => rw [List.count_filter (by simpa using hlow)]
  · next hlow =>
      refine List.count_eq_zero.mpr fun hmem => hlow ?_
      exact of_decide_eq_true (List.mem_filter.mp hmem).2

/-- Where titles agree, the order changes nothing in what is forgotten. -/
theorem forgotten_of_perm {permuted memories : List MemoryRecord}
    (hperm : permuted.Perm memories) (h : TitlesAgree L memories) :
    (consolidate L permuted).2.Perm (consolidate L memories).2 := by
  refine List.perm_iff_count.mpr fun memory => ?_
  by_cases htitle : memory.normalizedTitle L = ""
  · -- Memories without a title are not forgotten in any order.
    rw [List.count_eq_zero.mpr fun hmem => title_of_forgotten hmem htitle,
      List.count_eq_zero.mpr fun hmem => title_of_forgotten hmem htitle]
  · rw [count_forgotten permuted htitle, count_forgotten memories htitle]
    split
    · next hlow =>
        have hgroups := titleGroup_perm (L := L) hperm (memory.normalizedTitle L)
        by_cases hin : memory ∈ titleGroup L memories (memory.normalizedTitle L)
        · -- A memory that scores low is the only one of its title, up to repetition.
          have hsame : ∀ other ∈ titleGroup L memories (memory.normalizedTitle L),
              other = memory := by
            intro other hother
            obtain ⟨hmem, hown⟩ := mem_titleGroup.mp hother
            rcases h memory (mem_titleGroup.mp hin).1 other hmem hown.symm htitle with
              heq | ⟨-, hhigh, -⟩
            · exact heq.symm
            · exact absurd hlow hhigh
          have hlist := List.eq_replicate_of_mem hsame
          rw [hlist] at hgroups
          rw [List.perm_replicate.mp hgroups, ← hlist]
        · have hout : memory ∉ titleGroup L permuted (memory.normalizedTitle L) :=
            fun hmem => hin (hgroups.mem_iff.mp hmem)
          rw [List.count_eq_zero.mpr fun hmem => hout (List.mem_of_mem_tail hmem),
            List.count_eq_zero.mpr fun hmem => hin (List.mem_of_mem_tail hmem)]
    · rfl

theorem TitlesAgree.keepsMostConfident {memories : List MemoryRecord}
    (h : TitlesAgree L memories) : KeepsMostConfident L memories := by
  intro record hrecord
  obtain ⟨title, first, rest, htitle, hgroup, rfl⟩ := mem_consolidate_iff.mp hrecord
  rw [normalizedTitle_foldl, (title_of_titleGroup hgroup).2]
  obtain ⟨⟨kept, hkept, hvalue⟩, hupper⟩ := isGreatest_greatest MemoryRecord.confidence first rest
  rw [← hgroup] at hkept
  refine ⟨kept, hkept, fun other hother => ?_, ?_⟩
  · rw [hvalue]
    exact hupper ⟨other, hgroup ▸ hother, rfl⟩
  · rw [content_foldl]
    exact h.content htitle (hgroup ▸ List.mem_cons_self) hkept

theorem TitlesAgree.orderFree {memories : List MemoryRecord} (h : TitlesAgree L memories) :
    OrderFree L memories :=
  fun _ hperm => ⟨views_of_perm hperm h, forgotten_of_perm hperm h,
    (h.of_perm hperm).keepsMostConfident⟩

/-! ## Orders that differ -/

/-- The memory that is put first gives its title the content. -/
theorem exists_record_of_first {first : MemoryRecord} (rest : List MemoryRecord)
    (htitle : first.normalizedTitle L ≠ "") :
    ∃ record ∈ (consolidate L (first :: rest)).1,
      record.normalizedTitle L = first.normalizedTitle L ∧
      record.content.getD "" = first.content.getD "" := by
  have hgroup : titleGroup L (first :: rest) (first.normalizedTitle L) =
      first :: titleGroup L rest (first.normalizedTitle L) :=
    List.filter_cons_of_pos (by simp)
  exact ⟨_, mem_consolidate_iff.mpr ⟨_, first, _, htitle, hgroup, rfl⟩,
    normalizedTitle_foldl first _, content_foldl first _⟩

/-- Records of one title are one record. -/
theorem record_unique {memories : List MemoryRecord} {a b : MemoryRecord}
    (ha : a ∈ (consolidate L memories).1) (hb : b ∈ (consolidate L memories).1)
    (h : a.normalizedTitle L = b.normalizedTitle L) : a = b :=
  List.inj_on_of_nodup_map (consolidated_titles_nodup L memories) ha hb h

/-- Where another memory of the title is put first, all that score low are forgotten. -/
theorem count_forgotten_of_ne {memories : List MemoryRecord} {a b : MemoryRecord}
    (hne : a ≠ b) (hlow : ScoresLow b) (hsame : a.normalizedTitle L = b.normalizedTitle L)
    (htitle : b.normalizedTitle L ≠ "") :
    (consolidate L (a :: memories.erase a)).2.count b = memories.count b := by
  have hgroup : titleGroup L (a :: memories.erase a) (b.normalizedTitle L) =
      a :: titleGroup L (memories.erase a) (b.normalizedTitle L) :=
    List.filter_cons_of_pos (by simpa using hsame)
  rw [count_forgotten _ htitle, if_pos hlow, hgroup, List.tail_cons, titleGroup,
    List.count_filter (by simp), List.count_erase_of_ne (Ne.symm hne)]

/-- Where it is put first itself, one is not. -/
theorem count_forgotten_self {memories : List MemoryRecord} {b : MemoryRecord}
    (hlow : ScoresLow b) (htitle : b.normalizedTitle L ≠ "") :
    (consolidate L (b :: memories.erase b)).2.count b = memories.count b - 1 := by
  have hgroup : titleGroup L (b :: memories.erase b) (b.normalizedTitle L) =
      b :: titleGroup L (memories.erase b) (b.normalizedTitle L) :=
    List.filter_cons_of_pos (by simp)
  rw [count_forgotten _ htitle, if_pos hlow, hgroup, List.tail_cons, titleGroup,
    List.count_filter (by simp), List.count_erase_self]

theorem OrderFree.not_scoresLow {memories : List MemoryRecord} (h : OrderFree L memories)
    {a b : MemoryRecord} (ha : a ∈ memories) (hb : b ∈ memories) (hne : a ≠ b)
    (hsame : a.normalizedTitle L = b.normalizedTitle L) (htitle : b.normalizedTitle L ≠ "") :
    ¬ ScoresLow b := by
  intro hlow
  have hfirst := (h _ (List.perm_cons_erase ha).symm).2.1.count_eq b
  have hother := (h _ (List.perm_cons_erase hb).symm).2.1.count_eq b
  rw [count_forgotten_of_ne hne hlow hsame htitle] at hfirst
  rw [count_forgotten_self hlow htitle] at hother
  have hpos := List.count_pos_iff.mpr hb
  omega

theorem OrderFree.content {memories : List MemoryRecord} (h : OrderFree L memories)
    {a b : MemoryRecord} (ha : a ∈ memories) (hb : b ∈ memories)
    (hsame : a.normalizedTitle L = b.normalizedTitle L) (htitle : a.normalizedTitle L ≠ "") :
    a.content.getD "" = b.content.getD "" := by
  obtain ⟨record, hrecord, hown, hcontent⟩ :=
    exists_record_of_first (memories.erase a) htitle
  obtain ⟨record', hrecord', hown', hcontent'⟩ :=
    exists_record_of_first (memories.erase b) (hsame ▸ htitle)
  have hviews := (h _ (List.perm_cons_erase ha).symm).1.trans
    (h _ (List.perm_cons_erase hb).symm).1.symm
  have hview : record.view L ∈
      {view | ∃ record ∈ (consolidate L (a :: memories.erase a)).1, record.view L = view} :=
    ⟨record, hrecord, rfl⟩
  rw [hviews] at hview
  obtain ⟨other, hother, heq⟩ := hview
  have htitles : other.normalizedTitle L = record'.normalizedTitle L := by
    rw [hown', ← hsame, ← hown]
    exact congrArg Prod.fst heq
  have hcontents : other.content.getD "" = record.content.getD "" :=
    congrArg (fun view => view.2.1) heq
  rw [record_unique hother hrecord' htitles, hcontent'] at hcontents
  exact hcontent.symm.trans hcontents.symm

theorem OrderFree.titlesAgree {memories : List MemoryRecord} (h : OrderFree L memories) :
    TitlesAgree L memories := by
  intro a ha b hb hsame htitle
  by_cases hne : a = b
  · exact Or.inl hne
  · exact Or.inr ⟨h.content ha hb hsame htitle,
      h.not_scoresLow hb ha (Ne.symm hne) hsame.symm htitle,
      h.not_scoresLow ha hb hne hsame (hsame ▸ htitle)⟩

end Order

/-- A plan and a later one of the same title, of which one is more confident. -/
def stalePlan : MemoryRecord where
  title := some "Release plan"
  content := some "Release on Friday."
  confidenceScore := some (3 / 10)
  importanceScore := some (1 / 2)

def freshPlan : MemoryRecord where
  title := some "release plan"
  content := some "Release on Monday."
  confidenceScore := some (9 / 10)
  importanceScore := some (1 / 2)

theorem normalizedTitle_stalePlan :
    stalePlan.normalizedTitle .asciiOnly = "release plan" := by
  decide

theorem normalizedTitle_freshPlan :
    freshPlan.normalizedTitle .asciiOnly = "release plan" := by
  decide

/-- The record keeps the content of the memory that comes first. -/
theorem not_orderFree_plans : ¬ OrderFree .asciiOnly [stalePlan, freshPlan] := by
  intro h
  have hsame := normalizedTitle_stalePlan.trans normalizedTitle_freshPlan.symm
  have htitle : stalePlan.normalizedTitle .asciiOnly ≠ "" := by
    rw [normalizedTitle_stalePlan]
    decide
  have hcontent := h.content List.mem_cons_self
    (List.mem_cons_of_mem _ (List.mem_singleton_self freshPlan)) hsame htitle
  exact absurd hcontent (by decide)

/-- **Order.** Of all lists of memories, those whose order does not matter are those whose titles
    agree. -/
theorem orderFree_iff (L : Lower) (memories : List MemoryRecord) :
    OrderFree L memories ↔ TitlesAgree L memories :=
  ⟨OrderFree.titlesAgree, TitlesAgree.orderFree⟩

end AgentCorp.Runtime
