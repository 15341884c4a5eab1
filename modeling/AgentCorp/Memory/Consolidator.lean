/-
  The consolidator of the memory engine: the memory with the highest confidence of each title.

  * `consolidate_keeps_greatest`: what is kept of a title.
-/
import AgentCorp.Runtime.LongTermIntelligence

namespace AgentCorp.Memory.Consolidator

open AgentCorp.Runtime

/-- `m.get("title", "")`, as it is. -/
def title (m : MemoryRecord) : String :=
  m.title.getD ""

/-- The memory that is kept of two of a title. -/
def keep (seen m : MemoryRecord) : MemoryRecord :=
  if seen.confidence < m.confidence then m else seen

/-- `Consolidator.consolidate`. -/
def consolidate (memories : List MemoryRecord) : List MemoryRecord :=
  (Grouping.group title id keep memories).map Prod.snd

theorem keep_mem (seen m : MemoryRecord) : keep seen m ∈ [seen, m] := by
  unfold keep
  split <;> simp

/-- Neither of the two is more confident than the one that is kept. -/
theorem le_keep (seen m : MemoryRecord) :
    seen.confidence ≤ (keep seen m).confidence ∧ m.confidence ≤ (keep seen m).confidence := by
  unfold keep
  split
  · next h => exact ⟨h.le, le_refl _⟩
  · next h => exact ⟨le_refl _, le_of_not_gt h⟩

theorem foldl_keep (seen : MemoryRecord) (rest : List MemoryRecord) :
    rest.foldl keep seen ∈ seen :: rest ∧
      ∀ m ∈ seen :: rest, m.confidence ≤ (rest.foldl keep seen).confidence := by
  induction rest generalizing seen with
  | nil => simp
  | cons other rest ih =>
      obtain ⟨hmem, hmax⟩ := ih (keep seen other)
      obtain ⟨hseen, hother⟩ := le_keep seen other
      have hfirst := hmax _ List.mem_cons_self
      refine ⟨?_, ?_⟩
      · rcases List.mem_cons.mp hmem with h | h
        · rw [List.foldl_cons, h]
          exact List.mem_append_left rest (keep_mem seen other)
        · exact List.mem_cons_of_mem _ (List.mem_cons_of_mem _ h)
      · intro m hm
        rcases List.mem_cons.mp hm with rfl | hm
        · exact hseen.trans hfirst
        · rcases List.mem_cons.mp hm with rfl | hm
          · exact hother.trans hfirst
          · exact hmax m (List.mem_cons_of_mem _ hm)

/-- What is kept is one of the memories, and none of its title is more confident. -/
theorem consolidate_keeps_greatest {memories : List MemoryRecord} {kept : MemoryRecord}
    (h : kept ∈ consolidate memories) :
    kept ∈ memories ∧ ∀ m ∈ memories, title m = title kept → m.confidence ≤ kept.confidence := by
  obtain ⟨⟨key, _⟩, hentry, rfl⟩ := List.mem_map.mp h
  obtain ⟨first, rest, hfilter, rfl⟩ := (Grouping.mem_group _ _ _).mp hentry
  obtain ⟨hmem, hmax⟩ := foldl_keep first rest
  rw [← hfilter, List.mem_filter] at hmem
  refine ⟨hmem.1, fun m hm htitle => hmax m ?_⟩
  have hkey : title (rest.foldl keep first) = key := of_decide_eq_true hmem.2
  rw [← hfilter, List.mem_filter]
  exact ⟨hm, by simpa [htitle] using hkey⟩

end AgentCorp.Memory.Consolidator
