/-
  What `retrieve_memories` returns after a history of changes to the memories.

  `archive_memory` sets a flag that no query looks at, so an archived memory is listed, ranked and
  returned like any other.

  * `retrieveFrom_eq`: what is returned is the first part of a stable ranking.
  * `retrieveMemories_exact_iff`: the memories of which the right ones are returned.
-/
import AgentCorp.Lib.Ranking
import AgentCorp.Memory.MemoryService

namespace AgentCorp.Memories

open AgentCorp.Python PriorityChoice

/-! ## Changes -/

/-- `MemoryRepository.get_by_org_and_id`. -/
def getByOrgAndId (memories : Table Memory) (orgId : Int) (memoryId : Nat) : Option Memory :=
  (memories.get memoryId).filter fun memory => memory.organizationId == orgId && !memory.isDeleted

def memoryNotFound : Exn :=
  .other "MemoryNotFoundError" "Memory not found."

/-- `MemoryService.get_memory`. -/
def getMemory (memories : Table Memory) (orgId : Int) (memoryId : Nat) : Except Exn Memory :=
  match getByOrgAndId memories orgId memoryId with
  | none => .error memoryNotFound
  | some memory => .ok memory

/-- `get_memory`, and a commit of columns of the row it finds. -/
def changeMemory (memories : Table Memory) (orgId : Int) (memoryId : Nat) (f : Memory → Memory) :
    Except Exn (Table Memory) := do
  let _ ← getMemory memories orgId memoryId
  return memories.modify memoryId f

/-- `MemoryService.create_memory`. -/
def createMemory (memories : Table Memory) (orgId agentId : Int)
    (title content memoryType : String) (importanceScore confidenceScore : Rat) : Table Memory :=
  memories.insert {
    organizationId := orgId
    agentId
    memoryType
    title
    content
    importanceScore
    confidenceScore }

/-- `MemoryService.update_memory`. -/
def updateMemory (memories : Table Memory) (orgId : Int) (memoryId : Nat)
    (title content : Option String) (importanceScore confidenceScore : Option Rat) :
    Except Exn (Table Memory) :=
  changeMemory memories orgId memoryId fun memory => { memory with
    title := title.getD memory.title
    content := content.getD memory.content
    importanceScore := importanceScore.getD memory.importanceScore
    confidenceScore := confidenceScore.getD memory.confidenceScore }

/-- `MemoryService.archive_memory`. -/
def archiveMemory (memories : Table Memory) (orgId : Int) (memoryId : Nat) :
    Except Exn (Table Memory) :=
  changeMemory memories orgId memoryId fun memory => { memory with archived := true }

/-- `MemoryService.delete_memory`. -/
def deleteMemory (memories : Table Memory) (orgId : Int) (memoryId : Nat) :
    Except Exn (Table Memory) :=
  changeMemory memories orgId memoryId fun memory => { memory with isDeleted := true }

/-- The calls that change the memories. -/
inductive Call where
  | create (orgId agentId : Int) (title content memoryType : String)
      (importanceScore confidenceScore : Rat)
  | update (orgId : Int) (memoryId : Nat) (title content : Option String)
      (importanceScore confidenceScore : Option Rat)
  | archive (orgId : Int) (memoryId : Nat)
  | delete (orgId : Int) (memoryId : Nat)

/-- The table after a call. One that raises changes nothing. -/
def Call.perform (memories : Table Memory) : Call → Table Memory
  | .create orgId agentId title content memoryType importanceScore confidenceScore =>
      createMemory memories orgId agentId title content memoryType importanceScore confidenceScore
  | .update orgId memoryId title content importanceScore confidenceScore =>
      (updateMemory memories orgId memoryId title content importanceScore
        confidenceScore).toOption.getD memories
  | .archive orgId memoryId => (archiveMemory memories orgId memoryId).toOption.getD memories
  | .delete orgId memoryId => (deleteMemory memories orgId memoryId).toOption.getD memories

def afterCalls (calls : List Call) : Table Memory :=
  calls.foldl Call.perform .empty

/-! ## Retrieval -/

section Retrieval

variable (round : Rat → Rat) (now : Rat)

/-- The score of a row. -/
def rowScore (entry : Nat × Memory) : Rat :=
  scoreMemory round entry.2.importanceScore entry.2.confidenceScore 1

/-- The row is neither expired nor pruned. -/
def remembered (entry : Nat × Memory) : Bool :=
  !(isExpired now entry.2.expiresAt ||
    shouldPrune round entry.2.importanceScore entry.2.confidenceScore)

/-- `retrieve_memories`, on the rows that the repository lists. -/
def retrieveFrom (rows : List (Nat × Memory)) (topK : Int) : List (Nat × Memory) :=
  (takeSlice ((scoredMemories round now rows).insertionSort fun a b => b.2 ≤ a.2) topK).map (·.1)

theorem retrieveMemories_eq (memories : Table Memory) (orgId agentId topK : Int) :
    retrieveMemories round memories now orgId agentId (.int topK) =
      .ok (retrieveFrom round now (listActive memories orgId (some agentId) none) topK) := rfl

/-- **What is returned** is the first part of a stable ranking. -/
theorem retrieveFrom_eq (rows : List (Nat × Memory)) (topK : Nat) :
    retrieveFrom round now rows topK =
      (sorted (rowScore round) (rows.filter (remembered round now))).take topK := by
  have hmap : (scoredMemories round now rows).map (·.1) = rows.filter (remembered round now) := by
    unfold scoredMemories
    rw [List.map_map]
    exact List.map_id _
  have hsorted : ((scoredMemories round now rows).insertionSort fun a b => b.2 ≤ a.2).map (·.1) =
      sorted (rowScore round) (rows.filter (remembered round now)) := by
    rw [← hmap]
    refine List.map_insertionSort _ _ _ _ fun a ha b hb => ?_
    obtain ⟨entry, -, rfl⟩ := List.mem_map.mp ha
    obtain ⟨other, -, rfl⟩ := List.mem_map.mp hb
    exact Iff.rfl
  unfold retrieveFrom takeSlice
  rw [if_neg (by omega), List.map_take, hsorted, Int.toNat_natCast]

variable (memories : Table Memory) (orgId agentId : Int)

/-- A memory that the agent of the organization may be shown. -/
structure Eligible (entry : Nat × Memory) : Prop where
  stored : memories.get entry.1 = some entry.2
  organization : entry.2.organizationId = orgId
  agent : entry.2.agentId = agentId
  live : entry.2.isDeleted = false
  current : entry.2.archived = false
  unexpired : isExpired now entry.2.expiresAt = false
  kept : shouldPrune round entry.2.importanceScore entry.2.confidenceScore = false

/-- The eligible memories by score, those with one score in the order of the rows. -/
structure IsRanking (rows ranking : List (Nat × Memory)) : Prop where
  mem : ∀ entry, entry ∈ ranking ↔ Eligible round now memories orgId agentId entry
  nodup : ranking.Nodup
  descending : ranking.Pairwise fun a b => rowScore round b ≤ rowScore round a
  ties : ∀ score, (ranking.filter fun entry => rowScore round entry = score).Sublist rows

/-- The `topK` best of the eligible memories, and fewer only if there are fewer. -/
def Exact (rows : List (Nat × Memory)) (topK : Nat) (result : List (Nat × Memory)) : Prop :=
  ∃ ranking, IsRanking round now memories orgId agentId rows ranking ∧ result = ranking.take topK

/-- Every archived memory that is neither expired nor pruned has `topK` others ahead of it. -/
def ArchivedBehind (rows : List (Nat × Memory)) (topK : Nat) : Prop :=
  ∀ before entry after, rows.filter (remembered round now) = before ++ entry :: after →
    entry.2.archived = true → topK ≤ Ranking.ahead (rowScore round) before entry after

variable {round now memories orgId agentId} {rows : List (Nat × Memory)}

/-- The rows that are ranked, without the archived ones. -/
def unarchived (round : Rat → Rat) (now : Rat) (rows : List (Nat × Memory)) :
    List (Nat × Memory) :=
  (rows.filter (remembered round now)).filter fun entry => !entry.2.archived

theorem mem_unarchived (hrows : rows.Perm (listActive memories orgId (some agentId) none))
    (entry : Nat × Memory) :
    entry ∈ unarchived round now rows ↔ Eligible round now memories orgId agentId entry := by
  have hlisted : entry ∈ rows ↔ memories.get entry.1 = some entry.2 ∧
      entry.2.organizationId = orgId ∧ entry.2.isDeleted = false ∧ entry.2.agentId = agentId := by
    rw [hrows.mem_iff]
    unfold listActive
    rw [Table.mem_select]
    simp [and_assoc]
  unfold unarchived remembered
  rw [List.mem_filter, List.mem_filter, hlisted]
  simp only [Bool.not_eq_true', Bool.or_eq_false_iff]
  constructor
  · rintro ⟨⟨⟨hstored, horg, hlive, hagent⟩, hunexpired, hkept⟩, hcurrent⟩
    exact ⟨hstored, horg, hagent, hlive, hcurrent, hunexpired, hkept⟩
  · intro h
    exact ⟨⟨⟨h.stored, h.organization, h.live, h.agent⟩, h.unexpired, h.kept⟩, h.current⟩

theorem nodup_rows (hrows : rows.Perm (listActive memories orgId (some agentId) none)) :
    rows.Nodup := by
  have hstored : memories.rows.Nodup := memories.nodup.of_map _
  exact hrows.nodup_iff.mpr (hstored.filter _)

/-- Sorting the eligible rows is the only ranking. -/
theorem isRanking_iff (hrows : rows.Perm (listActive memories orgId (some agentId) none))
    {ranking : List (Nat × Memory)} :
    IsRanking round now memories orgId agentId rows ranking ↔
      ranking = sorted (rowScore round) (unarchived round now rows) := by
  have hnodup := nodup_rows hrows
  have hsub : (unarchived round now rows).Sublist rows :=
    List.filter_sublist.trans List.filter_sublist
  constructor
  · intro h
    refine Ranking.Ranked.unique ⟨h.descending, fun score => ?_⟩ (Ranking.ranked_sorted _ _)
    refine Ranking.eq_of_sublist hnodup (h.ties score) (List.filter_sublist.trans hsub) fun entry => ?_
    rw [List.mem_filter, List.mem_filter, h.mem, mem_unarchived hrows]
  · rintro rfl
    have hranked := Ranking.ranked_sorted (rowScore round) (unarchived round now rows)
    refine ⟨fun entry => ?_, ?_, hranked.descending, fun score => ?_⟩
    · rw [mem_sorted, mem_unarchived hrows]
    · exact (List.perm_insertionSort _ _).nodup_iff.mpr (hsub.nodup hnodup)
    · rw [hranked.stable]
      exact List.filter_sublist.trans hsub

/-- **The right memories are returned** exactly when every archived one has enough others ahead
    of it. -/
theorem retrieveMemories_exact_iff (round : Rat → Rat) (now : Rat) (calls : List Call)
    (orgId agentId : Int) (topK : Nat) {rows : List (Nat × Memory)}
    (hrows : rows.Perm (listActive (afterCalls calls) orgId (some agentId) none)) :
    Exact round now (afterCalls calls) orgId agentId rows topK
        (retrieveFrom round now rows topK) ↔
      ArchivedBehind round now rows topK := by
  have hnodup := (nodup_rows hrows).filter (remembered round now)
  have htake := Ranking.take_filter_iff (rowScore round) hnodup (fun entry => !entry.2.archived)
    topK
  have hexact : Exact round now (afterCalls calls) orgId agentId rows topK
      (retrieveFrom round now rows topK) ↔
        (sorted (rowScore round) (rows.filter (remembered round now))).take topK =
          (sorted (rowScore round) (unarchived round now rows)).take topK := by
    rw [← retrieveFrom_eq]
    constructor
    · rintro ⟨ranking, hranking, hresult⟩
      rw [hresult, (isRanking_iff hrows).mp hranking]
    · intro h
      exact ⟨_, (isRanking_iff hrows).mpr rfl, h⟩
  rw [hexact]
  refine htake.trans ?_
  simp only [Bool.not_eq_false', ArchivedBehind]

end Retrieval

/-! A memory is created and archived, and then retrieved. -/

def archivedCalls : List Call :=
  [.create 1 7 "Deploy window" "Fridays are frozen." "semantic" 1 1, .archive 1 0]

def archivedRows : List (Nat × Memory) :=
  listActive (afterCalls archivedCalls) 1 (some 7) none

theorem not_exact_archived :
    ¬ ∀ (round : Rat → Rat) (now : Rat) (calls : List Call) (orgId agentId : Int) (topK : Nat)
        (rows : List (Nat × Memory)),
      rows.Perm (listActive (afterCalls calls) orgId (some agentId) none) →
        Exact round now (afterCalls calls) orgId agentId rows topK
          (retrieveFrom round now rows topK) := by
  intro hall
  obtain ⟨ranking, hranking, hresult⟩ := hall id 0 archivedCalls 1 7 5 archivedRows (.refl _)
  have hshown : (retrieveFrom id 0 archivedRows 5).any (fun entry => entry.2.archived) = true := by
    decide +kernel
  obtain ⟨entry, hentry, harchived⟩ := List.any_eq_true.mp hshown
  have heligible := (hranking.mem entry).mp (List.mem_of_mem_take (hresult ▸ hentry))
  rw [heligible.current] at harchived
  cases harchived

/-- Four memories, of which the second is archived and the last is pruned. -/
def rankedCalls : List Call :=
  [.create 1 7 "Deploy window" "Fridays are frozen." "semantic" (9 / 10) (4 / 5),
    .create 1 7 "Old window" "Mondays are frozen." "semantic" (1 / 2) (1 / 2),
    .create 1 7 "On call" "Ask the platform team." "semantic" (7 / 10) (7 / 10),
    .create 1 7 "Rumour" "The window may move." "semantic" (1 / 10) (1 / 10),
    .archive 1 1]

def rankedRows : List (Nat × Memory) :=
  listActive (afterCalls rankedCalls) 1 (some 7) none

/-- The archived memory is behind the two that are asked for. -/
theorem exact_ranked :
    Exact id 0 (afterCalls rankedCalls) 1 7 rankedRows 2 (retrieveFrom id 0 rankedRows 2) := by
  refine (retrieveMemories_exact_iff id 0 rankedCalls 1 7 2 (.refl rankedRows)).mpr ?_
  intro before entry after hsplit harchived
  have hlength : before.length < 3 := by
    have hkept : (rankedRows.filter (remembered id 0)).length = 3 := by decide +kernel
    rw [hsplit, List.length_append, List.length_cons] at hkept
    omega
  have hbehind : ∀ i < 3, (((rankedRows.filter (remembered id 0)).drop i).head?.all fun entry =>
      !entry.2.archived || decide (2 ≤ Ranking.ahead (rowScore id)
        ((rankedRows.filter (remembered id 0)).take i) entry
        ((rankedRows.filter (remembered id 0)).drop (i + 1)))) = true := by decide +kernel
  have hentry := hbehind before.length hlength
  rw [hsplit, List.drop_left, List.take_left, List.drop_length_add_append] at hentry
  simpa [harchived] using hentry

end AgentCorp.Memories
