/-
  `MemoryService`: which memories of an agent are retrieved, and in which order.

  A float operation rounds its exact result, by a function that is a parameter (`round`). The
  rows come in the order of the table.

  * `listActive_congr`: the memories of one organization decide what is listed for it.
-/
import AgentCorp.Lib.Table
import AgentCorp.Python.Data
import Mathlib.Data.List.Sort

namespace AgentCorp.Memories

open AgentCorp.Python

structure Memory where
  organizationId : Int
  agentId : Int
  memoryType : String
  title : String
  content : String
  importanceScore : Rat
  confidenceScore : Rat
  expiresAt : Option Rat := none
  archived : Bool := false
  isDeleted : Bool := false

/-! ## MemoryRepository -/

/-- `MemoryRepository.list_active`. -/
def listActive (memories : Table Memory) (orgId : Int) (agentId : Option Int)
    (memoryType : Option String) : List (Nat × Memory) :=
  memories.select fun memory =>
    memory.organizationId == orgId && !memory.isDeleted &&
      agentId.all (memory.agentId == ·) && memoryType.all (memory.memoryType == ·)

/-! ## ForgettingStrategy and MemoryScorer -/

/-- `ForgettingStrategy.should_prune`. -/
def shouldPrune (round : Rat → Rat) (importanceScore confidenceScore : Rat) : Bool :=
  importanceScore < round 0.2 && confidenceScore < round 0.3

/-- `ForgettingStrategy.is_expired`, when the clock reads `now`. -/
def isExpired (now : Rat) (expiresAt : Option Rat) : Bool :=
  expiresAt.any (· < now)

/-- `MemoryScorer.score_memory`. -/
def scoreMemory (round : Rat → Rat) (importance confidence recencyFactor : Rat) : Rat :=
  round (round (round (importance * round 0.4) + round (confidence * round 0.3)) +
    round (recencyFactor * round 0.3))

/-! ## MemoryService -/

/-- The memories that are neither expired nor pruned, with their scores. -/
def scoredMemories (round : Rat → Rat) (now : Rat) (memories : List (Nat × Memory)) :
    List ((Nat × Memory) × Rat) :=
  (memories.filter fun entry => !(isExpired now entry.2.expiresAt ||
      shouldPrune round entry.2.importanceScore entry.2.confidenceScore)).map fun entry =>
    (entry, scoreMemory round entry.2.importanceScore entry.2.confidenceScore 1)

/-- `MemoryService.retrieve_memories`: equal scores keep their order, and the query is not
    looked at. -/
def retrieveMemories (round : Rat → Rat) (memories : Table Memory) (now : Rat)
    (orgId agentId : Int) (topK : Json) : Except Exn (List (Nat × Memory)) :=
  let scored := scoredMemories round now (listActive memories orgId (some agentId) none)
  (·.map (·.1)) <$> sliceJson (scored.insertionSort fun a b => b.2 ≤ a.2) topK

/-- The rows of an organization. -/
def ofOrganization (memories : Table Memory) (orgId : Int) : List (Nat × Memory) :=
  memories.select fun memory => memory.organizationId == orgId

theorem listActive_eq (memories : Table Memory) (orgId : Int) (agentId : Option Int)
    (memoryType : Option String) :
    listActive memories orgId agentId memoryType =
      (ofOrganization memories orgId).filter fun entry => !entry.2.isDeleted &&
        agentId.all (entry.2.agentId == ·) && memoryType.all (entry.2.memoryType == ·) := by
  unfold listActive ofOrganization Table.select
  rw [List.filter_filter]
  apply List.filter_congr
  intro entry _
  simp only [Bool.and_assoc, Bool.and_comm]

/-- **Organizations are apart**: what is listed for one depends on its rows only. -/
theorem listActive_congr {memories memories' : Table Memory} {orgId : Int}
    (h : ofOrganization memories orgId = ofOrganization memories' orgId) (agentId : Option Int)
    (memoryType : Option String) :
    listActive memories orgId agentId memoryType =
      listActive memories' orgId agentId memoryType := by
  rw [listActive_eq, listActive_eq, h]

end AgentCorp.Memories
