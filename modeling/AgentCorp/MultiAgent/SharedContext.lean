/-
  `update_shared_context`, with the objects it shares.

  A heap holds the dictionaries of one call. The context manager keeps the dictionary it is given,
  unless that is empty, and merges the updates into it in place; what is assigned to the attribute
  is a copy. A commit writes the column if the value assigned differs from the object loaded.

  * `stored_updateSharedContext`: a call writes only where the stored context was empty.
  * `neverLost_iff`: which runs lose no update.
-/
import AgentCorp.MultiAgent.Models
import AgentCorp.Python.WellKeyed

namespace AgentCorp.MultiAgent

open AgentCorp.Python

variable {Payload : Type}

/-! ## Objects -/

/-- The dictionaries of a call, by reference. -/
abbrev Heap := List (Dict Json)

def Heap.read (heap : Heap) (ref : Nat) : Dict Json :=
  heap.getD ref []

/-- A new dictionary, with its reference. -/
def Heap.new (heap : Heap) (d : Dict Json) : Nat × Heap :=
  (heap.length, heap ++ [d])

structure SharedContextManager where
  context : Nat

/-- `SharedContextManager(initial_context)`. -/
def SharedContextManager.init (heap : Heap) (initialContext : Nat) : SharedContextManager × Heap :=
  if (heap.read initialContext).isEmpty then
    let (context, heap) := heap.new []
    ({ context }, heap)
  else ({ context := initialContext }, heap)

/-- One round of the loop of `merge`. -/
def mergeEntry (context : Dict Json) (entry : String × Json) : Dict Json :=
  match context.lookup entry.1, entry.2 with
  | some (.dict old), .dict value => context.set entry.1 (.dict (Dict.merge old value))
  | _, value => context.set entry.1 value

def SharedContextManager.merge (manager : SharedContextManager) (heap : Heap)
    (updates : Dict Json) : Heap :=
  updates.foldl (fun heap entry => heap.modify manager.context (mergeEntry · entry)) heap

def SharedContextManager.snapshot (manager : SharedContextManager) (heap : Heap) : Nat × Heap :=
  heap.new (heap.read manager.context)

/-! ## Calls -/

/-- The object that is assigned, and the column after the commit of `session_repo.update`. The
    object that was loaded is the first of the heap. -/
def commitContext (stored : Dict Json) (heap : Heap) (loaded assigned : Nat) : Dict Json :=
  if eqJson (heap.read assigned) (heap.read loaded) then stored else heap.read assigned

/-- What a call makes of the stored context. -/
def mergeStored (stored updates : Dict Json) : Dict Json :=
  let (loaded, heap) := Heap.new [] stored
  let (ctx, heap) := SharedContextManager.init heap loaded
  let heap := ctx.merge heap updates
  let (assigned, heap) := ctx.snapshot heap
  commitContext stored heap loaded assigned

def updateSharedContext (db : MultiAgentDb Payload) (organizationId sessionId : Int)
    (updates : Dict Json) : Except Exn (MultiAgentDb Payload) := do
  let row ← getSession db organizationId sessionId
  return { db with sessions := db.sessions.modify row fun session =>
    { session with sharedContext := mergeStored session.sharedContext updates } }

/-- The rows after a call. -/
def afterUpdate (organizationId sessionId : Int) (db : MultiAgentDb Payload) (updates : Dict Json) :
    MultiAgentDb Payload :=
  match updateSharedContext db organizationId sessionId updates with
  | .ok db => db
  | .error _ => db

def afterUpdates (organizationId sessionId : Int) (db : MultiAgentDb Payload)
    (calls : List (Dict Json)) : MultiAgentDb Payload :=
  calls.foldl (afterUpdate organizationId sessionId) db

/-- The stored context of a session. -/
def storedContext (db : MultiAgentDb Payload) (row : Nat) : Dict Json :=
  (db.sessions[row]?.map MultiAgentSession.sharedContext).getD []

/-! ## One merge -/

/-- The one-level merge of updates into a context. -/
def mergeContext (context updates : Dict Json) : Dict Json :=
  updates.foldl mergeEntry context

theorem merge_eq (manager : SharedContextManager) (heap : Heap) (updates : Dict Json) :
    manager.merge heap updates = heap.modify manager.context (mergeContext · updates) := by
  unfold SharedContextManager.merge
  induction updates generalizing heap with
  | nil => exact (List.modify_id _ _).symm
  | cons entry updates ih =>
      rw [List.foldl_cons, ih, List.modify_modify_eq]
      rfl

theorem wellKeyed_mergeEntry {context : Dict Json} {entry : String × Json}
    (hcontext : WellKeyedDict context) (hentry : entry.2.WellKeyed) :
    WellKeyedDict (mergeEntry context entry) := by
  unfold mergeEntry
  split
  · next old value hold hvalue =>
    rw [hvalue] at hentry
    refine wellKeyed_set hcontext (wellKeyedDict_iff.mp (wellKeyed_merge ?_ ?_))
    · exact wellKeyedDict_iff.mpr (wellKeyed_of_lookup hcontext hold)
    · exact (wellKeyedDict_iff.mpr hentry).2
  · exact wellKeyed_set hcontext hentry

theorem wellKeyed_mergeContext {context updates : Dict Json} (hcontext : WellKeyedDict context)
    (hupdates : WellKeyedDict updates) : WellKeyedDict (mergeContext context updates) := by
  obtain ⟨-, hupdates⟩ := hupdates
  unfold mergeContext
  induction updates generalizing context with
  | nil => exact hcontext
  | cons entry updates ih =>
      rw [List.forall_mem_cons] at hupdates
      exact ih (wellKeyed_mergeEntry hcontext hupdates.1) hupdates.2

theorem eq_nil_of_eqJson {d : Dict Json} (h : eqJson d [] = true) : d = [] := by
  cases d with
  | nil => rfl
  | cons entry d => simp [eqJson, Json.eq] at h

/-- **One call.** It stores the merged context where nothing was stored yet. Otherwise the object
    that was loaded has been merged into as well, and nothing is written. -/
theorem mergeStored_eq {stored updates : Dict Json} (hstored : WellKeyedDict stored)
    (hupdates : WellKeyedDict updates) :
    mergeStored stored updates =
      if stored = [] then mergeContext stored updates else stored := by
  unfold mergeStored
  cases stored with
  | nil =>
      -- The manager has a dictionary of its own, at 1; the object at 0 stays empty.
      show commitContext [] (Heap.new (SharedContextManager.merge ⟨1⟩ [[], []] updates)
        (Heap.read (SharedContextManager.merge ⟨1⟩ [[], []] updates) 1)).2 0
        (SharedContextManager.merge ⟨1⟩ [[], []] updates).length = _
      rw [merge_eq]
      show (if eqJson (mergeContext [] updates) [] then [] else mergeContext [] updates) = _
      by_cases hsame : eqJson (mergeContext [] updates) [] = true
      · rw [if_pos hsame, if_pos rfl]
        exact (eq_nil_of_eqJson hsame).symm
      · rw [if_neg hsame, if_pos rfl]
  | cons entry stored =>
      -- The manager works on the object that was loaded, at 0.
      show commitContext (entry :: stored)
        (Heap.new (SharedContextManager.merge ⟨0⟩ [entry :: stored] updates)
          (Heap.read (SharedContextManager.merge ⟨0⟩ [entry :: stored] updates) 0)).2 0
        (SharedContextManager.merge ⟨0⟩ [entry :: stored] updates).length = _
      rw [merge_eq]
      show (if eqJson (mergeContext (entry :: stored) updates)
        (mergeContext (entry :: stored) updates) then entry :: stored
        else mergeContext (entry :: stored) updates) = _
      rw [if_pos (eqJson_self (wellKeyed_mergeContext hstored hupdates)),
        if_neg (List.cons_ne_nil _ _)]

/-! ## Runs -/

section Run

variable {db : MultiAgentDb Payload} {organizationId sessionId : Int} {row : Nat}

theorem getSession_lt (hsession : getSession db organizationId sessionId = .ok row) :
    row < db.sessions.length := by
  unfold getSession at hsession
  cases hindex : db.sessions.findIdx? fun s =>
      s.organizationId == organizationId && s.id == sessionId with
  | none => simp [hindex] at hsession
  | some i =>
      simp only [hindex, Except.ok.injEq] at hsession
      subst hsession
      exact (List.findIdx?_eq_some_iff_getElem.mp hindex).1

theorem findIdx?_modify {α : Type} {p : α → Bool} {f : α → α} (hf : ∀ a, p (f a) = p a)
    (l : List α) (i : Nat) : (l.modify i f).findIdx? p = l.findIdx? p := by
  induction l generalizing i with
  | nil => simp
  | cons a l ih =>
      cases i with
      | zero => rw [List.modify_zero_cons, List.findIdx?_cons, List.findIdx?_cons, hf]
      | succ i => rw [List.modify_succ_cons, List.findIdx?_cons, List.findIdx?_cons, ih]

theorem afterUpdate_eq (hsession : getSession db organizationId sessionId = .ok row)
    (updates : Dict Json) :
    getSession (afterUpdate organizationId sessionId db updates) organizationId sessionId =
        .ok row ∧
      storedContext (afterUpdate organizationId sessionId db updates) row =
        mergeStored (storedContext db row) updates := by
  have hlt := getSession_lt hsession
  have hdb : afterUpdate organizationId sessionId db updates =
      { db with sessions := db.sessions.modify row fun session =>
        { session with sharedContext := mergeStored session.sharedContext updates } } := by
    unfold afterUpdate updateSharedContext
    rw [hsession]
    rfl
  rw [hdb]
  constructor
  · have hfind := findIdx?_modify
      (p := fun s : MultiAgentSession Payload =>
        s.organizationId == organizationId && s.id == sessionId)
      (f := fun session => { session with
        sharedContext := mergeStored session.sharedContext updates })
      (fun _ => rfl) db.sessions row
    unfold getSession
    rw [hfind]
    exact hsession
  · unfold storedContext
    rw [List.getElem?_modify_eq, List.getElem?_eq_getElem hlt]
    rfl

theorem afterUpdates_concat (organizationId sessionId : Int) (db : MultiAgentDb Payload)
    (calls : List (Dict Json)) (updates : Dict Json) :
    afterUpdates organizationId sessionId db (calls ++ [updates]) =
      afterUpdate organizationId sessionId (afterUpdates organizationId sessionId db calls)
        updates := by
  unfold afterUpdates
  rw [List.foldl_concat]

theorem getSession_afterUpdates (hsession : getSession db organizationId sessionId = .ok row)
    (calls : List (Dict Json)) :
    getSession (afterUpdates organizationId sessionId db calls) organizationId sessionId =
      .ok row := by
  induction calls using List.reverseRecOn with
  | nil => exact hsession
  | append_singleton calls updates ih =>
      rw [afterUpdates_concat]
      exact (afterUpdate_eq ih updates).1

/-- The stored context after one more call. -/
theorem storedContext_concat (hsession : getSession db organizationId sessionId = .ok row)
    {calls : List (Dict Json)} {updates : Dict Json}
    (hstored : WellKeyedDict (storedContext (afterUpdates organizationId sessionId db calls) row))
    (hupdates : WellKeyedDict updates) :
    storedContext (afterUpdates organizationId sessionId db (calls ++ [updates])) row =
      if storedContext (afterUpdates organizationId sessionId db calls) row = []
      then mergeContext (storedContext (afterUpdates organizationId sessionId db calls) row) updates
      else storedContext (afterUpdates organizationId sessionId db calls) row := by
  rw [afterUpdates_concat, (afterUpdate_eq (getSession_afterUpdates hsession calls) updates).2,
    mergeStored_eq hstored hupdates]

theorem wellKeyed_storedContext (hsession : getSession db organizationId sessionId = .ok row)
    (hstored : WellKeyedDict (storedContext db row)) {calls : List (Dict Json)}
    (hcalls : ∀ updates ∈ calls, WellKeyedDict updates) :
    WellKeyedDict (storedContext (afterUpdates organizationId sessionId db calls) row) := by
  induction calls using List.reverseRecOn with
  | nil => exact hstored
  | append_singleton calls updates ih =>
      have hbefore := ih fun u hu => hcalls u (List.mem_append_left _ hu)
      have hupdates := hcalls updates (List.mem_append_right _ (List.mem_singleton_self _))
      rw [storedContext_concat hsession hbefore hupdates]
      split
      · exact wellKeyed_mergeContext hbefore hupdates
      · exact hbefore

/-- After each call, the stored context is the merge of all updates so far. -/
def NeverLost (db : MultiAgentDb Payload) (organizationId sessionId : Int) (row : Nat)
    (calls : List (Dict Json)) : Prop :=
  ∀ before, before <+: calls →
    storedContext (afterUpdates organizationId sessionId db before) row =
      before.foldl mergeContext (storedContext db row)

/-- Each call finds an empty context, or one that its updates do not change. -/
def AlwaysEmptyOrSame (db : MultiAgentDb Payload) (organizationId sessionId : Int) (row : Nat)
    (calls : List (Dict Json)) : Prop :=
  ∀ before updates after, calls = before ++ updates :: after →
    storedContext (afterUpdates organizationId sessionId db before) row = [] ∨
      mergeContext (storedContext (afterUpdates organizationId sessionId db before) row) updates =
        storedContext (afterUpdates organizationId sessionId db before) row

/-- **No update is lost along exactly the runs that change an empty context only.** -/
theorem neverLost_iff (hsession : getSession db organizationId sessionId = .ok row)
    (hstored : WellKeyedDict (storedContext db row)) {calls : List (Dict Json)}
    (hcalls : ∀ updates ∈ calls, WellKeyedDict updates) :
    NeverLost db organizationId sessionId row calls ↔
      AlwaysEmptyOrSame db organizationId sessionId row calls := by
  constructor
  · intro hnever before updates after hsplit
    have hmem : ∀ u ∈ before, u ∈ calls := by
      intro u hu
      rw [hsplit]
      exact List.mem_append_left _ hu
    have hupdates : updates ∈ calls := by
      rw [hsplit]
      exact List.mem_append_right _ (List.mem_cons_self ..)
    have hwell := wellKeyed_storedContext hsession hstored fun u hu => hcalls u (hmem u hu)
    have hconcat := storedContext_concat hsession hwell (hcalls updates hupdates)
    have hbefore := hnever before ⟨updates :: after, hsplit.symm⟩
    have hafter := hnever (before ++ [updates])
      ⟨after, by rw [hsplit, List.append_assoc]; rfl⟩
    rw [List.foldl_append, ← hbefore] at hafter
    rw [hafter] at hconcat
    by_cases hempty : storedContext (afterUpdates organizationId sessionId db before) row = []
    · exact .inl hempty
    · rw [if_neg hempty] at hconcat
      exact .inr hconcat
  · intro halways before hbefore
    induction before using List.reverseRecOn with
    | nil => rfl
    | append_singleton before updates ih =>
        obtain ⟨after, hsplit⟩ := hbefore
        have hmem : ∀ u ∈ before ++ [updates], u ∈ calls := by
          intro u hu
          rw [← hsplit]
          exact List.mem_append_left _ hu
        have hwell := wellKeyed_storedContext hsession hstored
          fun u hu => hcalls u (hmem u (List.mem_append_left _ hu))
        have hupdates := hcalls updates
          (hmem updates (List.mem_append_right _ (List.mem_singleton_self _)))
        have hearlier := ih ⟨updates :: after, by rw [← hsplit, List.append_assoc]; rfl⟩
        have hcase := halways before updates after (by
          rw [← hsplit, List.append_assoc]
          rfl)
        rw [storedContext_concat hsession hwell hupdates, List.foldl_append, ← hearlier]
        show (if _ then _ else _) = mergeContext _ updates
        rcases hcase with hempty | hsame
        · rw [if_pos hempty]
        · split
          · rfl
          · exact hsame.symm

end Run

/-! ## A session with a stored context -/

def sessionWith (context : Dict Json) : MultiAgentDb String :=
  { sessions :=
      [{ id := 1, organizationId := 1, coordinatorAgentId := 10, name := "session", goal := "goal",
         status := .pending, sharedContext := context, createdBy := 1 }]
    participants := []
    delegations := [] }

/-- The first call finds an empty context, and the second one changes nothing in it. -/
def repeatedUpdates : List (Dict Json) :=
  [[("topic", .str "rates"), ("deadline", .str "monday")], [("deadline", .str "monday")]]

theorem neverLost_repeated : NeverLost (sessionWith []) 1 1 0 repeatedUpdates := by
  have hsession : getSession (sessionWith []) 1 1 = .ok 0 := rfl
  have hstored : WellKeyedDict (storedContext (sessionWith []) 0) :=
    ⟨List.nodup_nil, fun entry hentry => absurd hentry List.not_mem_nil⟩
  have hcalls : ∀ updates ∈ repeatedUpdates, WellKeyedDict updates := by
    intro updates hupdates
    obtain rfl | rfl := List.mem_pair.mp hupdates
    · refine ⟨by decide, fun entry hentry => ?_⟩
      obtain rfl | rfl := List.mem_pair.mp hentry <;> trivial
    · refine ⟨by decide, fun entry hentry => ?_⟩
      obtain rfl := List.mem_singleton.mp hentry
      trivial
  refine (neverLost_iff hsession hstored hcalls).mpr ?_
  intro before updates after hsplit
  obtain - | ⟨first, - | ⟨second, before⟩⟩ := before
  · exact .inl rfl
  · obtain ⟨rfl, hrest⟩ := List.cons.inj hsplit
    obtain ⟨rfl, -⟩ := List.cons.inj hrest
    exact .inr rfl
  · have hlength := congrArg List.length hsplit
    simp [repeatedUpdates] at hlength

/-- The second update is lost: the context was not empty any more. -/
theorem not_neverLost_second :
    ¬ NeverLost (sessionWith []) 1 1 0
      [[("topic", .str "rates")], [("deadline", .str "monday")]] := by
  intro hnever
  have hafter := congrArg List.length (hnever _ List.prefix_rfl)
  exact absurd hafter (by decide)

end AgentCorp.MultiAgent
