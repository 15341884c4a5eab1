/-
  `delegate_task`: the checks of the delegation engine, and the depth it stores.

  The depth of a new delegation is one more than the largest depth of its session, and only the
  agent that a task goes to has to be a participant.

  * `delegateTask_cases`: what a call does.
  * `delegationDepth_le`: no stored depth exceeds the maximum, whatever is called.
  * `delegationInvariants_iff`: along which runs the depths are those of chains, and the agents
    are participants.
-/
import AgentCorp.MultiAgent.Models
import Mathlib.Data.List.Induction

namespace AgentCorp.MultiAgent

open AgentCorp.Python

variable {Payload : Type}

def maxAgentDelegations : Nat := 5

/-- The largest depth of these delegations, or 0. -/
def maxDepth (delegations : List AgentDelegation) : Nat :=
  (delegations.map (·.delegationDepth)).foldr max 0

def getDepthForSession (db : MultiAgentDb Payload) (sessionId : Int) : Nat :=
  maxDepth (delegationsOf db sessionId)

def depthExceeded (depth : Nat) : Exn :=
  .other "DelegationLimitExceededError"
    ("Delegation depth " ++ toString depth ++ " exceeds maximum " ++
      toString maxAgentDelegations ++ ".")

def validateDelegation (delegationDepth : Nat) (fromAgentId toAgentId : Int)
    (sessionParticipantIds : List Int) : Except Exn Unit :=
  if delegationDepth ≥ maxAgentDelegations then .error (depthExceeded delegationDepth)
  else if toAgentId ∉ sessionParticipantIds then
    .error (.valueError
      ("Agent " ++ toString toAgentId ++ " is not a participant in this session."))
  else if fromAgentId = toAgentId then
    .error (.valueError "An agent cannot delegate a task to itself.")
  else .ok ()

def buildDelegationPayload (sessionId fromAgentId toAgentId : Int) (taskDescription : String)
    (context : Option (Dict Json)) (depth : Nat) : AgentDelegation :=
  { sessionId, fromAgentId, toAgentId, taskDescription
    context := context.getD []
    delegationDepth := depth
    status := "PENDING" }

/-- What a caller asks for. -/
structure DelegateCall where
  fromAgentId : Int
  toAgentId : Int
  taskDescription : String
  context : Option (Dict Json)

def delegateTask (db : MultiAgentDb Payload) (organizationId sessionId : Int)
    (call : DelegateCall) : Except Exn (AgentDelegation × MultiAgentDb Payload) := do
  let _ ← getSession db organizationId sessionId
  let participantIds := participantAgentIds db sessionId
  let currentDepth := getDepthForSession db sessionId
  validateDelegation currentDepth call.fromAgentId call.toAgentId participantIds
  let delegation := buildDelegationPayload sessionId call.fromAgentId call.toAgentId
    call.taskDescription call.context (currentDepth + 1)
  return (delegation, { db with delegations := db.delegations ++ [delegation] })

/-- The rows after a call. One that raises stores nothing. -/
def afterCall (organizationId sessionId : Int) (db : MultiAgentDb Payload) (call : DelegateCall) :
    MultiAgentDb Payload :=
  match delegateTask db organizationId sessionId call with
  | .ok (_, db) => db
  | .error _ => db

def afterCalls (organizationId sessionId : Int) (db : MultiAgentDb Payload)
    (calls : List DelegateCall) : MultiAgentDb Payload :=
  calls.foldl (afterCall organizationId sessionId) db

/-! ## Chains -/

/-- The length of the longest chain that reaches an agent. -/
def depthInto (delegations : List AgentDelegation) (agentId : Int) : Nat :=
  maxDepth (delegations.filter (·.toAgentId == agentId))

theorem maxDepth_le_iff {delegations : List AgentDelegation} {n : Nat} :
    maxDepth delegations ≤ n ↔ ∀ d ∈ delegations, d.delegationDepth ≤ n := by
  induction delegations with
  | nil => simp [maxDepth]
  | cons d delegations ih =>
      unfold maxDepth at ih ⊢
      rw [List.map_cons, List.foldr_cons, Nat.max_le, ih, List.forall_mem_cons]

theorem depthInto_le_maxDepth (delegations : List AgentDelegation) (agentId : Int) :
    depthInto delegations agentId ≤ maxDepth delegations := by
  have hall := maxDepth_le_iff.mp (Nat.le_refl (maxDepth delegations))
  exact maxDepth_le_iff.mpr fun d hd => hall d (List.mem_filter.mp hd).1

/-! ## One call -/

theorem validateDelegation_ok_iff (depth : Nat) (fromAgentId toAgentId : Int) (ids : List Int) :
    validateDelegation depth fromAgentId toAgentId ids = .ok () ↔
      depth < maxAgentDelegations ∧ toAgentId ∈ ids ∧ fromAgentId ≠ toAgentId := by
  unfold validateDelegation
  by_cases hlimit : depth ≥ maxAgentDelegations
  · rw [if_pos hlimit]
    exact iff_of_false (fun h => by cases h) fun h => absurd h.1 (Nat.not_lt.mpr hlimit)
  · have hbelow : depth < maxAgentDelegations := Nat.lt_of_not_le hlimit
    rw [if_neg hlimit]
    by_cases hto : toAgentId ∈ ids
    · rw [if_neg (not_not.mpr hto)]
      by_cases hself : fromAgentId = toAgentId
      · rw [if_pos hself]
        exact iff_of_false (fun h => by cases h) fun h => h.2.2 hself
      · rw [if_neg hself]
        exact iff_of_true rfl ⟨hbelow, hto, hself⟩
    · rw [if_pos hto]
      exact iff_of_false (fun h => by cases h) fun h => hto h.2.1

section Call

variable {db : MultiAgentDb Payload} {organizationId sessionId : Int} {row : Nat}

/-- A call may store: the session is not at the maximum, and the task goes to another
    participant. -/
def MayStore (db : MultiAgentDb Payload) (sessionId : Int) (call : DelegateCall) : Prop :=
  maxDepth (delegationsOf db sessionId) < maxAgentDelegations ∧
    call.toAgentId ∈ participantAgentIds db sessionId ∧ call.fromAgentId ≠ call.toAgentId

/-- What a call stores. -/
def newDelegation (db : MultiAgentDb Payload) (sessionId : Int) (call : DelegateCall) :
    AgentDelegation :=
  buildDelegationPayload sessionId call.fromAgentId call.toAgentId call.taskDescription
    call.context (maxDepth (delegationsOf db sessionId) + 1)

/-- **One call** that finds its session. -/
theorem delegateTask_cases (hsession : getSession db organizationId sessionId = .ok row)
    (call : DelegateCall) :
    (MayStore db sessionId call ∧
        delegateTask db organizationId sessionId call =
          .ok (newDelegation db sessionId call,
            { db with delegations := db.delegations ++ [newDelegation db sessionId call] })) ∨
      (¬ MayStore db sessionId call ∧
        ∃ e, delegateTask db organizationId sessionId call = .error e) := by
  have hvalid := validateDelegation_ok_iff (maxDepth (delegationsOf db sessionId))
    call.fromAgentId call.toAgentId (participantAgentIds db sessionId)
  have hcall : delegateTask db organizationId sessionId call =
      (validateDelegation (maxDepth (delegationsOf db sessionId)) call.fromAgentId call.toAgentId
        (participantAgentIds db sessionId)).map fun _ => (newDelegation db sessionId call,
          { db with delegations := db.delegations ++ [newDelegation db sessionId call] }) := by
    unfold delegateTask
    rw [hsession]
    show (validateDelegation (maxDepth (delegationsOf db sessionId)) _ _ _ >>= _) = _
    cases validateDelegation (maxDepth (delegationsOf db sessionId)) call.fromAgentId
      call.toAgentId (participantAgentIds db sessionId) <;> rfl
  rw [hcall]
  cases hresult : validateDelegation (maxDepth (delegationsOf db sessionId)) call.fromAgentId
      call.toAgentId (participantAgentIds db sessionId) with
  | ok u => exact .inl ⟨hvalid.mp hresult, rfl⟩
  | error e =>
      refine .inr ⟨fun h => ?_, e, rfl⟩
      rw [hvalid.mpr h] at hresult
      cases hresult

theorem afterCall_of_mayStore (hsession : getSession db organizationId sessionId = .ok row)
    {call : DelegateCall} (h : MayStore db sessionId call) :
    afterCall organizationId sessionId db call =
      { db with delegations := db.delegations ++ [newDelegation db sessionId call] } := by
  unfold afterCall
  rcases delegateTask_cases hsession call with ⟨-, hok⟩ | ⟨hnot, -⟩
  · rw [hok]
  · exact absurd h hnot

theorem afterCall_of_not_mayStore (hsession : getSession db organizationId sessionId = .ok row)
    {call : DelegateCall} (h : ¬ MayStore db sessionId call) :
    afterCall organizationId sessionId db call = db := by
  unfold afterCall
  rcases delegateTask_cases hsession call with ⟨hmay, -⟩ | ⟨-, e, herror⟩
  · exact absurd hmay h
  · rw [herror]

/-- A call stores at most one delegation, and changes nothing else. -/
theorem afterCall_eq (hsession : getSession db organizationId sessionId = .ok row)
    (call : DelegateCall) :
    ∃ new, afterCall organizationId sessionId db call =
        { db with delegations := db.delegations ++ new } ∧
      new.filter (·.sessionId == sessionId) = new := by
  by_cases h : MayStore db sessionId call
  · refine ⟨_, afterCall_of_mayStore hsession h, ?_⟩
    simp [newDelegation, buildDelegationPayload]
  · refine ⟨[], ?_, rfl⟩
    rw [afterCall_of_not_mayStore hsession h, List.append_nil]

end Call

/-! ## Runs -/

section Run

variable {db : MultiAgentDb Payload} {organizationId sessionId : Int} {row : Nat}

theorem afterCalls_concat (organizationId sessionId : Int) (db : MultiAgentDb Payload)
    (calls : List DelegateCall) (call : DelegateCall) :
    afterCalls organizationId sessionId db (calls ++ [call]) =
      afterCall organizationId sessionId (afterCalls organizationId sessionId db calls) call := by
  unfold afterCalls
  rw [List.foldl_concat]

/-- A run leaves the sessions and the participants as they are, and only adds delegations. -/
theorem afterCalls_eq (hsession : getSession db organizationId sessionId = .ok row)
    (calls : List DelegateCall) :
    ∃ new, afterCalls organizationId sessionId db calls =
        { db with delegations := db.delegations ++ new } ∧
      new.filter (·.sessionId == sessionId) = new := by
  induction calls using List.reverseRecOn with
  | nil => exact ⟨[], by simp [afterCalls], rfl⟩
  | append_singleton calls call ih =>
      obtain ⟨new, hdb, hnew⟩ := ih
      have hsession' : getSession (afterCalls organizationId sessionId db calls) organizationId
          sessionId = .ok row := by
        rw [hdb]
        exact hsession
      obtain ⟨more, hafter, hmore⟩ := afterCall_eq hsession' call
      refine ⟨new ++ more, ?_, ?_⟩
      · rw [afterCalls_concat, hafter, hdb]
        simp
      · rw [List.filter_append, hnew, hmore]

theorem getSession_afterCalls (hsession : getSession db organizationId sessionId = .ok row)
    (calls : List DelegateCall) :
    getSession (afterCalls organizationId sessionId db calls) organizationId sessionId =
      .ok row := by
  obtain ⟨new, hdb, -⟩ := afterCalls_eq hsession calls
  rw [hdb]
  exact hsession

theorem participantAgentIds_afterCalls
    (hsession : getSession db organizationId sessionId = .ok row) (calls : List DelegateCall) :
    participantAgentIds (afterCalls organizationId sessionId db calls) sessionId =
      participantAgentIds db sessionId := by
  obtain ⟨new, hdb, -⟩ := afterCalls_eq hsession calls
  rw [hdb]
  rfl

/-- The delegations of the session after one more call. -/
theorem delegationsOf_concat (hsession : getSession db organizationId sessionId = .ok row)
    (calls : List DelegateCall) (call : DelegateCall) :
    (MayStore (afterCalls organizationId sessionId db calls) sessionId call ∧
        delegationsOf (afterCalls organizationId sessionId db (calls ++ [call])) sessionId =
          delegationsOf (afterCalls organizationId sessionId db calls) sessionId ++
            [newDelegation (afterCalls organizationId sessionId db calls) sessionId call]) ∨
      (¬ MayStore (afterCalls organizationId sessionId db calls) sessionId call ∧
        delegationsOf (afterCalls organizationId sessionId db (calls ++ [call])) sessionId =
          delegationsOf (afterCalls organizationId sessionId db calls) sessionId) := by
  have hsession' := getSession_afterCalls hsession calls
  rw [afterCalls_concat]
  by_cases h : MayStore (afterCalls organizationId sessionId db calls) sessionId call
  · rw [afterCall_of_mayStore hsession' h]
    refine .inl ⟨h, ?_⟩
    unfold delegationsOf
    rw [List.filter_append]
    simp [newDelegation, buildDelegationPayload]
  · rw [afterCall_of_not_mayStore hsession' h]
    exact .inr ⟨h, rfl⟩

/-- A run keeps the delegations of the runs before it, as its first ones. -/
theorem delegationsOf_append (hsession : getSession db organizationId sessionId = .ok row)
    (before after : List DelegateCall) :
    delegationsOf (afterCalls organizationId sessionId db before) sessionId <+:
      delegationsOf (afterCalls organizationId sessionId db (before ++ after)) sessionId := by
  induction after using List.reverseRecOn with
  | nil => rw [List.append_nil]
  | append_singleton after call ih =>
      rw [← List.append_assoc]
      rcases delegationsOf_concat hsession (before ++ after) call with ⟨-, h⟩ | ⟨-, h⟩
      · rw [h]
        exact ih.trans (List.prefix_append _ _)
      · rw [h]
        exact ih

/-- **No stored depth exceeds the maximum**, in any run. -/
theorem delegationDepth_le (hsession : getSession db organizationId sessionId = .ok row)
    (hfresh : delegationsOf db sessionId = []) (calls : List DelegateCall) :
    maxDepth (delegationsOf (afterCalls organizationId sessionId db calls) sessionId) ≤
      maxAgentDelegations := by
  induction calls using List.reverseRecOn with
  | nil =>
      show maxDepth (delegationsOf db sessionId) ≤ _
      rw [hfresh]
      exact Nat.zero_le _
  | append_singleton calls call ih =>
      rcases delegationsOf_concat hsession calls call with ⟨hmay, h⟩ | ⟨-, h⟩
      · rw [h]
        refine maxDepth_le_iff.mpr ?_
        intro d hd
        rcases List.mem_append.mp hd with hold | hnew
        · exact maxDepth_le_iff.mp ih d hold
        · rw [List.mem_singleton.mp hnew]
          exact hmay.1
      · rw [h]
        exact ih

/-- What is expected of the delegations of a session after a run, and of the calls that were
    refused. -/
structure DelegationInvariants (db : MultiAgentDb Payload) (organizationId sessionId : Int)
    (calls : List DelegateCall) : Prop where
  endpoints : ∀ d ∈ delegationsOf (afterCalls organizationId sessionId db calls) sessionId,
    d.fromAgentId ∈ participantAgentIds db sessionId ∧
      d.toAgentId ∈ participantAgentIds db sessionId ∧ d.fromAgentId ≠ d.toAgentId
  depth : ∀ i d,
    (delegationsOf (afterCalls organizationId sessionId db calls) sessionId)[i]? = some d →
    d.delegationDepth =
      depthInto ((delegationsOf (afterCalls organizationId sessionId db calls) sessionId).take i)
        d.fromAgentId + 1
  bounded : ∀ d ∈ delegationsOf (afterCalls organizationId sessionId db calls) sessionId,
    d.delegationDepth ≤ maxAgentDelegations
  refusals : ∀ before call after e, calls = before ++ call :: after →
    call.fromAgentId ∈ participantAgentIds db sessionId →
    call.toAgentId ∈ participantAgentIds db sessionId → call.fromAgentId ≠ call.toAgentId →
    delegateTask (afterCalls organizationId sessionId db before) organizationId sessionId call =
      .error e →
    maxAgentDelegations ≤
      depthInto (delegationsOf (afterCalls organizationId sessionId db before) sessionId)
        call.fromAgentId

/-- A task goes on to another participant from the end of a longest chain, or else from outside
    the session when that is at the maximum. -/
def FromDeepest (participantIds : List Int) (delegations : List AgentDelegation)
    (call : DelegateCall) : Prop :=
  call.toAgentId ∈ participantIds → call.fromAgentId ≠ call.toAgentId →
    if call.fromAgentId ∈ participantIds
    then depthInto delegations call.fromAgentId = maxDepth delegations
    else maxAgentDelegations ≤ maxDepth delegations

/-- The condition of each call, on the delegations stored before it. -/
def AlwaysFromDeepest (db : MultiAgentDb Payload) (organizationId sessionId : Int)
    (calls : List DelegateCall) : Prop :=
  ∀ before call after, calls = before ++ call :: after →
    FromDeepest (participantAgentIds db sessionId)
      (delegationsOf (afterCalls organizationId sessionId db before) sessionId) call

theorem AlwaysFromDeepest.of_append {calls more : List DelegateCall}
    (h : AlwaysFromDeepest db organizationId sessionId (calls ++ more)) :
    AlwaysFromDeepest db organizationId sessionId calls := by
  intro before call after hsplit
  exact h before call (after ++ more) (by rw [hsplit, List.append_assoc]; rfl)

theorem alwaysFromDeepest_nil : AlwaysFromDeepest db organizationId sessionId [] := by
  intro before call after hsplit
  have hlength := congrArg List.length hsplit
  simp at hlength

theorem AlwaysFromDeepest.concat {calls : List DelegateCall}
    (h : AlwaysFromDeepest db organizationId sessionId calls) (call : DelegateCall)
    (hcall : FromDeepest (participantAgentIds db sessionId)
      (delegationsOf (afterCalls organizationId sessionId db calls) sessionId) call) :
    AlwaysFromDeepest db organizationId sessionId (calls ++ [call]) := by
  intro before call' after hsplit
  rcases List.eq_nil_or_concat' after with rfl | ⟨after, last, rfl⟩
  · obtain ⟨rfl, hlast⟩ := List.append_inj' hsplit rfl
    obtain rfl := (List.cons.inj hlast).1
    exact hcall
  · have hsplit' : calls ++ [call] = (before ++ call' :: after) ++ [last] := by
      rw [hsplit, List.append_assoc]
      rfl
    exact h before call' after (List.append_inj' hsplit' rfl).1

/-- Under the condition, what is stored goes between participants, at the depth of its chain. -/
theorem stored_of_fromDeepest (hsession : getSession db organizationId sessionId = .ok row)
    (hfresh : delegationsOf db sessionId = []) {calls : List DelegateCall}
    (h : AlwaysFromDeepest db organizationId sessionId calls) :
    ∀ i d,
      (delegationsOf (afterCalls organizationId sessionId db calls) sessionId)[i]? = some d →
      (d.fromAgentId ∈ participantAgentIds db sessionId ∧
        d.toAgentId ∈ participantAgentIds db sessionId ∧ d.fromAgentId ≠ d.toAgentId) ∧
      d.delegationDepth =
        depthInto ((delegationsOf (afterCalls organizationId sessionId db calls) sessionId).take i)
          d.fromAgentId + 1 := by
  induction calls using List.reverseRecOn with
  | nil =>
      intro i d hd
      change (delegationsOf db sessionId)[i]? = some d at hd
      rw [hfresh] at hd
      cases hd
  | append_singleton calls call ih =>
      intro i d hd
      have hstored := ih h.of_append
      have hlast := h calls call [] rfl
      rcases delegationsOf_concat hsession calls call with ⟨hmay, hdelegations⟩ | ⟨-, hdelegations⟩
      · obtain ⟨hbelow, hto, hself⟩ := hmay
        rw [participantAgentIds_afterCalls hsession] at hto
        rw [hdelegations] at hd ⊢
        rcases Nat.lt_or_ge i
            (delegationsOf (afterCalls organizationId sessionId db calls) sessionId).length with
          hold | hnew
        · rw [List.getElem?_append_left hold] at hd
          rw [List.take_append_of_le_length hold.le]
          exact hstored i d hd
        · -- The delegation that the last call stores.
          rw [List.getElem?_append_right hnew] at hd
          have hi : i = (delegationsOf (afterCalls organizationId sessionId db calls)
              sessionId).length := by
            have hlt := (List.getElem?_eq_some_iff.mp hd).1
            rw [List.length_singleton] at hlt
            omega
          subst hi
          rw [Nat.sub_self] at hd
          obtain rfl := Option.some.inj hd
          have hcase := hlast hto hself
          by_cases hfrom : call.fromAgentId ∈ participantAgentIds db sessionId
          · rw [if_pos hfrom] at hcase
            rw [List.take_left']
            · exact ⟨⟨hfrom, hto, hself⟩, congrArg (· + 1) hcase.symm⟩
            · rfl
          · rw [if_neg hfrom] at hcase
            exact absurd hbelow (Nat.not_lt.mpr hcase)
      · rw [hdelegations] at hd ⊢
        exact hstored i d hd

/-- **The invariants hold along exactly the runs whose tasks go on from a longest chain.** -/
theorem delegationInvariants_iff (hsession : getSession db organizationId sessionId = .ok row)
    (hfresh : delegationsOf db sessionId = []) (calls : List DelegateCall) :
    DelegationInvariants db organizationId sessionId calls ↔
      AlwaysFromDeepest db organizationId sessionId calls := by
  constructor
  · intro hinv before call after hcalls hto hself
    have hle := delegationDepth_le hsession hfresh before
    have hinto := depthInto_le_maxDepth
      (delegationsOf (afterCalls organizationId sessionId db before) sessionId) call.fromAgentId
    have hids := participantAgentIds_afterCalls hsession before
    by_cases hbelow : maxDepth (delegationsOf (afterCalls organizationId sessionId db before)
        sessionId) < maxAgentDelegations
    · -- The call stores a delegation, which is still there at the end.
      have hstored : (delegationsOf (afterCalls organizationId sessionId db calls) sessionId)[
          (delegationsOf (afterCalls organizationId sessionId db before) sessionId).length]? =
          some (newDelegation (afterCalls organizationId sessionId db before) sessionId call) ∧
          (delegationsOf (afterCalls organizationId sessionId db calls) sessionId).take
            (delegationsOf (afterCalls organizationId sessionId db before) sessionId).length =
          delegationsOf (afterCalls organizationId sessionId db before) sessionId := by
        have hmay : MayStore (afterCalls organizationId sessionId db before) sessionId call :=
          ⟨hbelow, by rw [hids]; exact hto, hself⟩
        have hstep : delegationsOf (afterCalls organizationId sessionId db (before ++ [call]))
            sessionId = _ :=
          ((delegationsOf_concat hsession before call).resolve_right fun h => h.1 hmay).2
        obtain ⟨rest, hrest⟩ := delegationsOf_append hsession (before ++ [call]) after
        rw [List.append_assoc, List.singleton_append, ← hcalls, hstep] at hrest
        rw [← hrest, List.append_assoc]
        constructor
        · rw [List.getElem?_append_right (le_refl _), Nat.sub_self]
          rfl
        · exact List.take_left' rfl
      have hmem := List.mem_of_getElem? hstored.1
      have hfrom : call.fromAgentId ∈ participantAgentIds db sessionId :=
        (hinv.endpoints _ hmem).1
      have hdepth := hinv.depth _ _ hstored.1
      rw [hstored.2] at hdepth
      rw [if_pos hfrom]
      exact (Nat.succ.inj hdepth).symm
    · have hmax := Nat.not_lt.mp hbelow
      by_cases hfrom : call.fromAgentId ∈ participantAgentIds db sessionId
      · rw [if_pos hfrom]
        obtain ⟨e, herror⟩ := (((delegateTask_cases (getSession_afterCalls hsession before)
          call).resolve_left fun h => hbelow h.1.1)).2
        have hchain := hinv.refusals before call after e hcalls hfrom hto hself herror
        omega
      · rw [if_neg hfrom]
        exact hmax
  · intro hdeepest
    have hstored := stored_of_fromDeepest hsession hfresh hdeepest
    refine ⟨?_, fun i d hd => (hstored i d hd).2, ?_, ?_⟩
    · intro d hd
      obtain ⟨i, hi⟩ := List.mem_iff_getElem?.mp hd
      exact (hstored i d hi).1
    · exact maxDepth_le_iff.mp (delegationDepth_le hsession hfresh calls)
    · intro before call after e hcalls hfrom hto hself herror
      have hcase := hdeepest before call after hcalls hto hself
      rw [if_pos hfrom] at hcase
      rw [hcase]
      by_contra hbelow
      have hmay : MayStore (afterCalls organizationId sessionId db before) sessionId call :=
        ⟨Nat.not_le.mp hbelow, by rw [participantAgentIds_afterCalls hsession]; exact hto, hself⟩
      rcases delegateTask_cases (getSession_afterCalls hsession before) call with
        ⟨-, hok⟩ | ⟨hnot, -⟩
      · rw [hok] at herror
        cases herror
      · exact hnot hmay

end Run

/-! ## A session of three agents -/

def enrolled (agentId : Int) (role : String) : MultiAgentParticipant String :=
  { sessionId := 1, agentId, role, subTask := "task", status := "PENDING" }

def threeAgents : MultiAgentDb String :=
  { sessions :=
      [{ id := 1, organizationId := 1, coordinatorAgentId := 10, name := "session", goal := "goal",
         status := .pending, sharedContext := [], createdBy := 1 }]
    participants := [enrolled 10 "coordinator", enrolled 11 "worker", enrolled 12 "worker"]
    delegations := [] }

theorem delegationInvariants_chain :
    DelegationInvariants threeAgents 1 1 [⟨10, 11, "task", none⟩, ⟨11, 12, "task", none⟩] := by
  have hfirst : AlwaysFromDeepest threeAgents 1 1 [⟨10, 11, "task", none⟩] :=
    alwaysFromDeepest_nil.concat ⟨10, 11, "task", none⟩ (by unfold FromDeepest; decide)
  have hboth : AlwaysFromDeepest threeAgents 1 1
      [⟨10, 11, "task", none⟩, ⟨11, 12, "task", none⟩] :=
    hfirst.concat ⟨11, 12, "task", none⟩ (by unfold FromDeepest; decide)
  have hsession : getSession threeAgents 1 1 = .ok 0 := rfl
  have hfresh : delegationsOf threeAgents 1 = [] := rfl
  exact (delegationInvariants_iff hsession hfresh _).mpr hboth

/-- The coordinator delegates to both workers: the second delegation is stored with depth 2, and
    an agent outside the session delegates as well. -/
theorem not_delegationInvariants_siblings :
    ¬ DelegationInvariants threeAgents 1 1 [⟨10, 11, "task", none⟩, ⟨10, 12, "task", none⟩] ∧
      ¬ DelegationInvariants threeAgents 1 1 [⟨99, 11, "task", none⟩] := by
  constructor
  · intro hinv
    have hdepth := hinv.depth 1 (buildDelegationPayload 1 10 12 "task" none 2) rfl
    exact absurd hdepth (by decide)
  · intro hinv
    have hfrom := (hinv.endpoints _ (List.mem_cons_self ..)).1
    exact absurd hfrom (by decide)

end AgentCorp.MultiAgent
