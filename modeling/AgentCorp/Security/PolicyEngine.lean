/-
  The policy engine: the walk over the policies, and what their order decides.

  `evaluate_policies` takes the policies as a query returned them and stops at the first one that
  decides: a denial raises, an allowance returns `True`, and so does a condition that holds. A
  condition may also raise. One evaluation takes place within one minute (`currentHm`), and
  `ipaddress` is a parameter.

  * `evaluateLoaded_eq`: the walk ends with the first decision.
  * `evaluatePolicies_expired`: without a cache, it is over the rows of the table.
  * `denyOverrides_iff`: when denials win, in every order.
-/
import AgentCorp.Lib.FirstDecision
import AgentCorp.Lib.Proc
import AgentCorp.Python.Data

namespace AgentCorp.Security

open AgentCorp.Python

structure SecurityPolicy where
  name : String
  resource : String
  action : String
  effect : String
  condition : Json := .null
  isActive : Bool := true

/-- What a request is evaluated with: `getattr(user, "role", None)`,
    `getattr(organization, "id", None)` and the rest, at a minute of the day. -/
structure PolicyRequest where
  role : Json
  organizationId : Json
  resource : String
  action : String
  clientIp : Option String
  currentHm : String

/-- `ipaddress.ip_address`, `ipaddress.ip_network(cidr, strict=False)` and `addr in network`.
    The first two raise a `ValueError` or return. -/
structure IpAddresses where
  Address : Type
  Network : Type
  address : String → Except String Address
  network : Json → Except String Network
  contains : Network → Address → Bool

/-! ## The cache -/

/-- `_policy_cache` and `_cache_loaded_at`. -/
structure PolicyCache where
  policies : List SecurityPolicy
  loadedAt : Rat

/-- `_load_policies`, at a time and with the rows of the table. -/
def loadPolicies (cache : PolicyCache) (now : Rat) (rows : List SecurityPolicy) :
    List SecurityPolicy × PolicyCache :=
  if now - cache.loadedAt > 60 then
    let policies := rows.filter (·.isActive)
    (policies, { policies, loadedAt := now })
  else (cache.policies, cache)

/-! ## Conditions -/

/-- `bound and compare(current_hm, bound)`. -/
def beyond (op : String) (compare : String → String → Bool) (currentHm : String) (bound : Json) :
    Except Exn Bool :=
  if bound.truthy then
    match bound with
    | .str bound => .ok (compare currentHm bound)
    | value => .error (.typeError ("'" ++ op ++ "' not supported between instances of 'str' and '"
        ++ value.typeName ++ "'"))
  else .ok false

/-- `_check_time`. -/
def checkTime (currentHm : String) (condition : Dict Json) : Except Exn Bool := do
  if ← beyond "<" (fun now bound => now < bound) currentHm (getJson condition "time_from") then
    return false
  else if ← beyond ">" (fun now bound => bound < now) currentHm
      (getJson condition "time_until") then
    return false
  else return true

/-- `for item in value`. -/
def iterate : Json → Except Exn (List Json)
  | .list items => .ok items
  | .str text => .ok (text.toList.map fun c => .str c.toString)
  | .dict entries => .ok (entries.map fun entry => .str entry.1)
  | value => .error (.typeError ("'" ++ value.typeName ++ "' object is not iterable"))

section Evaluate

variable (ip : IpAddresses)

/-- `any(addr in ipaddress.ip_network(cidr, strict=False) for cidr in allowed)`. -/
def inAnyNetwork (address : ip.Address) : List Json → Except Exn Bool
  | [] => .ok false
  | cidr :: rest => do
      if ip.contains (← (ip.network cidr).mapError Exn.valueError) address then return true
      else inAnyNetwork address rest

/-- The `try` statement of `_check_ip`. -/
def addressAllowed (allowed : Json) (clientIp : String) : Except Exn Bool :=
  let inside := do
    let address ← (ip.address clientIp).mapError Exn.valueError
    inAnyNetwork ip address (← iterate allowed)
  match inside with
  | .error (.valueError _) => .ok false
  | result => result

/-- `_check_ip`. -/
def checkIp (condition : Dict Json) (clientIp : Option String) : Except Exn Bool :=
  let allowed := getJson condition "allowed_ips"
  if !allowed.truthy then .ok true
  else
    match clientIp.getD "" with
    | "" => .ok false
    | clientIp => addressAllowed ip allowed clientIp

variable (request : PolicyRequest)

/-- `_evaluate_condition`. -/
def evaluateCondition (condition : Json) : Except Exn Bool :=
  if !condition.truthy then .ok true
  else
    match condition with
    | .dict condition => do
        let requiredRole := getJson condition "user_role"
        let requiredOrg := getJson condition "org_id"
        if requiredRole.truthy && !request.role.eq requiredRole then return false
        else if !requiredOrg.eq .null && !request.organizationId.eq requiredOrg then return false
        else if !(← checkTime request.currentHm condition) then return false
        else if !(← checkIp ip condition request.clientIp) then return false
        else return true
    | value => .error (.attributeError ("'" ++ value.typeName ++ "' object has no attribute 'get'"))

/-! ## evaluate_policies -/

/-- `SecurityPolicy.matches`. -/
def SecurityPolicy.matches (policy : SecurityPolicy) : Bool :=
  policy.isActive && policy.resource == request.resource && policy.action == request.action

/-- The exception of a denial. -/
def denied (policy : SecurityPolicy) : Exn :=
  .policyViolation ("Policy '" ++ policy.name ++ "' denies " ++ request.action ++ " on " ++
    request.resource ++ ".")

/-- The loop of `evaluate_policies`. -/
def evaluateLoaded : List SecurityPolicy → Except Exn Bool
  | [] => .ok false
  | policy :: rest =>
      if !policy.matches request then evaluateLoaded rest
      else if policy.effect = "deny" then .error (denied request policy)
      else if policy.effect = "allow" then .ok true
      else if policy.effect = "conditional" then do
        if ← evaluateCondition ip request policy.condition then return true
        else evaluateLoaded rest
      else evaluateLoaded rest

/-- `evaluate_policies`, and the cache it leaves. -/
def evaluatePolicies (cache : PolicyCache) (now : Rat) (rows : List SecurityPolicy) :
    Except Exn Bool × PolicyCache :=
  let (policies, cache) := loadPolicies cache now rows
  (evaluateLoaded ip request policies, cache)

/-! ## Decisions -/

/-- How a policy ends the walk, if it does. -/
def SecurityPolicy.decision (policy : SecurityPolicy) : Option (Except Exn Bool) :=
  if !policy.matches request then none
  else if policy.effect = "deny" then some (.error (denied request policy))
  else if policy.effect = "allow" then some (.ok true)
  else if policy.effect = "conditional" then
    match evaluateCondition ip request policy.condition with
    | .ok true => some (.ok true)
    | .ok false => none
    | .error exc => some (.error exc)
  else none

/-- **The first decision** is the result. -/
theorem evaluateLoaded_eq (policies : List SecurityPolicy) :
    evaluateLoaded ip request policies =
      (policies.findSome? (·.decision ip request)).getD (.ok false) := by
  induction policies with
  | nil => rfl
  | cons policy rest ih =>
      unfold evaluateLoaded
      rw [List.findSome?_cons]
      unfold SecurityPolicy.decision
      by_cases hmatches : policy.matches request = true
      · simp only [hmatches, Bool.not_true, Bool.false_eq_true, if_false]
        by_cases hdeny : policy.effect = "deny"
        · rw [if_pos hdeny, if_pos hdeny]
          rfl
        · rw [if_neg hdeny, if_neg hdeny]
          by_cases hallow : policy.effect = "allow"
          · rw [if_pos hallow, if_pos hallow]
            rfl
          · rw [if_neg hallow, if_neg hallow]
            by_cases hconditional : policy.effect = "conditional"
            · rw [if_pos hconditional, if_pos hconditional]
              cases evaluateCondition ip request policy.condition with
              | error exc => rfl
              | ok holds =>
                  cases holds with
                  | true => rfl
                  | false => exact ih
            · rw [if_neg hconditional, if_neg hconditional]
              exact ih
      · simp only [hmatches, Bool.not_false, if_true]
        exact ih

/-! ## The kinds of policies -/

/-- Policies that are not active decide nothing. -/
theorem evaluateLoaded_active (policies : List SecurityPolicy) :
    evaluateLoaded ip request (policies.filter (·.isActive)) =
      evaluateLoaded ip request policies := by
  induction policies with
  | nil => rfl
  | cons policy rest ih =>
      rw [List.filter_cons]
      by_cases hactive : policy.isActive = true
      · rw [if_pos hactive]
        unfold evaluateLoaded
        rw [ih]
      · have hmatches : policy.matches request = false := by
          unfold SecurityPolicy.matches
          simp [hactive]
        rw [if_neg hactive, ih]
        conv_rhs => unfold evaluateLoaded
        rw [hmatches]
        rfl

/-- When the cache has expired, the rows of the table decide. -/
theorem evaluatePolicies_expired {cache : PolicyCache} {now : Rat}
    (h : now - cache.loadedAt > 60) (rows : List SecurityPolicy) :
    (evaluatePolicies ip request cache now rows).1 = evaluateLoaded ip request rows := by
  unfold evaluatePolicies loadPolicies
  rw [if_pos h]
  exact evaluateLoaded_active ip request rows

/-- The policy denies the request. -/
def Denies (policy : SecurityPolicy) : Prop :=
  policy.matches request = true ∧ policy.effect = "deny"

/-- The policy allows the request. -/
def Grants (policy : SecurityPolicy) : Prop :=
  policy.matches request = true ∧ (policy.effect = "allow" ∨
    policy.effect = "conditional" ∧ evaluateCondition ip request policy.condition = .ok true)

/-- The condition of the policy cannot be evaluated. -/
def Fails (policy : SecurityPolicy) : Prop :=
  policy.matches request = true ∧ policy.effect = "conditional" ∧
    ∃ exc, evaluateCondition ip request policy.condition = .error exc

/-- What denials are for: if a policy denies the request, it is denied, and the order of the
    policies makes no difference to `True`, `False` or an exception. -/
structure DenyOverrides (policies : List SecurityPolicy) : Prop where
  denied : (∃ policy ∈ policies, Denies request policy) →
    ∀ reordered : List SecurityPolicy, reordered.Perm policies →
      ∃ reason, evaluateLoaded ip request reordered = .error (.policyViolation reason)
  order : ∀ reordered : List SecurityPolicy, reordered.Perm policies →
    (evaluateLoaded ip request reordered).toOption = (evaluateLoaded ip request policies).toOption

/-- The policies that decide a request are of one kind. -/
structure OneKind (policies : List SecurityPolicy) : Prop where
  denials : ∀ policy ∈ policies, Denies request policy →
    ∀ other ∈ policies, ¬ Grants ip request other ∧ ¬ Fails ip request other
  grants : ∀ policy ∈ policies, Grants ip request policy →
    ∀ other ∈ policies, ¬ Fails ip request other

variable {ip} {request}

theorem decision_of_denies {policy : SecurityPolicy} (h : Denies request policy) :
    policy.decision ip request = some (.error (denied request policy)) := by
  unfold SecurityPolicy.decision
  rw [h.1, h.2]
  rfl

theorem decision_of_grants {policy : SecurityPolicy} (h : Grants ip request policy) :
    policy.decision ip request = some (.ok true) := by
  unfold SecurityPolicy.decision
  obtain ⟨hmatches, hallow | ⟨hconditional, hholds⟩⟩ := h
  · rw [hmatches, hallow]
    rfl
  · rw [hmatches, hconditional, hholds]
    rfl

theorem decision_of_fails {policy : SecurityPolicy} (h : Fails ip request policy) :
    ∃ exc, evaluateCondition ip request policy.condition = .error exc ∧
      policy.decision ip request = some (.error exc) := by
  obtain ⟨hmatches, hconditional, exc, hraises⟩ := h
  refine ⟨exc, hraises, ?_⟩
  unfold SecurityPolicy.decision
  rw [hmatches, hconditional, hraises]
  rfl

/-- A policy that decides is of one of the three kinds. -/
theorem kind_of_decision {policy : SecurityPolicy} {result : Except Exn Bool}
    (h : policy.decision ip request = some result) :
    Denies request policy ∨ Grants ip request policy ∨ Fails ip request policy := by
  unfold SecurityPolicy.decision at h
  by_cases hmatches : policy.matches request = true
  · rw [hmatches] at h
    simp only [Bool.not_true, Bool.false_eq_true, if_false] at h
    by_cases hdeny : policy.effect = "deny"
    · exact .inl ⟨hmatches, hdeny⟩
    · rw [if_neg hdeny] at h
      by_cases hallow : policy.effect = "allow"
      · exact .inr (.inl ⟨hmatches, .inl hallow⟩)
      · rw [if_neg hallow] at h
        by_cases hconditional : policy.effect = "conditional"
        · rw [if_pos hconditional] at h
          cases hholds : evaluateCondition ip request policy.condition with
          | error exc => exact .inr (.inr ⟨hmatches, hconditional, exc, hholds⟩)
          | ok holds =>
              rw [hholds] at h
              cases holds with
              | true => exact .inr (.inl ⟨hmatches, .inr ⟨hconditional, hholds⟩⟩)
              | false => cases h
        · rw [if_neg hconditional] at h
          cases h
  · simp only [hmatches, Bool.not_false, if_true] at h
    cases h

/-! ## What a condition raises -/

/-- The exception is not a denial. -/
def NoDenial (exc : Exn) : Prop :=
  ∀ reason, exc ≠ .policyViolation reason

theorem mapError_noDenial {α : Type} {result : Except String α} {exc : Exn}
    (h : result.mapError Exn.valueError = .error exc) : NoDenial exc := by
  intro reason
  cases result with
  | ok a => cases h
  | error message =>
      rw [← Except.error.inj h]
      simp

theorem checkTime_error {currentHm : String} {condition : Dict Json} {exc : Exn}
    (h : checkTime currentHm condition = .error exc) : NoDenial exc := by
  have hbeyond : ∀ op compare bound, beyond op compare currentHm bound = .error exc →
      NoDenial exc := by
    intro op compare bound hraises reason
    unfold beyond at hraises
    split at hraises
    · split at hraises
      · cases hraises
      · rw [← Except.error.inj hraises]
        simp
    · cases hraises
  unfold checkTime at h
  rcases Proc.bind_error h with hfrom | ⟨early, -, h⟩
  · exact hbeyond _ _ _ hfrom
  · split at h
    · cases h
    · rcases Proc.bind_error h with huntil | ⟨late, -, h⟩
      · exact hbeyond _ _ _ huntil
      · split at h <;> cases h

theorem inAnyNetwork_error {address : ip.Address} {networks : List Json} {exc : Exn}
    (h : inAnyNetwork ip address networks = .error exc) : NoDenial exc := by
  induction networks with
  | nil => cases h
  | cons cidr rest ih =>
      unfold inAnyNetwork at h
      rcases Proc.bind_error h with hnetwork | ⟨network, -, h⟩
      · exact mapError_noDenial hnetwork
      · split at h
        · cases h
        · exact ih h

theorem checkIp_error {condition : Dict Json} {clientIp : Option String} {exc : Exn}
    (h : checkIp ip condition clientIp = .error exc) : NoDenial exc := by
  have hallowed : ∀ allowed address, addressAllowed ip allowed address = .error exc →
      NoDenial exc := by
    intro allowed address hraises
    unfold addressAllowed at hraises
    dsimp only at hraises
    split at hraises
    · cases hraises
    · rcases Proc.bind_error hraises with haddress | ⟨parsed, -, hraises⟩
      · exact mapError_noDenial haddress
      · rcases Proc.bind_error hraises with hiterate | ⟨networks, -, hraises⟩
        · intro reason
          unfold iterate at hiterate
          split at hiterate
          · cases hiterate
          · cases hiterate
          · cases hiterate
          · rw [← Except.error.inj hiterate]
            simp
        · exact inAnyNetwork_error hraises
  unfold checkIp at h
  dsimp only at h
  split at h
  · cases h
  · split at h
    · cases h
    · exact hallowed _ _ h

/-- Evaluating a condition denies nothing. -/
theorem evaluateCondition_error {condition : Json} {exc : Exn}
    (h : evaluateCondition ip request condition = .error exc) : NoDenial exc := by
  unfold evaluateCondition at h
  split at h
  · cases h
  · split at h
    · dsimp only at h
      split at h
      · cases h
      · split at h
        · cases h
        · rcases Proc.bind_error h with htime | ⟨inTime, -, h⟩
          · exact checkTime_error htime
          · split at h
            · cases h
            · rcases Proc.bind_error h with hip | ⟨inside, -, h⟩
              · exact checkIp_error hip
              · split at h <;> cases h
    · intro reason
      rw [← Except.error.inj h]
      simp

/-! ## Every order -/

/-- What the walk returns, or nothing if it raises. -/
theorem toOption_evaluateLoaded (policies : List SecurityPolicy) :
    (evaluateLoaded ip request policies).toOption =
      (policies.findSome? fun policy => (policy.decision ip request).map Except.toOption).getD
        (some false) := by
  have hmap : (policies.findSome? (·.decision ip request)).map Except.toOption = _ :=
    List.map_findSome?
  rw [evaluateLoaded_eq]
  show _ = (policies.findSome? (Option.map Except.toOption ∘ (·.decision ip request))).getD _
  rw [← hmap]
  cases policies.findSome? (·.decision ip request) <;> rfl

/-- What a policy that decides makes of the request. -/
theorem outcome_of_decision {policy : SecurityPolicy} {outcome : Option Bool}
    (h : (policy.decision ip request).map Except.toOption = some outcome) :
    (outcome = none ∧ (Denies request policy ∨ Fails ip request policy)) ∨
      (outcome = some true ∧ Grants ip request policy) := by
  obtain ⟨result, hdecision, rfl⟩ := Option.map_eq_some_iff.mp h
  rcases kind_of_decision hdecision with hdenies | hgrants | hfails
  · rw [decision_of_denies hdenies] at hdecision
    rw [← Option.some.inj hdecision]
    exact .inl ⟨rfl, .inl hdenies⟩
  · rw [decision_of_grants hgrants] at hdecision
    rw [← Option.some.inj hdecision]
    exact .inr ⟨rfl, hgrants⟩
  · obtain ⟨exc, -, hraises⟩ := decision_of_fails hfails
    rw [hraises] at hdecision
    rw [← Option.some.inj hdecision]
    exact .inl ⟨rfl, .inr hfails⟩

theorem OneKind.not_both {policies : List SecurityPolicy} (h : OneKind ip request policies)
    {policy other : SecurityPolicy} (hpolicy : policy ∈ policies) (hother : other ∈ policies)
    (hraises : Denies request policy ∨ Fails ip request policy) : ¬ Grants ip request other := by
  intro hgrants
  rcases hraises with hdenies | hfails
  · exact (h.denials policy hpolicy hdenies other hother).1 hgrants
  · exact h.grants other hother hgrants policy hpolicy hfails

/-- A policy that decides can be asked first. -/
theorem exists_order {policies : List SecurityPolicy} {policy : SecurityPolicy}
    {result : Except Exn Bool} (hpolicy : policy ∈ policies)
    (hdecision : policy.decision ip request = some result) :
    ∃ reordered : List SecurityPolicy, reordered.Perm policies ∧
      evaluateLoaded ip request reordered = result := by
  obtain ⟨reordered, hperm, hfirst⟩ := FirstDecision.exists_perm_head hpolicy hdecision
  refine ⟨reordered, hperm, ?_⟩
  rw [evaluateLoaded_eq, hfirst, Option.getD_some]

/-- **Denials win in every order** exactly when the policies that decide are of one kind. -/
theorem denyOverrides_iff (ip : IpAddresses) (request : PolicyRequest)
    (policies : List SecurityPolicy) :
    DenyOverrides ip request policies ↔ OneKind ip request policies := by
  constructor
  · intro h
    refine ⟨fun policy hpolicy hdenies other hother => ?_, fun policy hpolicy hgrants other hother
      hfails => ?_⟩
    · have hdenied := h.denied ⟨policy, hpolicy, hdenies⟩
      refine ⟨fun hgrants => ?_, fun hfails => ?_⟩
      · obtain ⟨reordered, hperm, hresult⟩ := exists_order hother (decision_of_grants hgrants)
        obtain ⟨reason, hraises⟩ := hdenied reordered hperm
        rw [hresult] at hraises
        cases hraises
      · obtain ⟨exc, hcondition, hdecision⟩ := decision_of_fails hfails
        obtain ⟨reordered, hperm, hresult⟩ := exists_order hother hdecision
        obtain ⟨reason, hraises⟩ := hdenied reordered hperm
        rw [hresult] at hraises
        exact evaluateCondition_error hcondition reason (Except.error.inj hraises)
    · obtain ⟨exc, -, hdecision⟩ := decision_of_fails hfails
      obtain ⟨allowed, hperm, htrue⟩ := exists_order hpolicy (decision_of_grants hgrants)
      obtain ⟨raised, hperm', hraises⟩ := exists_order hother hdecision
      have hsame := (h.order allowed hperm).trans (h.order raised hperm').symm
      rw [htrue, hraises] at hsame
      cases hsame
  · intro h
    refine ⟨fun hdenier reordered hperm => ?_, ?_⟩
    · obtain ⟨policy, hpolicy, hdenies⟩ := hdenier
      cases hfirst : reordered.findSome? (·.decision ip request) with
      | none =>
          have hundecided := List.findSome?_eq_none_iff.mp hfirst policy (hperm.mem_iff.mpr hpolicy)
          rw [decision_of_denies hdenies] at hundecided
          cases hundecided
      | some result =>
          obtain ⟨first, hmem, hdecision⟩ := FirstDecision.findSome?_mem hfirst
          have hothers := h.denials policy hpolicy hdenies first (hperm.mem_iff.mp hmem)
          rw [evaluateLoaded_eq, hfirst, Option.getD_some]
          rcases kind_of_decision hdecision with hdenial | hgrants | hfails
          · rw [decision_of_denies hdenial] at hdecision
            rw [← Option.some.inj hdecision]
            exact ⟨_, rfl⟩
          · exact absurd hgrants hothers.1
          · exact absurd hfails hothers.2
    · intro reordered hperm
      rw [toOption_evaluateLoaded, toOption_evaluateLoaded]
      congr 1
      refine FirstDecision.perm_iff.mpr ?_ reordered hperm
      intro policy hpolicy other hother outcome outcome' hfirst hsecond
      rcases outcome_of_decision hfirst with ⟨rfl, hraises⟩ | ⟨rfl, hgrants⟩
      · rcases outcome_of_decision hsecond with ⟨rfl, -⟩ | ⟨-, hgrants⟩
        · rfl
        · exact absurd hgrants (h.not_both hpolicy hother hraises)
      · rcases outcome_of_decision hsecond with ⟨-, hraises⟩ | ⟨rfl, -⟩
        · exact absurd hgrants (h.not_both hother hpolicy hraises)
        · rfl

end Evaluate

/-! An allowance that stands before a denial. -/

def noAddresses : IpAddresses where
  Address := Unit
  Network := Unit
  address := fun _ => .error "not an address"
  network := fun _ => .error "not a network"
  contains := fun _ _ => false

def deleteRequest : PolicyRequest where
  role := .null
  organizationId := .int 1
  resource := "tool"
  action := "delete"
  clientIp := none
  currentHm := "12:00"

def toolPolicy (name effect : String) : SecurityPolicy where
  name := name
  resource := "tool"
  action := "delete"
  effect := effect

theorem not_denyOverrides_allow_first :
    ¬ ∀ (ip : IpAddresses) (request : PolicyRequest) (policies : List SecurityPolicy),
      DenyOverrides ip request policies := by
  intro hall
  have h := hall noAddresses deleteRequest [toolPolicy "team" "allow", toolPolicy "freeze" "deny"]
  obtain ⟨reason, hraises⟩ := h.denied
    ⟨toolPolicy "freeze" "deny", by simp, by decide, rfl⟩ _ (.refl _)
  have hallowed : evaluateLoaded noAddresses deleteRequest
      [toolPolicy "team" "allow", toolPolicy "freeze" "deny"] = .ok true := by decide
  rw [hallowed] at hraises
  cases hraises

end AgentCorp.Security
