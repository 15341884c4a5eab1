/-
  Governance: the policy, approval, compliance and guard checks, and the decision.

  * `govern_allowed_iff`: the decision allows a request exactly when the guard, which repeats
    the other three checks, blocks nothing.
-/
import AgentCorp.Runtime.Payload

namespace AgentCorp.Runtime

open AgentCorp.Python

inductive ApprovalState where
  | auto | manual | conditional | organization
  deriving DecidableEq, Repr

structure PolicyResult where
  allowed : Bool
  reason : String
  policyName : String
  policyType : String
  deriving DecidableEq, Repr

structure ApprovalResult where
  state : ApprovalState
  approved : Bool
  reason : String
  approver : String
  deriving DecidableEq, Repr

structure ComplianceResult where
  compliant : Bool
  reason : String
  checks : List String
  deriving DecidableEq, Repr

structure ExecutionGuardResult where
  allowed : Bool
  reason : String
  blocked : List String
  deriving DecidableEq, Repr

structure GovernanceDecision where
  allowed : Bool
  reason : String
  deriving DecidableEq, Repr

/-- A stage of the governance trace. -/
structure GovernanceStage where
  stageName : String
  status : String
  summary : String
  deriving DecidableEq, Repr

structure GovernanceReport where
  policyResult : PolicyResult
  approvalResult : ApprovalResult
  complianceResult : ComplianceResult
  executionGuardResult : ExecutionGuardResult
  decision : GovernanceDecision
  trace : List GovernanceStage
  affectedRuntime : String
  deriving DecidableEq, Repr

/-- The organization context that `enforce_governance` makes. -/
structure OrganizationContext where
  id : Int
  isActive : Bool := true
  requiresApproval : Bool := false
  deriving DecidableEq, Repr

/-- The entries of the policy configuration that `PolicyEngine.evaluate` reads. -/
structure PolicyConfig where
  allowedProviders : List String := []
  allowedTools : List String := []
  costLimit : Option Rat := none
  executionLimit : Option Rat := none
  deriving DecidableEq, Repr

/-- A value that is set, and not the empty text. -/
def given (value : Option String) : Option String :=
  value.filter (· ≠ "")

/-- A non-empty allow-list that a given value is not in. -/
def restricted (allowed : List String) (value : Option String) : Option String :=
  (given value).filter fun v => allowed ≠ [] ∧ v ∉ allowed

/-- `float(max_tokens or 0) > limit`, where there is a limit. -/
def exceeds (limit : Option Rat) (maxTokens : Option Nat) : Bool :=
  match limit with
  | some l => decide (l < (maxTokens.getD 0 : Rat))
  | none => false

/-- `PolicyEngine.evaluate`. -/
def evaluatePolicy (config : PolicyConfig) (payload : Payload) : PolicyResult :=
  match restricted config.allowedProviders payload.provider,
      restricted config.allowedTools payload.toolChoice with
  | some provider, _ =>
      ⟨false, "Provider '" ++ provider ++ "' is restricted.", "provider_restriction", "provider"⟩
  | none, some tool =>
      ⟨false, "Tool '" ++ tool ++ "' is restricted.", "tool_restriction", "tool"⟩
  | none, none =>
      if exceeds config.costLimit payload.maxTokens then
        ⟨false, "Requested execution exceeds configured cost limit.", "cost_limit", "cost"⟩
      else if exceeds config.executionLimit payload.maxTokens then
        ⟨false, "Requested execution exceeds configured execution limit.", "execution_limit",
          "execution"⟩
      else ⟨true, "Policy evaluation passed.", "default_allow", "default"⟩

/-- `ApprovalEngine.decide`. -/
def decideApproval (policyResult : PolicyResult) (user : User)
    (organization : OrganizationContext) (payload : Payload) : ApprovalResult :=
  if ¬ policyResult.allowed then ⟨.manual, false, policyResult.reason, "governance"⟩
  else if user.isSuperuser then ⟨.auto, true, "Superuser auto-approved.", "system"⟩
  else if organization.requiresApproval then
    ⟨.organization, true, "Organization approval granted by policy.", "organization"⟩
  else if payload.temperature.any (3 / 2 < ·) then
    ⟨.conditional, false, "High-risk request requires manual approval.", "governance"⟩
  else ⟨.auto, true, "Approved automatically.", "system"⟩

/-- `ComplianceEngine.validate`. -/
def validateCompliance (user : User) (organization : OrganizationContext) (payload : Payload) :
    ComplianceResult :=
  if ¬ user.isActive then ⟨false, "Inactive users cannot execute runtime requests.", []⟩
  else if ¬ organization.isActive then
    ⟨false, "Organization is inactive.", ["active_user", "organization_context"]⟩
  else if payload.runtimeVersion = some "AgentCorp V1" then
    ⟨true, "V1 requests are allowed and bypass V2 governance.",
      ["active_user", "organization_context", "active_organization"]⟩
  else ⟨true, "Compliance validation passed.",
    ["active_user", "organization_context", "active_organization", "runtime_version"]⟩

/-- `ExecutionGuard.validate`: the names of what blocks the request. -/
def guardBlocked (policyResult : PolicyResult) (approvalResult : ApprovalResult)
    (complianceResult : ComplianceResult) (payload : Payload) : List String :=
  (if ¬ policyResult.allowed then ["policy"] else []) ++
  (if ¬ approvalResult.approved then ["approval"] else []) ++
  (if ¬ complianceResult.compliant then ["compliance"] else []) ++
  (if payload.provider ∈ [some "forbidden", some "blocked"] then ["provider"] else []) ++
  (if payload.toolChoice ∈ [some "forbidden", some "blocked"] then ["tool"] else []) ++
  (if payload.runtimeVersion ∉ [some "AgentCorp V1", some "AgentCorp V2"] then
    ["runtime_version"] else [])

def validateGuard (policyResult : PolicyResult) (approvalResult : ApprovalResult)
    (complianceResult : ComplianceResult) (payload : Payload) : ExecutionGuardResult :=
  let blocked := guardBlocked policyResult approvalResult complianceResult payload
  { allowed := blocked = []
    reason :=
      if blocked = [] then "Execution guard passed." else "Execution blocked by governance guard."
    blocked := blocked }

/-- `GovernanceEngine.govern`. -/
def govern (config : PolicyConfig) (payload : Payload) (user : User)
    (organization : OrganizationContext) (affectedRuntime : String) : GovernanceReport :=
  let policyResult := evaluatePolicy config payload
  let approvalResult := decideApproval policyResult user organization payload
  let complianceResult := validateCompliance user organization payload
  let guardResult := validateGuard policyResult approvalResult complianceResult payload
  let allowed := policyResult.allowed && approvalResult.approved && complianceResult.compliant &&
    guardResult.allowed
  let reason :=
    if allowed then "Governance approved execution." else "Governance blocked execution."
  { policyResult := policyResult
    approvalResult := approvalResult
    complianceResult := complianceResult
    executionGuardResult := guardResult
    decision := ⟨allowed, reason⟩
    trace :=
      [⟨"Governance Started", "COMPLETED", "Governance analysis started."⟩,
        ⟨"Policy Validation", "COMPLETED", policyResult.reason⟩,
        ⟨"Approval Validation", "COMPLETED", approvalResult.reason⟩,
        ⟨"Compliance Validation", "COMPLETED", complianceResult.reason⟩,
        ⟨"Execution Guard", "COMPLETED", guardResult.reason⟩,
        ⟨"Governance Completed", "COMPLETED", reason⟩]
    affectedRuntime := affectedRuntime }

theorem govern_allowed_iff (config : PolicyConfig) (payload : Payload) (user : User)
    (organization : OrganizationContext) (affectedRuntime : String) :
    let report := govern config payload user organization affectedRuntime
    report.decision.allowed ↔ guardBlocked report.policyResult report.approvalResult
      report.complianceResult payload = [] := by
  intro report
  have hallowed : report.decision.allowed = (report.policyResult.allowed &&
      report.approvalResult.approved && report.complianceResult.compliant &&
      report.executionGuardResult.allowed) := rfl
  have hguard : report.executionGuardResult.allowed = decide (guardBlocked report.policyResult
      report.approvalResult report.complianceResult payload = []) := rfl
  rw [hallowed, hguard]
  constructor
  · intro h
    simp only [Bool.and_eq_true, decide_eq_true_eq] at h
    exact h.2
  · intro h
    rw [h]
    -- An empty list means that none of the first three checks failed.
    unfold guardBlocked at h
    simp only [List.append_eq_nil_iff] at h
    obtain ⟨⟨⟨⟨⟨hpolicy, happroval⟩, hcompliance⟩, -⟩, -⟩, -⟩ := h
    simp_all

end AgentCorp.Runtime
