/-
  Governance over two runs: does a stricter input ever turn a blocked request into an allowed
  one?

  `Stricter loose strict` says that the second input differs from the first by restrictions
  only: smaller allow-lists, lower or added limits, fewer rights, an approval requirement. The
  decision is a conjunction of four conditions on the input (`govern_allowed_iff_conditions`).
  Three of them can only fail more often under restrictions. The approval condition has a
  disjunct that a restriction turns on: an organization that requires approval is approved "by
  policy", before the temperature is looked at.

  * `govern_allowed_iff_conditions`: the decision, as conditions on the input.
  * `Stricter.permits`, `Stricter.complies`: the monotone stages.
  * `Stricter.approves_of_not_flips`: the approval stage, away from the flip.
  * `govern_monotone_iff`: the exact condition for the whole decision.
-/
import AgentCorp.Runtime.Governance

namespace AgentCorp.Runtime

open AgentCorp.Python

/-- What `GovernanceEngine.govern` is given beside the payload. -/
structure GovernanceInput where
  config : PolicyConfig
  user : User
  organization : OrganizationContext
  deriving DecidableEq, Repr

def GovernanceInput.govern (input : GovernanceInput) (payload : Payload)
    (affectedRuntime : String) : GovernanceReport :=
  Runtime.govern input.config payload input.user input.organization affectedRuntime

/-! ## The decision as conditions on the input -/

/-- What a policy configuration asks of a payload. -/
structure Permits (config : PolicyConfig) (payload : Payload) : Prop where
  provider : restricted config.allowedProviders payload.provider = none
  tool : restricted config.allowedTools payload.toolChoice = none
  cost : exceeds config.costLimit payload.maxTokens = false
  execution : exceeds config.executionLimit payload.maxTokens = false

/-- A temperature above 1.5. -/
def HighRisk (payload : Payload) : Prop :=
  payload.temperature.any (3 / 2 < ·) = true

instance : DecidablePred HighRisk :=
  fun _ => inferInstanceAs (Decidable (_ = _))

/-- When a request that passed the policy is approved. -/
def Approves (user : User) (organization : OrganizationContext) (payload : Payload) : Prop :=
  user.isSuperuser ∨ organization.requiresApproval ∨ ¬ HighRisk payload

def Complies (user : User) (organization : OrganizationContext) : Prop :=
  user.isActive ∧ organization.isActive

/-- What the guard itself asks of a payload. -/
structure Unguarded (payload : Payload) : Prop where
  provider : payload.provider ∉ [some "forbidden", some "blocked"]
  tool : payload.toolChoice ∉ [some "forbidden", some "blocked"]
  runtimeVersion : payload.runtimeVersion ∈ [some "AgentCorp V1", some "AgentCorp V2"]

theorem evaluatePolicy_allowed_iff (config : PolicyConfig) (payload : Payload) :
    (evaluatePolicy config payload).allowed ↔ Permits config payload := by
  unfold evaluatePolicy
  constructor
  · intro h
    split at h
    · simp at h
    · simp at h
    · rename_i hprovider htool
      split at h
      · simp at h
      · rename_i hcost
        split at h
        · simp at h
        · rename_i hexecution
          exact ⟨hprovider, htool, by simpa using hcost, by simpa using hexecution⟩
  · intro h
    simp [h.provider, h.tool, h.cost, h.execution]

theorem decideApproval_approved_iff {policyResult : PolicyResult} (user : User)
    (organization : OrganizationContext) (payload : Payload) (h : policyResult.allowed) :
    (decideApproval policyResult user organization payload).approved ↔
      Approves user organization payload := by
  unfold decideApproval Approves HighRisk
  by_cases hsuper : user.isSuperuser
  · simp [h, hsuper]
  by_cases happroval : organization.requiresApproval
  · simp [h, hsuper, happroval]
  by_cases hrisk : payload.temperature.any (3 / 2 < ·)
  · simp [h, hsuper, happroval, hrisk]
  · simp [h, hsuper, happroval, hrisk]

theorem validateCompliance_compliant_iff (user : User) (organization : OrganizationContext)
    (payload : Payload) :
    (validateCompliance user organization payload).compliant ↔ Complies user organization := by
  unfold validateCompliance Complies
  by_cases huser : user.isActive
  · by_cases horganization : organization.isActive
    · by_cases hversion : payload.runtimeVersion = some "AgentCorp V1"
      · simp [huser, horganization, hversion]
      · simp [huser, horganization, hversion]
    · simp [huser, horganization]
  · simp [huser]

/-- **The decision, as conditions on the input.** -/
theorem govern_allowed_iff_conditions (input : GovernanceInput) (payload : Payload)
    (affectedRuntime : String) :
    (input.govern payload affectedRuntime).decision.allowed ↔
      Permits input.config payload ∧ Approves input.user input.organization payload ∧
        Complies input.user input.organization ∧ Unguarded payload := by
  have hguard := govern_allowed_iff input.config payload input.user input.organization
    affectedRuntime
  refine Iff.trans hguard ?_
  have hpolicy := evaluatePolicy_allowed_iff input.config payload
  have hcompliance := validateCompliance_compliant_iff input.user input.organization payload
  unfold guardBlocked
  simp only [List.append_eq_nil_iff, ite_eq_right_iff, reduceCtorEq, imp_false, not_not]
  constructor
  · intro h
    obtain ⟨⟨⟨⟨⟨hp, ha⟩, hc⟩, hprovider⟩, htool⟩, hversion⟩ := h
    have happroval := decideApproval_approved_iff input.user input.organization payload hp
    exact ⟨hpolicy.1 hp, happroval.1 ha, hcompliance.1 hc, hprovider, htool, hversion⟩
  · intro h
    obtain ⟨hp, ha, hc, hpayload⟩ := h
    have happroval := decideApproval_approved_iff input.user input.organization payload
      (hpolicy.2 hp)
    exact ⟨⟨⟨⟨⟨hpolicy.2 hp, happroval.2 ha⟩, hcompliance.2 hc⟩, hpayload.provider⟩,
      hpayload.tool⟩, hpayload.runtimeVersion⟩

/-! ## Restrictions -/

/-- The same allow-list, or a non-empty part of it. -/
def Narrowed (loose strict : List String) : Prop :=
  strict = loose ∨ strict ≠ [] ∧ loose ≠ [] ∧ strict ⊆ loose

/-- The same limit, a lower one, or one where there was none. -/
def Lowered (loose strict : Option Rat) : Prop :=
  ∀ limit, loose = some limit → ∃ limit', strict = some limit' ∧ limit' ≤ limit

structure Stricter (loose strict : GovernanceInput) : Prop where
  providers : Narrowed loose.config.allowedProviders strict.config.allowedProviders
  tools : Narrowed loose.config.allowedTools strict.config.allowedTools
  cost : Lowered loose.config.costLimit strict.config.costLimit
  execution : Lowered loose.config.executionLimit strict.config.executionLimit
  user : strict.user.id = loose.user.id
  superuser : strict.user.isSuperuser → loose.user.isSuperuser
  activeUser : strict.user.isActive → loose.user.isActive
  organization : strict.organization.id = loose.organization.id
  activeOrganization : strict.organization.isActive → loose.organization.isActive
  approval : loose.organization.requiresApproval → strict.organization.requiresApproval

theorem restricted_eq_none_iff (allowed : List String) (value : Option String) :
    restricted allowed value = none ↔ allowed = [] ∨ ∀ v, given value = some v → v ∈ allowed := by
  unfold restricted
  rw [Option.filter_eq_none_iff]
  by_cases hempty : allowed = []
  · simp [hempty]
  · simp [hempty]

theorem Narrowed.restricted_eq_none {loose strict : List String} (h : Narrowed loose strict)
    {value : Option String} (hnone : restricted strict value = none) :
    restricted loose value = none := by
  obtain rfl | ⟨hstrict, -, hsubset⟩ := h
  · exact hnone
  · have hmem := ((restricted_eq_none_iff strict value).1 hnone).resolve_left hstrict
    exact (restricted_eq_none_iff loose value).2 (.inr fun v hv => hsubset (hmem v hv))

theorem Lowered.exceeds_eq_false {loose strict : Option Rat} (h : Lowered loose strict)
    {maxTokens : Option Nat} (hfalse : exceeds strict maxTokens = false) :
    exceeds loose maxTokens = false := by
  match loose with
  | none => rfl
  | some limit =>
    obtain ⟨limit', rfl, hle⟩ := h limit rfl
    have hbelow : (maxTokens.getD 0 : Rat) ≤ limit' := by simpa [exceeds] using hfalse
    have habove : (maxTokens.getD 0 : Rat) ≤ limit := hbelow.trans hle
    simpa [exceeds] using habove

theorem Stricter.permits {loose strict : GovernanceInput} (h : Stricter loose strict)
    {payload : Payload} (hpermits : Permits strict.config payload) :
    Permits loose.config payload where
  provider := h.providers.restricted_eq_none hpermits.provider
  tool := h.tools.restricted_eq_none hpermits.tool
  cost := h.cost.exceeds_eq_false hpermits.cost
  execution := h.execution.exceeds_eq_false hpermits.execution

theorem Stricter.complies {loose strict : GovernanceInput} (h : Stricter loose strict)
    (hcomplies : Complies strict.user strict.organization) :
    Complies loose.user loose.organization :=
  ⟨h.activeUser hcomplies.1, h.activeOrganization hcomplies.2⟩

/-! ## The approval that a requirement grants -/

/-- A high-risk request of an ordinary user, for which approval becomes required. -/
structure ApprovalFlips (loose strict : GovernanceInput) (payload : Payload) : Prop where
  highRisk : HighRisk payload
  ordinary : loose.user.isSuperuser = false
  before : loose.organization.requiresApproval = false
  after : strict.organization.requiresApproval = true

/-- Nothing else stops the request under the stricter input. -/
structure OtherwisePasses (strict : GovernanceInput) (payload : Payload) : Prop where
  permits : Permits strict.config payload
  complies : Complies strict.user strict.organization
  unguarded : Unguarded payload

theorem Stricter.approves_of_not_flips {loose strict : GovernanceInput}
    (h : Stricter loose strict) {payload : Payload} (hflips : ¬ ApprovalFlips loose strict payload)
    (happroves : Approves strict.user strict.organization payload) :
    Approves loose.user loose.organization payload := by
  obtain hsuper | happroval | hrisk := happroves
  · exact .inl (h.superuser hsuper)
  · by_contra hnot
    obtain ⟨hordinary, hbefore, hrisk⟩ : loose.user.isSuperuser = false ∧
        loose.organization.requiresApproval = false ∧ HighRisk payload := by
      simpa [Approves] using hnot
    exact hflips ⟨hrisk, hordinary, hbefore, happroval⟩
  · exact .inr (.inr hrisk)

theorem ApprovalFlips.not_approves {loose strict : GovernanceInput} {payload : Payload}
    (h : ApprovalFlips loose strict payload) :
    ¬ Approves loose.user loose.organization payload := by
  have hrisk := h.highRisk
  simp [Approves, h.ordinary, h.before, hrisk]

/-- **Two runs on the same payload.** The stricter input allows nothing that the looser one
    blocks, unless it is only the new approval requirement that approves a high-risk request. -/
theorem govern_monotone_iff (loose strict : GovernanceInput) (payload : Payload)
    (affectedRuntime : String) (h : Stricter loose strict) :
    ((strict.govern payload affectedRuntime).decision.allowed →
        (loose.govern payload affectedRuntime).decision.allowed) ↔
      ¬ (ApprovalFlips loose strict payload ∧ OtherwisePasses strict payload) := by
  rw [govern_allowed_iff_conditions, govern_allowed_iff_conditions]
  constructor
  · intro hmonotone hboth
    obtain ⟨hflips, hpasses⟩ := hboth
    have hstrict : Approves strict.user strict.organization payload := .inr (.inl hflips.after)
    have hloose := hmonotone ⟨hpasses.permits, hstrict, hpasses.complies, hpasses.unguarded⟩
    exact hflips.not_approves hloose.2.1
  · intro hnot hstrict
    obtain ⟨hpermits, happroves, hcomplies, hunguarded⟩ := hstrict
    have hflips : ¬ ApprovalFlips loose strict payload :=
      fun hflips => hnot ⟨hflips, hpermits, hcomplies, hunguarded⟩
    exact ⟨h.permits hpermits, h.approves_of_not_flips hflips happroves, h.complies hcomplies,
      hunguarded⟩

/-! ## A hot request of an ordinary user -/

def hotRequest : Payload :=
  .create { message := "hello", temperature := some (9 / 5), runtimeVersion := "AgentCorp V2",
            agentId := 1 }

/-- An ordinary, active user in an active organization, under an empty configuration. -/
def ordinaryInput (requiresApproval : Bool) : GovernanceInput where
  config := {}
  user := { id := 7, isActive := true, isSuperuser := false }
  organization := { id := 1, requiresApproval := requiresApproval }

theorem stricter_ordinaryInput : Stricter (ordinaryInput false) (ordinaryInput true) where
  providers := .inl rfl
  tools := .inl rfl
  cost := fun _ h => by simp [ordinaryInput] at h
  execution := fun _ h => by simp [ordinaryInput] at h
  user := rfl
  superuser := id
  activeUser := id
  organization := rfl
  activeOrganization := id
  approval := fun _ => rfl

/-- The same input under a list of allowed providers. -/
def listedInput (allowedProviders : List String) : GovernanceInput :=
  { ordinaryInput false with config := { allowedProviders := allowedProviders } }

theorem stricter_listedInput {loose strict : List String} (h : Narrowed loose strict) :
    Stricter (listedInput loose) (listedInput strict) where
  providers := h
  tools := .inl rfl
  cost := fun _ hlimit => by simp [listedInput] at hlimit
  execution := fun _ hlimit => by simp [listedInput] at hlimit
  user := rfl
  superuser := id
  activeUser := id
  organization := rfl
  activeOrganization := id
  approval := id

/-- A request for a provider that both lists allow. -/
def groqRequest : Payload :=
  .create { message := "hello", provider := some "groq", runtimeVersion := "AgentCorp V2",
            agentId := 1 }

theorem govern_monotone_listed :
    Stricter (listedInput ["groq", "openai"]) (listedInput ["groq"]) ∧
      ((listedInput ["groq"]).govern groqRequest "v2").decision.allowed ∧
      ((listedInput ["groq", "openai"]).govern groqRequest "v2").decision.allowed := by
  have h : Stricter (listedInput ["groq", "openai"]) (listedInput ["groq"]) :=
    stricter_listedInput (.inr (by decide))
  have hstrict : ((listedInput ["groq"]).govern groqRequest "v2").decision.allowed := by
    decide +kernel
  refine ⟨h, hstrict, (govern_monotone_iff _ _ groqRequest "v2" h).2 ?_ hstrict⟩
  intro hboth
  have hafter : (ordinaryInput false).organization.requiresApproval = true := hboth.1.after
  simp [ordinaryInput] at hafter

/-- Turning the requirement on turns the decision from blocked to allowed. -/
theorem not_govern_monotone :
    ¬ ∀ (loose strict : GovernanceInput) (payload : Payload) (affectedRuntime : String),
      Stricter loose strict →
      (strict.govern payload affectedRuntime).decision.allowed →
        (loose.govern payload affectedRuntime).decision.allowed := by
  intro h
  have hallowed : ((ordinaryInput true).govern hotRequest "v2").decision.allowed := by
    decide +kernel
  have hblocked : ((ordinaryInput false).govern hotRequest "v2").decision.allowed = false := by
    decide +kernel
  have hloose := h (ordinaryInput false) (ordinaryInput true) hotRequest "v2"
    stricter_ordinaryInput hallowed
  rw [hblocked] at hloose
  simp at hloose

end AgentCorp.Runtime
