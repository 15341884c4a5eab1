/-
  Failover: which providers are tried, in which order, and what comes of it.

  The order is a rearrangement of the configured providers, for any registrations before it.
  Along it a provider `Answers`, `Fails` (it cannot be instantiated, is skipped or raises an
  `Exception`) or `Interrupts` (it raises what `except Exception` does not catch).

  * `FailoverOrder`: what the order is.
  * `chat_failover`: the answer is that of the first provider that has one.
-/
import AgentCorp.Lib.InTurn
import AgentCorp.Providers.ProviderService
import AgentCorp.Python.WellKeyed

namespace AgentCorp.Providers

open AgentCorp.Python AgentCorp.Chat

variable {δ α : Type}

/-! ## The registry -/

/-- A call of the registry that changes it. A class is the outcome of instantiating it. -/
inductive Registration (δ : Type) where
  | register (name : String) (cls : Except Exn (BaseProvider δ))
  | unregister (name : String)

def Registration.apply (L : Lower) (registry : Dict (Except Exn (BaseProvider δ))) :
    Registration δ → Dict (Except Exn (BaseProvider δ))
  | .register name cls => registry.set (L.lower name) cls
  | .unregister name => registry.filter (fun entry => entry.1 ≠ L.lower name)

/-- The manager after some calls of the registry. -/
def ProviderManager.ofRegistrations (L : Lower) (settings : Settings)
    (registrations : List (Registration δ)) : ProviderManager δ where
  L := L
  settings := settings
  registry := registrations.foldl (Registration.apply L) []

/-- The registered names are distinct and in lower case. -/
structure RegistryInv (L : Lower) (registry : Dict (Except Exn (BaseProvider δ))) : Prop where
  nodup : (registry.map Prod.fst).Nodup
  lower : ∀ entry ∈ registry, ∃ name, entry.1 = L.lower name

theorem RegistryInv.apply {L : Lower} {registry : Dict (Except Exn (BaseProvider δ))}
    (h : RegistryInv L registry) (registration : Registration δ) :
    RegistryInv L (registration.apply L registry) := by
  cases registration with
  | register name cls =>
      refine ⟨nodup_set h.nodup _ _, fun entry hentry => ?_⟩
      rcases mem_set hentry with hold | rfl
      · exact h.lower entry hold
      · exact ⟨name, rfl⟩
  | unregister name =>
      constructor
      · exact h.nodup.sublist (List.filter_sublist.map Prod.fst)
      · intro entry hentry
        exact h.lower entry (List.mem_filter.mp hentry).1

theorem registryInv_foldl {L : Lower} (registrations : List (Registration δ))
    {registry : Dict (Except Exn (BaseProvider δ))} (h : RegistryInv L registry) :
    RegistryInv L (registrations.foldl (Registration.apply L) registry) := by
  induction registrations generalizing registry with
  | nil => exact h
  | cons registration rest ih => exact ih (h.apply registration)

theorem registryInv_ofRegistrations (L : Lower) (settings : Settings)
    (registrations : List (Registration δ)) :
    RegistryInv L (ProviderManager.ofRegistrations L settings registrations).registry :=
  registryInv_foldl registrations ⟨List.nodup_nil, by simp⟩

/-! ## The order -/

namespace ProviderManager

variable (manager : ProviderManager δ)

/-- The preferred provider, if it is configured. -/
def preferredFirst (preferred : String) : List String :=
  if preferred ≠ "" ∧ manager.L.lower preferred ∈ manager.getConfiguredProviders then
    [manager.L.lower preferred]
  else []

/-- The configured providers by priority, and then those without one by registration. -/
def byPriority : List String :=
  priorityOrder.filter (· ∈ manager.getConfiguredProviders) ++
    manager.getConfiguredProviders.filter (· ∉ priorityOrder)

/-- What a failover order is: all configured providers once, the preferred one first. -/
structure FailoverOrder (preferred : String) (order : List String) : Prop where
  nodup : order.Nodup
  perm : order.Perm manager.getConfiguredProviders
  eq : order = manager.preferredFirst preferred ++
    manager.byPriority.filter (· ∉ manager.preferredFirst preferred)

theorem appendConfigured_eq {configured names : List String} (hnames : names.Nodup)
    (order : List String) :
    appendConfigured configured order names =
      order ++ names.filter (fun name => name ∈ configured ∧ name ∉ order) := by
  unfold appendConfigured
  induction names generalizing order with
  | nil => simp
  | cons name names ih =>
      obtain ⟨hfresh, hrest⟩ := List.nodup_cons.mp hnames
      rw [List.foldl_cons, ih hrest, List.filter_cons]
      by_cases hname : name ∈ configured ∧ name ∉ order
      · have hsame : names.filter (fun other => other ∈ configured ∧ other ∉ order ++ [name]) =
            names.filter (fun other => other ∈ configured ∧ other ∉ order) := by
          refine List.filter_congr fun other hother => ?_
          have hne : other ≠ name := fun h => hfresh (h ▸ hother)
          simp [hne]
        rw [if_pos hname, if_pos (decide_eq_true hname), hsame, List.append_assoc]
        rfl
      · rw [if_neg hname, if_neg (by simpa using hname)]

theorem priorityOrder_nodup : priorityOrder.Nodup := by decide

theorem getFailoverOrder_eq (hconfigured : manager.getConfiguredProviders.Nodup)
    (preferred : String) :
    manager.getFailoverOrder preferred = manager.preferredFirst preferred ++
      manager.byPriority.filter (· ∉ manager.preferredFirst preferred) := by
  show appendConfigured manager.getConfiguredProviders (appendConfigured
    manager.getConfiguredProviders (manager.preferredFirst preferred) priorityOrder)
    manager.getConfiguredProviders = _
  rw [appendConfigured_eq hconfigured, appendConfigured_eq priorityOrder_nodup, byPriority,
    List.filter_append, List.filter_filter, List.filter_filter, List.append_assoc]
  congr 2
  · refine List.filter_congr fun name _ => ?_
    simp [Bool.and_comm]
  · refine List.filter_congr fun name hname => ?_
    simp only [List.mem_append, List.mem_filter, Bool.decide_and]
    by_cases hfirst : name ∈ manager.preferredFirst preferred
    · simp [hfirst]
    · by_cases hpriority : name ∈ priorityOrder <;> simp [hfirst, hpriority, hname]

theorem getFailoverOrder_nodup (hconfigured : manager.getConfiguredProviders.Nodup)
    (preferred : String) : (manager.getFailoverOrder preferred).Nodup := by
  rw [manager.getFailoverOrder_eq hconfigured]
  have hfirst : (manager.preferredFirst preferred).Nodup := by
    unfold preferredFirst
    split
    · exact List.nodup_singleton _
    · exact List.nodup_nil
  have hpriority : manager.byPriority.Nodup := by
    refine List.Nodup.append (priorityOrder_nodup.filter _) (hconfigured.filter _) ?_
    intro name hleft hright
    have hin : name ∈ priorityOrder := (List.mem_filter.mp hleft).1
    have hout := (List.mem_filter.mp hright).2
    simp [hin] at hout
  refine List.Nodup.append hfirst (hpriority.filter _) ?_
  intro name hleft hright
  have hout := (List.mem_filter.mp hright).2
  simp [hleft] at hout

/-- **The order.** -/
theorem failoverOrder_getFailoverOrder (hregistry : RegistryInv manager.L manager.registry)
    (preferred : String) :
    manager.FailoverOrder preferred (manager.getFailoverOrder preferred) := by
  have hconfigured : manager.getConfiguredProviders.Nodup := hregistry.nodup.filter _
  have hnodup := manager.getFailoverOrder_nodup hconfigured preferred
  refine ⟨hnodup, ?_, manager.getFailoverOrder_eq hconfigured preferred⟩
  exact (List.perm_ext_iff_of_nodup hnodup hconfigured).mpr fun name =>
    manager.mem_getFailoverOrder

end ProviderManager

/-! ## Attempts -/

namespace ProviderService

variable (service : ProviderService δ) (supports : BaseProvider δ → Bool)
  (method : ProviderMethod) (call : BaseProvider δ → Py δ α)

/-- The provider of a name can be instantiated and is not skipped. -/
def Usable (name : String) (provider : BaseProvider δ) : Prop :=
  service.manager.getProvider name = .ok provider ∧ supports provider = true

/-- The provider of a name answers. -/
def Answers (name : String) (w : ProviderWorld δ) (a : α) (w' : ProviderWorld δ) : Prop :=
  ∃ provider, service.Usable supports name provider ∧
    (invoke (service.manager.key name) method (call provider)).run w = .ok a w'

/-- It cannot be instantiated, is skipped, or raises an `Exception`. -/
def Fails (name : String) (w w' : ProviderWorld δ) : Prop :=
  ((∀ provider, ¬ service.Usable supports name provider) ∧ w' = w) ∨
    ∃ provider exc, service.Usable supports name provider ∧
      (invoke (service.manager.key name) method (call provider)).run w =
        .error (.exception exc) w'

/-- It raises what `except Exception` lets pass. -/
def Interrupts (name : String) (w : ProviderWorld δ) (raised : BaseExn) (w' : ProviderWorld δ) :
    Prop :=
  (∀ exc, raised ≠ .exception exc) ∧ ∃ provider, service.Usable supports name provider ∧
    (invoke (service.manager.key name) method (call provider)).run w = .error raised w'

theorem attempt_of_usable {name : String} {provider : BaseProvider δ}
    (h : service.Usable supports name provider) :
    service.attempt supports method call name =
      some <$> invoke (service.manager.key name) method (call provider) := by
  unfold attempt
  rw [h.1, Py.ofResult_ok_bind, if_pos h.2]

theorem attempt_of_not_usable {name : String}
    (h : ∀ provider, ¬ service.Usable supports name provider) (w : ProviderWorld δ) :
    (service.attempt supports method call name).run w = .ok none w ∨
      ∃ exc, (service.attempt supports method call name).run w = .error (.exception exc) w := by
  unfold attempt
  cases hget : service.manager.getProvider name with
  | error exc => exact .inr ⟨exc, rfl⟩
  | ok provider =>
      have hskip : ¬ supports provider = true := fun hsupports => h provider ⟨hget, hsupports⟩
      rw [Py.ofResult_ok_bind, if_neg hskip]
      exact .inl rfl

/-- Every attempt ends in one of the three ways. -/
theorem attempt_cases (name : String) (w : ProviderWorld δ) :
    (∃ a w', service.Answers supports method call name w a w') ∨
      (∃ w', service.Fails supports method call name w w') ∨
      ∃ raised w', service.Interrupts supports method call name w raised w' := by
  by_cases h : ∃ provider, service.Usable supports name provider
  · obtain ⟨provider, husable⟩ := h
    cases hrun : (invoke (service.manager.key name) method (call provider)).run w with
    | ok a w' => exact .inl ⟨a, w', provider, husable, hrun⟩
    | error raised w' =>
        cases raised with
        | exception exc => exact .inr (.inl ⟨w', .inr ⟨provider, exc, husable, hrun⟩⟩)
        | cancelledError =>
            exact .inr (.inr ⟨_, w', fun exc h => BaseExn.noConfusion h, provider, husable, hrun⟩)
        | generatorExit =>
            exact .inr (.inr ⟨_, w', fun exc h => BaseExn.noConfusion h, provider, husable, hrun⟩)
  · exact .inr (.inl ⟨w, .inl ⟨fun provider husable => h ⟨provider, husable⟩, rfl⟩⟩)

/-! ### What the loop does after an attempt -/

variable (failed : String)

theorem failover_of_answers {name : String} {w w' : ProviderWorld δ} {a : α}
    (h : service.Answers supports method call name w a w') (rest errors : List String) :
    (service.failover supports method call failed (name :: rest) errors).run w = .ok a w' := by
  obtain ⟨provider, husable, hrun⟩ := h
  unfold failover
  rw [service.attempt_of_usable supports method call husable]
  simp only [EStateM.run_bind, Proc.run_tryCatch, Proc.run_map, hrun, EStateM.run_pure]

theorem failover_of_interrupts {name : String} {w w' : ProviderWorld δ} {raised : BaseExn}
    (h : service.Interrupts supports method call name w raised w') (rest errors : List String) :
    (service.failover supports method call failed (name :: rest) errors).run w =
      .error raised w' := by
  obtain ⟨hraised, provider, husable, hrun⟩ := h
  unfold failover
  rw [service.attempt_of_usable supports method call husable]
  cases raised with
  | exception exc => exact absurd rfl (hraised exc)
  | cancelledError =>
      simp only [EStateM.run_bind, Proc.run_tryCatch, Proc.run_map, hrun, collectError,
        Proc.run_throw]
  | generatorExit =>
      simp only [EStateM.run_bind, Proc.run_tryCatch, Proc.run_map, hrun, collectError,
        Proc.run_throw]

/-- After a failure the loop goes on, with more errors or the same. -/
theorem failover_of_fails {name : String} {w w' : ProviderWorld δ}
    (h : service.Fails supports method call name w w') (rest errors : List String) :
    ∃ errors', (service.failover supports method call failed (name :: rest) errors).run w =
      (service.failover supports method call failed rest errors').run w' := by
  rcases h with ⟨hunusable, rfl⟩ | ⟨provider, exc, husable, hrun⟩
  · rcases service.attempt_of_not_usable supports method call hunusable w' with hskip | ⟨exc, hexc⟩
    · refine ⟨errors, ?_⟩
      conv_lhs => unfold failover
      simp only [EStateM.run_bind, Proc.run_tryCatch, Proc.run_map, hskip]
    · refine ⟨errors ++ [name ++ ": " ++ exc.text], ?_⟩
      conv_lhs => unfold failover
      simp only [EStateM.run_bind, Proc.run_tryCatch, Proc.run_map, hexc, collectError,
        EStateM.run_pure]
  · refine ⟨errors ++ [name ++ ": " ++ exc.text], ?_⟩
    conv_lhs => unfold failover
    rw [service.attempt_of_usable supports method call husable]
    simp only [EStateM.run_bind, Proc.run_tryCatch, Proc.run_map, hrun, collectError,
      EStateM.run_pure]

/-! ### The whole loop -/

/-- The providers before the answering or interrupting one fail in turn. -/
theorem failover_of_inTurn {before : List String} {w w₁ : ProviderWorld δ}
    (h : InTurn (service.Fails supports method call) before w w₁) (rest errors : List String) :
    ∃ errors', (service.failover supports method call failed (before ++ rest) errors).run w =
      (service.failover supports method call failed rest errors').run w₁ := by
  induction h generalizing errors with
  | nil w => exact ⟨errors, rfl⟩
  | @cons name before w w₁ w₂ head tail ih =>
      obtain ⟨errors₁, hhead⟩ :=
        service.failover_of_fails supports method call failed head (before ++ rest) errors
      obtain ⟨errors₂, htail⟩ := ih errors₁
      exact ⟨errors₂, hhead.trans htail⟩

/-- The first provider that does not fail, if there is one. -/
theorem failover_cases (order : List String) (w : ProviderWorld δ) :
    (∃ w', InTurn (service.Fails supports method call) order w w') ∨
      ∃ before name after w₁, order = before ++ name :: after ∧
        InTurn (service.Fails supports method call) before w w₁ ∧
        ((∃ a w', service.Answers supports method call name w₁ a w') ∨
          ∃ raised w', service.Interrupts supports method call name w₁ raised w') := by
  induction order generalizing w with
  | nil => exact .inl ⟨w, .nil w⟩
  | cons name rest ih =>
      rcases service.attempt_cases supports method call name w with ha | ⟨w₁, hfails⟩ | hi
      · exact .inr ⟨[], name, rest, w, rfl, .nil w, .inl ha⟩
      · rcases ih w₁ with ⟨w', hrest⟩ | ⟨before, other, after, w₂, heq, hbefore, hend⟩
        · exact .inl ⟨w', .cons hfails hrest⟩
        · exact .inr ⟨name :: before, other, after, w₂, by rw [heq]; rfl,
            .cons hfails hbefore, hend⟩
      · exact .inr ⟨[], name, rest, w, rfl, .nil w, .inr hi⟩

theorem failover_all_fail {order : List String} {w w' : ProviderWorld δ}
    (h : InTurn (service.Fails supports method call) order w w') (errors : List String) :
    ∃ exc, (service.failover supports method call failed order errors).run w =
      .error (.exception exc) w' := by
  obtain ⟨errors', hrun⟩ := service.failover_of_inTurn supports method call failed h [] errors
  rw [List.append_nil] at hrun
  exact ⟨_, hrun⟩

theorem failover_first_answers {before after : List String} {name : String}
    {w w₁ w' : ProviderWorld δ} {a : α}
    (hbefore : InTurn (service.Fails supports method call) before w w₁)
    (hname : service.Answers supports method call name w₁ a w') (errors : List String) :
    (service.failover supports method call failed (before ++ name :: after) errors).run w =
      .ok a w' := by
  obtain ⟨errors', hrun⟩ :=
    service.failover_of_inTurn supports method call failed hbefore (name :: after) errors
  rw [hrun]
  exact service.failover_of_answers supports method call failed hname after errors'

theorem failover_first_interrupts {before after : List String} {name : String}
    {w w₁ w' : ProviderWorld δ} {raised : BaseExn}
    (hbefore : InTurn (service.Fails supports method call) before w w₁)
    (hname : service.Interrupts supports method call name w₁ raised w') (errors : List String) :
    (service.failover supports method call failed (before ++ name :: after) errors).run w =
      .error raised w' := by
  obtain ⟨errors', hrun⟩ :=
    service.failover_of_inTurn supports method call failed hbefore (name :: after) errors
  rw [hrun]
  exact service.failover_of_interrupts supports method call failed hname after errors'

/-- **The answer** is that of the first provider that does not fail. -/
theorem failover_ok_iff {order errors : List String} {w w' : ProviderWorld δ} {a : α} :
    (service.failover supports method call failed order errors).run w = .ok a w' ↔
      ∃ before name after w₁, order = before ++ name :: after ∧
        InTurn (service.Fails supports method call) before w w₁ ∧
        service.Answers supports method call name w₁ a w' := by
  constructor
  · intro hrun
    rcases service.failover_cases supports method call order w with
      ⟨w'', hall⟩ | ⟨before, name, after, w₁, rfl, hbefore, ⟨b, w'', hname⟩ | ⟨raised, w'', hname⟩⟩
    · obtain ⟨exc, herror⟩ := service.failover_all_fail supports method call failed hall errors
      rw [herror] at hrun
      cases hrun
    · rw [service.failover_first_answers supports method call failed hbefore hname] at hrun
      obtain ⟨rfl, rfl⟩ := EStateM.Result.ok.inj hrun
      exact ⟨before, name, after, w₁, rfl, hbefore, hname⟩
    · rw [service.failover_first_interrupts supports method call failed hbefore hname] at hrun
      cases hrun
  · intro ⟨before, name, after, w₁, horder, hbefore, hname⟩
    rw [horder]
    exact service.failover_first_answers supports method call failed hbefore hname errors

/-- It raises an `Exception` exactly if all providers fail. -/
theorem failover_exception_iff {order errors : List String} {w w' : ProviderWorld δ} :
    (∃ exc, (service.failover supports method call failed order errors).run w =
      .error (.exception exc) w') ↔ InTurn (service.Fails supports method call) order w w' := by
  constructor
  · intro ⟨exc, hrun⟩
    rcases service.failover_cases supports method call order w with
      ⟨w'', hall⟩ | ⟨before, name, after, w₁, rfl, hbefore, ⟨b, w'', hname⟩ | ⟨raised, w'', hname⟩⟩
    · obtain ⟨exc', herror⟩ := service.failover_all_fail supports method call failed hall errors
      rw [herror] at hrun
      obtain ⟨-, rfl⟩ := EStateM.Result.error.inj hrun
      exact hall
    · rw [service.failover_first_answers supports method call failed hbefore hname] at hrun
      cases hrun
    · rw [service.failover_first_interrupts supports method call failed hbefore hname] at hrun
      obtain ⟨heq, -⟩ := EStateM.Result.error.inj hrun
      exact absurd heq (hname.1 exc)
  · intro hall
    exact service.failover_all_fail supports method call failed hall errors

/-- Anything else that it raises is an interruption. -/
theorem failover_interrupted {order errors : List String} {w w' : ProviderWorld δ}
    {raised : BaseExn} (hraised : ∀ exc, raised ≠ .exception exc)
    (hrun : (service.failover supports method call failed order errors).run w =
      .error raised w') :
    ∃ before name after w₁, order = before ++ name :: after ∧
      InTurn (service.Fails supports method call) before w w₁ ∧
      service.Interrupts supports method call name w₁ raised w' := by
  rcases service.failover_cases supports method call order w with
    ⟨w'', hall⟩ | ⟨before, name, after, w₁, rfl, hbefore, ⟨b, w'', hname⟩ | ⟨other, w'', hname⟩⟩
  · obtain ⟨exc, herror⟩ := service.failover_all_fail supports method call failed hall errors
    rw [herror] at hrun
    obtain ⟨heq, -⟩ := EStateM.Result.error.inj hrun
    exact absurd heq.symm (hraised exc)
  · rw [service.failover_first_answers supports method call failed hbefore hname] at hrun
    cases hrun
  · rw [service.failover_first_interrupts supports method call failed hbefore hname] at hrun
    obtain ⟨rfl, rfl⟩ := EStateM.Result.error.inj hrun
    exact ⟨before, name, after, w₁, rfl, hbefore, hname⟩

/-! ### Who is called -/

/-- A failing provider is called once or not at all. -/
theorem fails_invoked {name : String} {w w' : ProviderWorld δ}
    (h : service.Fails supports method call name w w') :
    w'.invoked = w.invoked ∨ w'.invoked = w.invoked ++ [⟨service.manager.key name, method⟩] := by
  rcases h with ⟨-, rfl⟩ | ⟨provider, exc, -, hrun⟩
  · exact .inl rfl
  · right
    rw [← invoke_invoked (service.manager.key name) method (call provider),
      Proc.after_of_error hrun]

theorem answers_invoked {name : String} {w w' : ProviderWorld δ} {a : α}
    (h : service.Answers supports method call name w a w') :
    w'.invoked = w.invoked ++ [⟨service.manager.key name, method⟩] := by
  obtain ⟨provider, -, hrun⟩ := h
  rw [← invoke_invoked (service.manager.key name) method (call provider), Proc.after_of_ok hrun]

theorem interrupts_invoked {name : String} {w w' : ProviderWorld δ} {raised : BaseExn}
    (h : service.Interrupts supports method call name w raised w') :
    w'.invoked = w.invoked ++ [⟨service.manager.key name, method⟩] := by
  obtain ⟨-, provider, -, hrun⟩ := h
  rw [← invoke_invoked (service.manager.key name) method (call provider),
    Proc.after_of_error hrun]

/-! ### Chats -/

/-- A provider of a request's tools, or of a request without any. -/
def Suits (request : ChatRequest) (provider : BaseProvider δ) : Bool :=
  request.tools = [] || provider.supportsTools

def ChatAnswers (request : ChatRequest) :
    String → ProviderWorld δ → ChatResponse → ProviderWorld δ → Prop :=
  service.Answers (Suits request) .chat (·.chat request)

def ChatFails (request : ChatRequest) : String → ProviderWorld δ → ProviderWorld δ → Prop :=
  service.Fails (Suits request) .chat (·.chat request)

def ChatInterrupts (request : ChatRequest) :
    String → ProviderWorld δ → BaseExn → ProviderWorld δ → Prop :=
  service.Interrupts (Suits request) .chat (·.chat request)

/-- Off MANUAL mode a chat is the loop over the failover order, up to what it raises where no
    provider is configured. -/
theorem run_chat (request : ChatRequest) (providerName : Option String) {mode : ProviderMode}
    (hmode : mode ≠ .manual) (w : ProviderWorld δ) :
    let order := service.manager.getFailoverOrder (service.resolved providerName)
    let loop := service.failover (Suits request) .chat (·.chat request)
      "All configured providers failed to execute chat request. Errors: " order []
    (service.chat request providerName mode).run w = loop.run w ∨
      order = [] ∧
        ∃ exc, (service.chat request providerName mode).run w = .error (.exception exc) w := by
  unfold chat execute
  simp only [if_neg hmode]
  cases horder : service.manager.getFailoverOrder (service.resolved providerName) with
  | nil => exact .inr ⟨rfl, _, rfl⟩
  | cons name rest => exact .inl rfl

theorem chat_ok_iff {request : ChatRequest} {providerName : Option String} {mode : ProviderMode}
    (hmode : mode ≠ .manual) {w w' : ProviderWorld δ} {response : ChatResponse} :
    (service.chat request providerName mode).run w = .ok response w' ↔
      ∃ before name after w₁,
        service.manager.getFailoverOrder (service.resolved providerName) =
          before ++ name :: after ∧
        InTurn (service.ChatFails request) before w w₁ ∧
        service.ChatAnswers request name w₁ response w' := by
  rcases service.run_chat request providerName hmode w with hloop | ⟨hnone, exc, hraise⟩
  · rw [hloop]
    exact service.failover_ok_iff (Suits request) .chat (·.chat request) _
  · rw [hraise, hnone]
    simp

theorem chat_exception_iff {request : ChatRequest} {providerName : Option String}
    {mode : ProviderMode} (hmode : mode ≠ .manual) {w w' : ProviderWorld δ} :
    (∃ exc, (service.chat request providerName mode).run w = .error (.exception exc) w') ↔
      InTurn (service.ChatFails request)
        (service.manager.getFailoverOrder (service.resolved providerName)) w w' := by
  rcases service.run_chat request providerName hmode w with hloop | ⟨hnone, exc, hraise⟩
  · rw [hloop]
    exact service.failover_exception_iff (Suits request) .chat (·.chat request) _
  · rw [hraise, hnone]
    constructor
    · intro ⟨exc', h⟩
      obtain ⟨-, rfl⟩ := EStateM.Result.error.inj h
      exact .nil w
    · intro h
      cases h
      exact ⟨exc, rfl⟩

theorem chat_interrupted {request : ChatRequest} {providerName : Option String}
    {mode : ProviderMode} (hmode : mode ≠ .manual) {w w' : ProviderWorld δ} {raised : BaseExn}
    (hraised : ∀ exc, raised ≠ .exception exc)
    (hrun : (service.chat request providerName mode).run w = .error raised w') :
    ∃ before name after w₁,
      service.manager.getFailoverOrder (service.resolved providerName) =
        before ++ name :: after ∧
      InTurn (service.ChatFails request) before w w₁ ∧
      service.ChatInterrupts request name w₁ raised w' := by
  rcases service.run_chat request providerName hmode w with hloop | ⟨-, exc, hraise⟩
  · rw [hloop] at hrun
    exact service.failover_interrupted (Suits request) .chat (·.chat request) _ hraised hrun
  · rw [hraise] at hrun
    obtain ⟨heq, -⟩ := EStateM.Result.error.inj hrun
    exact absurd heq.symm (hraised exc)

/-- What a run has called, if the key of every tried provider is its name. -/
theorem inTurn_called {request : ChatRequest} {names : List String}
    (hkey : ∀ name ∈ names, service.manager.key name = name) {w w' : ProviderWorld δ}
    (h : InTurn (service.ChatFails request) names w w') :
    ∃ called : List String, called.Sublist names ∧
      w'.invoked = w.invoked ++ called.map (⟨·, .chat⟩) := by
  obtain ⟨called, hsub, hlog⟩ := h.collect ProviderWorld.invoked
    (fun name => ⟨service.manager.key name, .chat⟩)
    fun name s t hfails => service.fails_invoked (Suits request) .chat (·.chat request) hfails
  refine ⟨called, hsub, ?_⟩
  rw [hlog]
  congr 1
  refine List.map_congr_left fun name hname => ?_
  rw [hkey name (hsub.subset hname)]

/-- The same where the run ends in one more call. -/
theorem inTurn_called_last {request : ChatRequest} {before after : List String} {name : String}
    (hkey : ∀ other ∈ before ++ name :: after, service.manager.key other = other)
    {w w₁ w' : ProviderWorld δ} (h : InTurn (service.ChatFails request) before w w₁)
    (hlast : w'.invoked = w₁.invoked ++ [⟨service.manager.key name, .chat⟩]) :
    ∃ earlier : List String, earlier.Sublist before ∧
      w'.invoked = w.invoked ++ (earlier ++ [name]).map (⟨·, .chat⟩) := by
  obtain ⟨earlier, hsub, hlog⟩ := service.inTurn_called
    (fun other hother => hkey other (List.mem_append_left _ hother)) h
  have hname : service.manager.key name = name := hkey name (by simp)
  refine ⟨earlier, hsub, ?_⟩
  rw [hlast, hlog, hname, List.map_append, List.append_assoc]
  rfl

/-- However a chat ends, it has called some providers of the order, each once. -/
theorem chat_called (request : ChatRequest) {providerName : Option String} {mode : ProviderMode}
    (hmode : mode ≠ .manual)
    (hkey : ∀ name ∈ service.manager.getFailoverOrder (service.resolved providerName),
      service.manager.key name = name) (w : ProviderWorld δ) :
    ∃ called : List String,
      called.Sublist (service.manager.getFailoverOrder (service.resolved providerName)) ∧
      (Proc.after (service.chat request providerName mode) w).invoked =
        w.invoked ++ called.map (⟨·, .chat⟩) := by
  -- the run stops at a provider that is called, or goes through the whole order
  have hstopped : ∀ {before after : List String} {name : String} {w₁ w' : ProviderWorld δ},
      service.manager.getFailoverOrder (service.resolved providerName) =
        before ++ name :: after → InTurn (service.ChatFails request) before w w₁ →
      w'.invoked = w₁.invoked ++ [⟨service.manager.key name, .chat⟩] →
      ∃ called : List String,
        called.Sublist (service.manager.getFailoverOrder (service.resolved providerName)) ∧
        w'.invoked = w.invoked ++ called.map (⟨·, .chat⟩) := by
    intro before after name w₁ w' horder hbefore hlast
    rw [horder] at hkey ⊢
    obtain ⟨earlier, hsub, hlog⟩ := service.inTurn_called_last hkey hbefore hlast
    have hname : [name].Sublist (name :: after) := (List.nil_sublist after).cons_cons name
    exact ⟨earlier ++ [name], hsub.append hname, hlog⟩
  cases hrun : (service.chat request providerName mode).run w with
  | ok response w' =>
      rw [Proc.after_of_ok hrun]
      obtain ⟨before, name, after, w₁, horder, hbefore, hname⟩ :=
        (service.chat_ok_iff hmode).mp hrun
      exact hstopped horder hbefore (service.answers_invoked (Suits request) .chat _ hname)
  | error raised w' =>
      rw [Proc.after_of_error hrun]
      by_cases hraised : ∃ exc, raised = .exception exc
      · obtain ⟨exc, rfl⟩ := hraised
        exact service.inTurn_called hkey ((service.chat_exception_iff hmode).mp ⟨exc, hrun⟩)
      · obtain ⟨before, name, after, w₁, horder, hbefore, hname⟩ := service.chat_interrupted hmode
          (fun exc h => hraised ⟨exc, h⟩) hrun
        exact hstopped horder hbefore
          (service.interrupts_invoked (Suits request) .chat _ hname)

end ProviderService

/-- With an idempotent `lower`, a tried provider is registered under its name. -/
theorem key_of_mem_getFailoverOrder {manager : ProviderManager δ}
    (hlower : ∀ text, manager.L.lower (manager.L.lower text) = manager.L.lower text)
    (hregistry : RegistryInv manager.L manager.registry) {preferred name : String}
    (hname : name ∈ manager.getFailoverOrder preferred) : manager.key name = name := by
  have hregistered : name ∈ manager.registry.map Prod.fst :=
    (List.mem_filter.mp (manager.mem_getFailoverOrder.mp hname)).1
  obtain ⟨entry, hentry, rfl⟩ := List.mem_map.mp hregistered
  obtain ⟨given, hgiven⟩ := hregistry.lower entry hentry
  unfold ProviderManager.key
  rw [hgiven, hlower, hlower]

/-- **Failover.** Whatever was registered and configured, whichever provider is preferred, and
    however the providers answer, fail or interrupt: the order holds each configured provider
    once; the response is that of the first one that does not fail; an `Exception` is raised
    exactly if all fail; and each provider is called at most once, none after the answer. -/
theorem chat_failover {L : Lower} (hlower : ∀ text, L.lower (L.lower text) = L.lower text)
    (settings : Settings) (registrations : List (Registration δ))
    (defaultProvider providerName : Option String) (request : ChatRequest) {mode : ProviderMode}
    (hmode : mode ≠ .manual) (w : ProviderWorld δ) :
    let manager := ProviderManager.ofRegistrations L settings registrations
    let service := ProviderService.init manager defaultProvider
    let order := manager.getFailoverOrder (service.resolved providerName)
    let chat := service.chat request providerName mode
    (∀ preferred, manager.FailoverOrder preferred (manager.getFailoverOrder preferred)) ∧
    (∀ response w', chat.run w = .ok response w' ↔
      ∃ before name after w₁, order = before ++ name :: after ∧
        InTurn (service.ChatFails request) before w w₁ ∧
        service.ChatAnswers request name w₁ response w') ∧
    (∀ w', (∃ exc, chat.run w = .error (.exception exc) w') ↔
      InTurn (service.ChatFails request) order w w') ∧
    (∀ raised w', (∀ exc, raised ≠ .exception exc) → chat.run w = .error raised w' →
      ∃ before name after w₁, order = before ++ name :: after ∧
        InTurn (service.ChatFails request) before w w₁ ∧
        service.ChatInterrupts request name w₁ raised w') ∧
    (∃ called : List String, called.Nodup ∧ called.Sublist order ∧
      (Proc.after chat w).invoked = w.invoked ++ called.map (⟨·, .chat⟩)) ∧
    (∀ before name after w₁ response w', order = before ++ name :: after →
      InTurn (service.ChatFails request) before w w₁ →
      service.ChatAnswers request name w₁ response w' →
      ∃ earlier : List String, earlier.Sublist before ∧
        w'.invoked = w.invoked ++ (earlier ++ [name]).map (⟨·, .chat⟩)) := by
  intro manager service order chat
  have hregistry : RegistryInv manager.L manager.registry :=
    registryInv_ofRegistrations L settings registrations
  have horder := manager.failoverOrder_getFailoverOrder hregistry
  have hkey : ∀ name ∈ order, manager.key name = name :=
    fun name hname => key_of_mem_getFailoverOrder hlower hregistry hname
  refine ⟨horder, fun response w' => service.chat_ok_iff hmode,
    fun w' => service.chat_exception_iff hmode, fun raised w' hraised hrun =>
    service.chat_interrupted hmode hraised hrun, ?_, ?_⟩
  · obtain ⟨called, hsub, hlog⟩ := service.chat_called request hmode hkey w
    exact ⟨called, (horder _).nodup.sublist hsub, hsub, hlog⟩
  · intro before name after w₁ response w' heq hbefore hname
    rw [heq] at hkey
    exact service.inTurn_called_last hkey hbefore
      (service.answers_invoked (ProviderService.Suits request) .chat _ hname)

section Example

/-- A provider whose chats all fail. -/
def limitedProvider : BaseProvider Unit :=
  { generatorProvider helloStream with
    chat := fun _ => Py.raise (.other "ProviderRateLimitError" "rate limit") }

/-- Two providers, of which the first fails. -/
def groqAndOpenai : List (Registration Unit) :=
  [.register "groq" (.ok limitedProvider), .register "openai" (.ok (generatorProvider helloStream))]

def twoKeys : Settings where
  groqApiKey := "key"
  openaiApiKey := "key"
  ollamaBaseUrl := ""

def helloResponse : ChatResponse where
  model := helloRequest.model
  message := { role := .assistant, content := "" }

end Example

theorem groqAndOpenai_failover :
    ((ProviderService.init (ProviderManager.ofRegistrations .asciiOnly twoKeys groqAndOpenai)
        none).chat helloRequest (some "Groq") .auto).run ⟨(), []⟩ =
      .ok helloResponse ⟨(), [⟨"groq", .chat⟩, ⟨"openai", .chat⟩]⟩ := by
  have hruns := chat_failover (L := .asciiOnly) asciiLower_asciiLower twoKeys groqAndOpenai none
    (some "Groq") helloRequest (show ProviderMode.auto ≠ .manual by decide) ⟨(), []⟩
  refine (hruns.2.1 _ _).mpr ⟨["groq"], "openai", [], ⟨(), [⟨"groq", .chat⟩]⟩, by decide, ?_, ?_⟩
  · exact .cons (.inr ⟨limitedProvider, _, ⟨by rfl, by rfl⟩, by rfl⟩) (.nil _)
  · exact ⟨generatorProvider helloStream, ⟨by rfl, by rfl⟩, by rfl⟩

end AgentCorp.Providers
