/-
  Procedures: programs that read and change a state and may raise.

  A procedure is core's `EStateM`; what it raises leaves the state as it was at that point.
  `after p s` is the state a procedure leaves, however it ends, and `Within R p` says that
  this state is related to the first one by `R`.

  * `run_tryCatch`, `run_tryFinally`: what a handler sees, and when a finalizer runs.
  * `Returns.pure`, `.throw`, `.bind`, `.after`: the rules for what a procedure returns.
  * `Raises.bind`, `.adaptExcept`: those for what it raises.
  * `succeeds_bind`: when a sequence returns.
  * `Within.pure`, `.throw`, `.modify`, `.bind`: those for the state it leaves, with `R`
    reflexive and transitive. With `R s t := I s → I t` they are the rules of an invariant.
  * `Commutes.bind`, `.tryCatch`: those for two runs, where the second starts in a state with a
    part changed that the procedure does not look at.
-/
import Mathlib.Data.List.Forall2
import Mathlib.Order.Defs.Unbundled

abbrev Proc (σ ε α : Type) := EStateM ε σ α

namespace Proc

variable {σ ε α β : Type}

/-- The state that `p` leaves, whether it returns or raises. -/
def after (p : Proc σ ε α) (s : σ) : σ :=
  match p.run s with
  | .ok _ t => t
  | .error _ t => t

/-- What `p` returns or raises. -/
def outcome (p : Proc σ ε α) (s : σ) : Except ε α :=
  match p.run s with
  | .ok a _ => .ok a
  | .error e _ => .error e

/-- Turn a computed result into a procedure. -/
def ofExcept (r : Except ε α) : Proc σ ε α :=
  match r with
  | .ok a => pure a
  | .error e => throw e

/-! ## Computed results -/

theorem bind_error {r : Except ε α} {f : α → Except ε β} {e : ε} (h : (r >>= f) = .error e) :
    r = .error e ∨ ∃ a, r = .ok a ∧ f a = .error e := by
  cases r with
  | error e' =>
      obtain rfl := Except.error.inj h
      exact .inl rfl
  | ok a => exact .inr ⟨a, rfl, h⟩

theorem bind_ok {r : Except ε α} {f : α → Except ε β} {b : β} (h : (r >>= f) = .ok b) :
    ∃ a, r = .ok a ∧ f a = .ok b := by
  cases r with
  | error e => cases h
  | ok a => exact ⟨a, rfl, h⟩

theorem mapM_error {f : α → Except ε β} {e : ε} {l : List α} (h : l.mapM f = .error e) :
    ∃ a ∈ l, f a = .error e := by
  induction l with
  | nil => cases h
  | cons a l ih =>
      rw [List.mapM_cons] at h
      rcases bind_error h with ha | ⟨b, -, h⟩
      · exact ⟨a, List.mem_cons_self, ha⟩
      · rcases bind_error h with hl | ⟨bs, -, h⟩
        · obtain ⟨a', hmem, ha'⟩ := ih hl
          exact ⟨a', List.mem_cons_of_mem _ hmem, ha'⟩
        · cases h

theorem mapM_cons_ok_iff {f : α → Except ε β} {a : α} {l : List α} {bs : List β} :
    (a :: l).mapM f = .ok bs ↔ ∃ b bs', f a = .ok b ∧ l.mapM f = .ok bs' ∧ bs = b :: bs' := by
  rw [List.mapM_cons]
  constructor
  · intro h
    obtain ⟨b, ha, h⟩ := bind_ok h
    obtain ⟨bs', hl, h⟩ := bind_ok h
    exact ⟨b, bs', ha, hl, (Except.ok.inj h).symm⟩
  · intro ⟨b, bs', ha, hl, h⟩
    rw [ha, h, hl]
    rfl

/-- What a pass makes of each element. -/
theorem mapM_ok_iff_forall₂ {f : α → Except ε β} {l : List α} {bs : List β} :
    l.mapM f = .ok bs ↔ List.Forall₂ (fun a b => f a = .ok b) l bs := by
  induction l generalizing bs with
  | nil =>
      rw [List.forall₂_nil_left_iff]
      exact ⟨fun h => (Except.ok.inj h).symm, fun h => h ▸ rfl⟩
  | cons a l ih =>
      rw [mapM_cons_ok_iff, List.forall₂_cons_left_iff]
      simp only [ih]

theorem mapM_ok {f : α → Except ε β} {l : List α} {bs : List β} (h : l.mapM f = .ok bs) :
    ∀ a ∈ l, ∃ b, f a = .ok b := by
  have hall := mapM_ok_iff_forall₂.mp h
  clear h
  induction hall with
  | nil => exact fun a ha => absurd ha List.not_mem_nil
  | @cons a b l bs hab _ ih => exact List.forall_mem_cons.mpr ⟨⟨b, hab⟩, ih⟩

/-- What a pass keeps of each element, it keeps of the list. -/
theorem mapM_map_eq {γ : Type} {f : α → Except ε β} {g : β → γ} {g' : α → γ}
    (hf : ∀ a b, f a = .ok b → g b = g' a) {l : List α} {bs : List β} (h : l.mapM f = .ok bs) :
    bs.map g = l.map g' := by
  have hall := mapM_ok_iff_forall₂.mp h
  clear h
  induction hall with
  | nil => rfl
  | @cons a b l bs hab _ ih => rw [List.map_cons, List.map_cons, hf a b hab, ih]

/-- A pass that returns what `g` makes of each element. -/
theorem mapM_eq_map_iff {f : α → Except ε β} {g : α → β} {l : List α} :
    l.mapM f = .ok (l.map g) ↔ ∀ a ∈ l, f a = .ok (g a) := by
  rw [mapM_ok_iff_forall₂, List.forall₂_map_right_iff, List.forall₂_same]

/-- A pass over a list fails exactly if it fails on some element. -/
theorem mapM_error_iff {f : α → Except ε β} {l : List α} :
    (∃ e, l.mapM f = .error e) ↔ ∃ a ∈ l, ∃ e, f a = .error e := by
  constructor
  · rintro ⟨e, h⟩
    obtain ⟨a, ha, he⟩ := mapM_error h
    exact ⟨a, ha, e, he⟩
  · rintro ⟨a, ha, e, he⟩
    cases hl : l.mapM f with
    | error e' => exact ⟨e', rfl⟩
    | ok bs =>
        obtain ⟨b, hb⟩ := mapM_ok hl a ha
        rw [he] at hb
        cases hb

/-- A pass over a list succeeds if it succeeds on every element. -/
theorem mapM_ok_iff {f : α → Except ε β} {l : List α} :
    (∃ bs, l.mapM f = .ok bs) ↔ ∀ a ∈ l, ∃ b, f a = .ok b := by
  constructor
  · rintro ⟨bs, h⟩
    exact mapM_ok h
  · intro h
    cases hl : l.mapM f with
    | ok bs => exact ⟨bs, rfl⟩
    | error e =>
        obtain ⟨a, ha, he⟩ := mapM_error hl
        obtain ⟨b, hb⟩ := h a ha
        rw [he] at hb
        cases hb

/-! ## Unfolding one construct -/

@[simp] theorem run_tryCatch (p : Proc σ ε α) (handler : ε → Proc σ ε α) (s : σ) :
    (tryCatch p handler).run s =
      match p.run s with
      | .ok a t => .ok a t
      | .error e t => (handler e).run t := by
  show EStateM.tryCatch p handler s = _
  unfold EStateM.tryCatch EStateM.run
  cases p s <;> rfl

@[simp] theorem run_tryFinally (p : Proc σ ε α) (last : Proc σ ε PUnit) (s : σ) :
    (tryFinally p last).run s =
      match p.run s with
      | .ok a t => (last >>= fun _ => pure a).run t
      | .error e t => (last >>= fun _ => throw e).run t := by
  show EStateM.map Prod.fst _ s = _
  unfold EStateM.map EStateM.run tryFinally' EStateM.instMonadFinally
  dsimp only
  cases p s with
  | ok a t =>
      show _ = EStateM.bind last _ t
      unfold EStateM.bind
      dsimp only
      cases last t <;> rfl
  | error e t =>
      show _ = EStateM.bind last _ t
      unfold EStateM.bind
      dsimp only
      cases last t <;> rfl

@[simp] theorem run_map (f : α → β) (p : Proc σ ε α) (s : σ) :
    (f <$> p).run s =
      match p.run s with
      | .ok a t => .ok (f a) t
      | .error e t => .error e t := by
  rw [← bind_pure_comp, EStateM.run_bind]
  cases p.run s <;> rfl

@[simp] theorem run_throw (e : ε) (s : σ) :
    (throw e : Proc σ ε α).run s = .error e s := rfl

/-- Sequencing, when it is known how the first part ends. -/
theorem run_bind_of_ok {p : Proc σ ε α} {f : α → Proc σ ε β} {s t : σ} {a : α}
    (h : p.run s = .ok a t) : (p >>= f).run s = (f a).run t := by
  rw [EStateM.run_bind, h]

theorem run_bind_of_error {p : Proc σ ε α} {f : α → Proc σ ε β} {s t : σ} {e : ε}
    (h : p.run s = .error e t) : (p >>= f).run s = .error e t := by
  rw [EStateM.run_bind, h]

theorem run_bind_ok_iff {p : Proc σ ε α} {f : α → Proc σ ε β} {s t : σ} {b : β} :
    (p >>= f).run s = .ok b t ↔ ∃ a u, p.run s = .ok a u ∧ (f a).run u = .ok b t := by
  cases h : p.run s with
  | ok a u =>
      rw [run_bind_of_ok h]
      constructor
      · exact fun hf => ⟨a, u, rfl, hf⟩
      · intro ⟨a', u', hrun, hf⟩
        obtain ⟨rfl, rfl⟩ := EStateM.Result.ok.inj hrun
        exact hf
  | error e u =>
      rw [run_bind_of_error h]
      exact iff_of_false nofun fun ⟨_, _, hrun, _⟩ => nomatch hrun

theorem after_of_ok {p : Proc σ ε α} {s t : σ} {a : α} (h : p.run s = .ok a t) :
    after p s = t := by
  unfold after
  rw [h]

theorem after_of_error {p : Proc σ ε α} {s t : σ} {e : ε} (h : p.run s = .error e t) :
    after p s = t := by
  unfold after
  rw [h]

theorem outcome_of_ok {p : Proc σ ε α} {s t : σ} {a : α} (h : p.run s = .ok a t) :
    outcome p s = .ok a := by
  unfold outcome
  rw [h]

theorem outcome_of_error {p : Proc σ ε α} {s t : σ} {e : ε} (h : p.run s = .error e t) :
    outcome p s = .error e := by
  unfold outcome
  rw [h]

theorem run_of_outcome {p : Proc σ ε α} {s : σ} {a : α} (h : outcome p s = .ok a) :
    p.run s = .ok a (after p s) := by
  unfold outcome at h
  unfold after
  cases hrun : p.run s with
  | ok b t =>
      rw [hrun] at h
      rw [Except.ok.inj h]
  | error e t =>
      rw [hrun] at h
      cases h

theorem run_of_outcome_error {p : Proc σ ε α} {s : σ} {e : ε} (h : outcome p s = .error e) :
    p.run s = .error e (after p s) := by
  unfold outcome at h
  unfold after
  cases hrun : p.run s with
  | ok a t =>
      rw [hrun] at h
      cases h
  | error e' t =>
      rw [hrun] at h
      rw [Except.error.inj h]

/-- What `p` raises. -/
def raised (p : Proc σ ε α) (s : σ) : Option ε :=
  match p.run s with
  | .ok _ _ => none
  | .error e _ => some e

theorem raised_eq_some {p : Proc σ ε α} {s : σ} {e : ε} :
    raised p s = some e ↔ ∃ t, p.run s = .error e t := by
  unfold raised
  cases p.run s <;> simp

/-- Equal runs leave equal states and have equal outcomes. -/
theorem after_congr {p q : Proc σ ε α} {s t : σ} (h : p.run s = q.run t) :
    after p s = after q t := by
  unfold after
  rw [h]

theorem outcome_congr {p q : Proc σ ε α} {s t : σ} (h : p.run s = q.run t) :
    outcome p s = outcome q t := by
  unfold outcome
  rw [h]

/-- Sequencing: the second part runs at the state the first one left, if that returned. -/
theorem after_bind (p : Proc σ ε α) (f : α → Proc σ ε β) (s : σ) :
    after (p >>= f) s =
      match p.run s with
      | .ok a t => after (f a) t
      | .error _ t => t := by
  unfold after
  rw [EStateM.run_bind]
  cases p.run s <;> rfl

@[simp] theorem ofExcept_ok_bind (a : α) (f : α → Proc σ ε β) :
    (ofExcept (.ok a) >>= f) = f a := rfl

@[simp] theorem ofExcept_error_bind (e : ε) (f : α → Proc σ ε β) :
    (ofExcept (.error e) >>= f) = throw e := rfl

theorem after_set_bind (t : σ) (f : PUnit → Proc σ ε β) (s : σ) :
    after (set t >>= f) s = after (f ()) t := rfl

/-- What is computed from a result changes no state. -/
@[simp] theorem after_map (p : Proc σ ε α) (f : α → β) (s : σ) : after (f <$> p) s = after p s := by
  unfold after
  rw [run_map]
  cases p.run s <;> rfl

theorem after_bind_pure (p : Proc σ ε α) (f : α → β) (s : σ) :
    after (p >>= fun a => pure (f a)) s = after p s := by
  rw [bind_pure_comp, after_map]

/-- What comes after a procedure, if it changes no state. -/
theorem after_bind_of_after_eq {p : Proc σ ε α} {f : α → Proc σ ε β}
    (hf : ∀ a t, after (f a) t = t) (s : σ) : after (p >>= f) s = after p s := by
  rw [after_bind]
  cases h : p.run s with
  | ok a t =>
      rw [after_of_ok h]
      exact hf a t
  | error e t => rw [after_of_error h]

@[simp] theorem after_ofExcept (r : Except ε α) (s : σ) :
    after (ofExcept r : Proc σ ε α) s = s := by
  cases r <;> rfl

@[simp] theorem after_throw (e : ε) (s : σ) : after (throw e : Proc σ ε α) s = s := rfl

theorem after_tryCatch (p : Proc σ ε α) (handler : ε → Proc σ ε α) (s : σ) :
    after (tryCatch p handler) s =
      match p.run s with
      | .ok _ t => t
      | .error e t => after (handler e) t := by
  unfold after
  rw [run_tryCatch]
  cases p.run s <;> rfl

/-- A finalizer runs at the state that is left, however that came about. -/
theorem after_tryFinally (p : Proc σ ε α) (last : Proc σ ε PUnit) (s : σ) :
    after (tryFinally p last) s = after last (after p s) := by
  unfold after
  rw [run_tryFinally]
  cases p.run s with
  | ok a t =>
      dsimp only
      rw [EStateM.run_bind]
      cases last.run t <;> rfl
  | error e t =>
      dsimp only
      rw [EStateM.run_bind]
      cases last.run t <;> rfl

/-! ## What a procedure returns -/

/-- Whatever `p` returns satisfies `P`. -/
def Returns (P : α → Prop) (p : Proc σ ε α) : Prop :=
  ∀ s a t, p.run s = .ok a t → P a

theorem Returns.pure {P : α → Prop} {a : α} (h : P a) : Returns P (pure a : Proc σ ε α) := by
  intro s b t hrun
  obtain ⟨rfl, -⟩ := EStateM.Result.ok.inj hrun
  exact h

theorem Returns.throw {P : α → Prop} (e : ε) : Returns P (throw e : Proc σ ε α) := by
  intro s a t hrun
  cases hrun

theorem Returns.bind {P : β → Prop} {Q : α → Prop} {p : Proc σ ε α} {f : α → Proc σ ε β}
    (hp : Returns Q p) (hf : ∀ a, Q a → Returns P (f a)) : Returns P (p >>= f) := by
  intro s b t hrun
  rw [EStateM.run_bind] at hrun
  cases h : p.run s with
  | error e u => simp [h] at hrun
  | ok a u =>
      simp only [h] at hrun
      exact hf a (hp s a u h) u b t hrun

/-- A part whose result is not asked about. -/
theorem Returns.after {P : β → Prop} {p : Proc σ ε α} {f : α → Proc σ ε β}
    (hf : ∀ a, Returns P (f a)) : Returns P (p >>= f) :=
  Returns.bind (fun _ _ _ _ => trivial) fun a _ => hf a

/-! ## What a procedure raises -/

/-- Whatever `p` raises satisfies `P`. -/
def Raises (P : ε → Prop) (p : Proc σ ε α) : Prop :=
  ∀ s e t, p.run s = .error e t → P e

theorem Raises.pure {P : ε → Prop} (a : α) : Raises P (pure a : Proc σ ε α) := by
  intro s e t hrun
  cases hrun

theorem Raises.throw {P : ε → Prop} {e : ε} (h : P e) : Raises P (throw e : Proc σ ε α) := by
  intro s e' t hrun
  obtain ⟨rfl, -⟩ := EStateM.Result.error.inj hrun
  exact h

theorem Raises.get {P : ε → Prop} : Raises P (get : Proc σ ε σ) := by
  intro s e t hrun
  cases hrun

theorem Raises.modify {P : ε → Prop} (f : σ → σ) : Raises P (modify f : Proc σ ε PUnit) := by
  intro s e t hrun
  cases hrun

theorem Raises.ofExcept {P : ε → Prop} {r : Except ε α} (h : ∀ e, r = .error e → P e) :
    Raises P (ofExcept r : Proc σ ε α) := by
  intro s e t hrun
  cases r with
  | ok a => cases hrun
  | error e' =>
      obtain ⟨rfl, -⟩ := EStateM.Result.error.inj hrun
      exact h _ rfl

theorem Raises.bind {P : ε → Prop} {p : Proc σ ε α} {f : α → Proc σ ε β} (hp : Raises P p)
    (hf : ∀ a, Raises P (f a)) : Raises P (p >>= f) := by
  intro s e t hrun
  rw [EStateM.run_bind] at hrun
  cases h : p.run s with
  | error e' u =>
      simp only [h] at hrun
      obtain ⟨rfl, -⟩ := EStateM.Result.error.inj hrun
      exact hp s _ u h
  | ok a u =>
      simp only [h] at hrun
      exact hf a u e t hrun

/-- With a change of what is raised. -/
theorem Raises.adaptExcept {ε' : Type} {P : ε' → Prop} {p : Proc σ ε α} {f : ε → ε'}
    (hp : Raises (fun e => P (f e)) p) : Raises P (p.adaptExcept f : Proc σ ε' α) := by
  intro s e t hrun
  unfold EStateM.adaptExcept EStateM.run at hrun
  cases h : p s with
  | ok a u =>
      simp only [h] at hrun
      cases hrun
  | error e' u =>
      simp only [h] at hrun
      obtain ⟨rfl, -⟩ := EStateM.Result.error.inj hrun
      exact hp s e' u h

/-! ## Whether a procedure returns -/

/-- `p` returns at `s`. -/
def Succeeds (p : Proc σ ε α) (s : σ) : Prop :=
  ∃ a t, p.run s = .ok a t

theorem succeeds_pure (a : α) (s : σ) : Succeeds (pure a : Proc σ ε α) s :=
  ⟨a, s, rfl⟩

theorem succeeds_bind {p : Proc σ ε α} {f : α → Proc σ ε β} {s : σ} :
    Succeeds (p >>= f) s ↔ ∃ a t, p.run s = .ok a t ∧ Succeeds (f a) t := by
  unfold Succeeds
  rw [EStateM.run_bind]
  cases h : p.run s with
  | ok a t =>
      constructor
      · rintro ⟨b, u, hrun⟩
        exact ⟨a, t, rfl, b, u, hrun⟩
      · rintro ⟨a', t', hrun, b, u, hf⟩
        obtain ⟨rfl, rfl⟩ := EStateM.Result.ok.inj hrun
        exact ⟨b, u, hf⟩
  | error e t => simp

/-- Computing a result changes no state. -/
theorem run_ofExcept {r : Except ε α} {s t : σ} {a : α} :
    (ofExcept r : Proc σ ε α).run s = .ok a t ↔ r = .ok a ∧ t = s := by
  cases r with
  | error e => simp [ofExcept]
  | ok b =>
      constructor
      · intro h
        obtain ⟨rfl, rfl⟩ := EStateM.Result.ok.inj h
        exact ⟨rfl, rfl⟩
      · rintro ⟨h, rfl⟩
        obtain rfl := Except.ok.inj h
        rfl

/-! ## What a procedure does to the state -/

/-- Every run of `p` relates the state before and after by `R`. -/
def Within (R : σ → σ → Prop) (p : Proc σ ε α) : Prop :=
  ∀ s, R s (after p s)

section Rules

variable {R : σ → σ → Prop} [IsPreorder σ R]

theorem Within.pure (a : α) : Within R (pure a : Proc σ ε α) :=
  fun s => refl_of R s

theorem Within.throw (e : ε) : Within R (throw e : Proc σ ε α) :=
  fun s => refl_of R s

omit [IsPreorder σ R] in
theorem Within.modify {f : σ → σ} (h : ∀ s, R s (f s)) :
    Within R (modify f : Proc σ ε PUnit) :=
  fun s => h s

theorem Within.ofExcept (r : Except ε α) : Within R (ofExcept r : Proc σ ε α) := by
  intro s
  rw [after_ofExcept]
  exact refl_of R s

theorem Within.bind {p : Proc σ ε α} {f : α → Proc σ ε β} (hp : Within R p)
    (hf : ∀ a, Within R (f a)) : Within R (p >>= f) := by
  intro s
  have hfirst := hp s
  rw [after_bind]
  cases h : p.run s with
  | ok a t =>
      rw [after_of_ok h] at hfirst
      exact trans_of R hfirst (hf a t)
  | error e t =>
      rw [after_of_error h] at hfirst
      exact hfirst

theorem Within.tryFinally {p : Proc σ ε α} {last : Proc σ ε PUnit} (hp : Within R p)
    (hlast : Within R last) : Within R (tryFinally p last) := by
  intro s
  rw [after_tryFinally]
  exact trans_of R (hp s) (hlast (after p s))

theorem Within.tryCatch {p : Proc σ ε α} {handler : ε → Proc σ ε α} (hp : Within R p)
    (hhandler : ∀ e, Within R (handler e)) : Within R (tryCatch p handler) := by
  intro s
  have hfirst := hp s
  rw [after_tryCatch]
  cases h : p.run s with
  | ok a t =>
      rw [after_of_ok h] at hfirst
      exact hfirst
  | error e t =>
      rw [after_of_error h] at hfirst
      exact trans_of R hfirst (hhandler e t)

end Rules

/-! ## Two runs -/

/-- A change of the state in which a run has ended. -/
def mapState (g : σ → σ) : EStateM.Result ε σ α → EStateM.Result ε σ α
  | .ok a t => .ok a (g t)
  | .error e t => .error e (g t)

/-- From `s`, a change by `g` makes no difference but itself. -/
def Commutes (g : σ → σ) (p : Proc σ ε α) (s : σ) : Prop :=
  p.run (g s) = mapState g (p.run s)

section Commutes

variable {g : σ → σ} {s : σ}

theorem Commutes.pure (a : α) : Commutes g (pure a : Proc σ ε α) s := rfl

theorem Commutes.throw (e : ε) : Commutes g (throw e : Proc σ ε α) s := rfl

theorem Commutes.ofExcept (r : Except ε α) : Commutes g (ofExcept r) s := by
  cases r <;> rfl

theorem Commutes.modify {f : σ → σ} (h : f (g s) = g (f s)) :
    Commutes g (modify f : Proc σ ε PUnit) s := by
  show EStateM.Result.ok () (f (g s)) = .ok () (g (f s))
  rw [h]

theorem Commutes.bind {p : Proc σ ε α} {f : α → Proc σ ε β} (hp : Commutes g p s)
    (hf : ∀ a t, p.run s = .ok a t → Commutes g (f a) t) : Commutes g (p >>= f) s := by
  unfold Commutes at hp ⊢
  rw [EStateM.run_bind, EStateM.run_bind, hp]
  cases hrun : p.run s with
  | ok a t => exact hf a t hrun
  | error e t => rfl

/-- A procedure that reads the state and goes on. -/
theorem Commutes.get_bind {f : σ → Proc σ ε β}
    (h : (f (g s)).run (g s) = mapState g ((f s).run s)) :
    Commutes g (get >>= f) s := by
  unfold Commutes
  rw [EStateM.run_bind, EStateM.run_bind]
  exact h

theorem Commutes.tryCatch {p : Proc σ ε α} {handler : ε → Proc σ ε α} (hp : Commutes g p s)
    (hhandler : ∀ e t, Commutes g (handler e) t) : Commutes g (tryCatch p handler) s := by
  unfold Commutes at hp ⊢
  rw [run_tryCatch, run_tryCatch, hp]
  cases p.run s with
  | ok a t => rfl
  | error e t => exact hhandler e t

theorem Commutes.after {p : Proc σ ε α} (h : Commutes g p s) : after p (g s) = g (after p s) := by
  unfold Proc.after
  rw [h]
  cases p.run s <;> rfl

end Commutes

end Proc
