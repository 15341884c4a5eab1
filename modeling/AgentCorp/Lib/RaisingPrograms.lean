/-
  Programs on a shared state that may raise, interleaved with others.

  `Guarded good post seen x`: whatever the other programs do, every commit of `x` is good for the
  states that have been there, and `post` holds of these and of what `x` returns.

  * `Raising.alone_bind`: a program alone, step by step.
  * `Guarded.pure`, `.throw`, `.bind`, `.raiseIf`, `.tryCatch`, `.get`, `.emit`: the rules.
  * `Guarded.imp`, `.weaken`: their conclusions under other conditions.
-/
import AgentCorp.Lib.Interleaving

namespace Interleaving

variable {σ ε ξ α β : Type}

/-- A program that may raise. -/
abbrev Raising (σ ε ξ α : Type) := ExceptT ξ (Prog σ ε) α

namespace Raising

def get (f : σ → α) : Raising σ ε ξ α :=
  ExceptT.lift (Prog.get f)

def emit (e : ε) : Raising σ ε ξ Unit :=
  ExceptT.lift (Prog.emit e)

/-! ## Alone -/

/-- What a program that nobody interrupts returns or raises, and the state it leaves. -/
def alone (apply : ε → σ → σ) (x : Raising σ ε ξ α) (s : σ) : Except ξ α × σ :=
  x.run.run apply s

variable (apply : ε → σ → σ) (s : σ)

@[simp] theorem alone_pure (a : α) :
    alone apply (Pure.pure a : Raising σ ε ξ α) s = (.ok a, s) := rfl

@[simp] theorem alone_throw (e : ξ) :
    alone apply (MonadExcept.throw e : Raising σ ε ξ α) s = (.error e, s) := rfl

@[simp] theorem alone_get (f : σ → α) :
    alone apply (get f : Raising σ ε ξ α) s = (.ok (f s), s) := rfl

@[simp] theorem alone_emit (e : ε) :
    alone apply (emit e : Raising σ ε ξ Unit) s = (.ok (), apply e s) := rfl

theorem alone_bind (x : Raising σ ε ξ α) (f : α → Raising σ ε ξ β) :
    alone apply (x >>= f) s =
      match alone apply x s with
      | (.ok a, t) => alone apply (f a) t
      | (.error e, t) => (.error e, t) := by
  show Prog.run apply (x.run >>= _) s = _
  rw [Prog.run_bind]
  unfold alone
  rcases Prog.run apply x.run s with ⟨_ | _, t⟩ <;> rfl

end Raising

/-- The states of a program that goes on, with those before it. -/
theorem Based.grows {good : Basis σ ε} {post : (σ → Prop) → α → Prop} {seen : σ → Prop}
    {x : Prog σ ε α} (hx : Based good post seen x) :
    Based good (fun seen' a => (∀ s, seen s → seen' s) ∧ post seen' a) seen x := by
  induction x generalizing seen with
  | done a => exact ⟨fun _ hs => hs, hx⟩
  | read k ih =>
      intro s
      refine (ih s (hx s)).imp fun seen' a ⟨hsub, hpost⟩ => ⟨fun t ht => ?_, hpost⟩
      exact hsub t (.inr ht)
  | commit e k ih => exact ⟨hx.1, ih hx.2⟩

/-- What is good for fewer states, if these are enough. -/
theorem Based.weaken {good good' : Basis σ ε} {post : (σ → Prop) → α → Prop} {seen : σ → Prop}
    {x : Prog σ ε α} (hx : Based good post seen x)
    (h : ∀ seen' e, (∀ s, seen s → seen' s) → good seen' e → good' seen' e) :
    Based good' post seen x := by
  induction x generalizing seen with
  | done a => exact hx
  | read k ih =>
      intro s
      exact ih s (hx s) fun seen' e hsub => h seen' e fun t ht => hsub t (.inr ht)
  | commit e k ih => exact ⟨h seen e (fun _ hs => hs) hx.1, ih hx.2 h⟩

def Guarded (good : Basis σ ε) (post : (σ → Prop) → α → Prop) (seen : σ → Prop)
    (x : Raising σ ε ξ α) : Prop :=
  Based good (fun seen' r => ∀ a, r = .ok a → post seen' a) seen x.run

namespace Guarded

variable {good good' : Basis σ ε} {post post' : (σ → Prop) → α → Prop} {seen : σ → Prop}

theorem pure {a : α} (h : post seen a) :
    Guarded good post seen (Pure.pure a : Raising σ ε ξ α) := by
  intro a' ha'
  obtain rfl := Except.ok.inj ha'
  exact h

theorem throw (e : ξ) : Guarded good post seen (MonadExcept.throw e : Raising σ ε ξ α) :=
  fun _ h => nomatch h

theorem bind {next : (σ → Prop) → β → Prop} {x : Raising σ ε ξ α} {f : α → Raising σ ε ξ β}
    (hx : Guarded good post seen x)
    (hf : ∀ seen' a, (∀ s, seen s → seen' s) → post seen' a → Guarded good next seen' (f a)) :
    Guarded good next seen (x >>= f) := by
  refine based_bind hx.grows fun seen' r ⟨hsub, hpost⟩ => ?_
  cases r with
  | error e => exact fun _ h => nomatch h
  | ok a => exact hf seen' a hsub (hpost a rfl)

/-- A program that raises before the rest. -/
theorem throw_bind {e : ξ} {f : α → Raising σ ε ξ β} {next : (σ → Prop) → β → Prop} :
    Guarded good next seen (MonadExcept.throw e >>= f) := by
  have hthrow : Guarded good (fun _ (_ : α) => False) seen
      (MonadExcept.throw e : Raising σ ε ξ α) := throw e
  exact bind hthrow fun _ _ _ hfalse => hfalse.elim

/-- A rest that needs nothing of what is before it. -/
theorem followed {x : Raising σ ε ξ α} {f : α → Raising σ ε ξ β} {next : (σ → Prop) → β → Prop}
    (hx : Guarded good (fun _ _ => True) seen x)
    (hf : ∀ seen' a, Guarded good next seen' (f a)) : Guarded good next seen (x >>= f) :=
  bind hx fun seen' a _ _ => hf seen' a

/-- `if c then raise e`, and the rest. -/
theorem raiseIf {c : Prop} [Decidable c] {e : ξ} {rest : PUnit → Raising σ ε ξ α}
    (h : ¬ c → Guarded good post seen (rest ⟨⟩)) :
    Guarded good post seen (if c then MonadExcept.throw e >>= rest else rest ⟨⟩) := by
  split
  · exact throw_bind
  · next hc => exact h hc

theorem imp {x : Raising σ ε ξ α} (hx : Guarded good post seen x)
    (h : ∀ seen' a, (∀ s, seen s → seen' s) → post seen' a → post' seen' a) :
    Guarded good post' seen x :=
  (Based.grows hx).imp fun seen' _ ⟨hsub, hpost⟩ a ha => h seen' a hsub (hpost a ha)

theorem weaken {x : Raising σ ε ξ α} (hx : Guarded good post seen x)
    (h : ∀ seen' e, (∀ s, seen s → seen' s) → good seen' e → good' seen' e) :
    Guarded good' post seen x :=
  Based.weaken hx h

theorem tryCatch {x : Raising σ ε ξ α} {handler : ξ → Raising σ ε ξ α}
    (hx : Guarded good post seen x)
    (hcatch : ∀ seen' e, (∀ s, seen s → seen' s) → Guarded good post seen' (handler e)) :
    Guarded good post seen (tryCatch x handler) := by
  refine based_bind hx.grows fun seen' r ⟨hsub, hpost⟩ => ?_
  cases r with
  | error e => exact hcatch seen' e hsub
  | ok a => exact hpost

theorem get (f : σ → α) :
    Guarded good (fun seen' a => ∃ s, seen' s ∧ a = f s) seen
      (Raising.get f : Raising σ ε ξ α) := by
  intro s a ha
  exact ⟨s, .inl rfl, (Except.ok.inj ha).symm⟩

theorem emit {e : ε} (h : good seen e) :
    Guarded good (fun _ _ => True) seen (Raising.emit e : Raising σ ε ξ Unit) :=
  ⟨h, fun _ _ => trivial⟩

end Guarded

end Interleaving
