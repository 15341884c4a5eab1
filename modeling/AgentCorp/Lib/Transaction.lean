/-
  A database under one transaction at a time: what is committed, and what a commit would store.

  What is not committed when a procedure ends is lost.

  * `Pending.pure`, `.bind`, `.write`, `.ofExcept`: the rules of what commits nothing.
  * `Pending.bind_keptOnError`, `keptOnError_commit`: those of what commits at its end.
  * `not_atomic_of_commit`: what is committed before an error stays.
-/
import AgentCorp.Lib.Proc

structure Transaction (D : Type) where
  committed : D
  current : D

namespace Transaction

variable {D ε α β : Type}

/-- A new session. -/
def opened (d : D) : Transaction D where
  committed := d
  current := d

def write (f : D → D) (t : Transaction D) : Transaction D :=
  { t with current := f t.current }

def commit (t : Transaction D) : Transaction D :=
  { t with committed := t.current }

/-! ## What commits nothing -/

/-- Nothing was committed in between. -/
def SameCommitted (s t : Transaction D) : Prop :=
  t.committed = s.committed

instance : IsPreorder (Transaction D) SameCommitted where
  refl _ := rfl
  trans _ _ _ hst htu := htu.trans hst

/-- A procedure that commits nothing. -/
def Pending (p : Proc (Transaction D) ε α) : Prop :=
  Proc.Within SameCommitted p

theorem Pending.pure (a : α) : Pending (pure a : Proc (Transaction D) ε α) :=
  Proc.Within.pure a

theorem Pending.get : Pending (get : Proc (Transaction D) ε (Transaction D)) :=
  fun _ => rfl

theorem Pending.write (f : D → D) :
    Pending (modify (Transaction.write f) : Proc (Transaction D) ε PUnit) :=
  fun _ => rfl

theorem Pending.ofExcept (r : Except ε α) :
    Pending (Proc.ofExcept r : Proc (Transaction D) ε α) :=
  Proc.Within.ofExcept r

theorem Pending.bind {p : Proc (Transaction D) ε α} {f : α → Proc (Transaction D) ε β}
    (hp : Pending p) (hf : ∀ a, Pending (f a)) : Pending (p >>= f) :=
  Proc.Within.bind hp hf

/-- What raises commits nothing. -/
def KeptOnError (p : Proc (Transaction D) ε α) : Prop :=
  ∀ s e t, p.run s = .error e t → SameCommitted s t

theorem Pending.keptOnError {p : Proc (Transaction D) ε α} (hp : Pending p) : KeptOnError p := by
  intro s e t h
  rw [← Proc.after_of_error h]
  exact hp s

theorem Pending.bind_keptOnError {p : Proc (Transaction D) ε α}
    {f : α → Proc (Transaction D) ε β} (hp : Pending p) (hf : ∀ a, KeptOnError (f a)) :
    KeptOnError (p >>= f) := by
  intro s e t h
  cases hrun : p.run s with
  | error e' u =>
      rw [Proc.run_bind_of_error hrun] at h
      obtain ⟨rfl, rfl⟩ := EStateM.Result.error.inj h
      exact hp.keptOnError s e' u hrun
  | ok a u =>
      rw [Proc.run_bind_of_ok hrun] at h
      have hfirst := hp s
      rw [Proc.after_of_ok hrun] at hfirst
      exact (hf a u e t h).trans hfirst

/-- A commit does not raise. -/
theorem keptOnError_commit (a : α) :
    KeptOnError (modify commit >>= fun _ => pure a : Proc (Transaction D) ε α) := by
  intro s e t h
  cases h

/-! ## All or nothing -/

/-- The procedure returns and commits what `Q` says of the result, or raises and commits
    nothing. -/
def Atomic (Q : α → D → Prop) (p : Proc (Transaction D) ε α) (d : D) : Prop :=
  match p.run (opened d) with
  | .ok a t => Q a t.committed
  | .error _ t => t.committed = d

theorem atomic_of_ok {Q : α → D → Prop} {p : Proc (Transaction D) ε α} {d : D} {a : α}
    {t : Transaction D} (h : p.run (opened d) = .ok a t) : Atomic Q p d ↔ Q a t.committed := by
  unfold Atomic
  rw [h]

theorem atomic_of_error {Q : α → D → Prop} {p : Proc (Transaction D) ε α} {d : D} {e : ε}
    {t : Transaction D} (h : p.run (opened d) = .error e t) :
    Atomic Q p d ↔ t.committed = d := by
  unfold Atomic
  rw [h]

/-- What is committed before an error stays. -/
theorem not_atomic_of_commit {Q : β → D → Prop} {p : Proc (Transaction D) ε α}
    {f : α → Proc (Transaction D) ε β} {d : D} {a : α} {s : Transaction D}
    (hp : p.run (opened d) = .ok a s) (hs : s.committed ≠ d) (hf : KeptOnError (f a))
    (hraise : ¬ Proc.Succeeds (f a) s) : ¬ Atomic Q (p >>= f) d := by
  cases h : (f a).run s with
  | ok b t => exact absurd ⟨b, t, h⟩ hraise
  | error e t =>
      rw [atomic_of_error ((Proc.run_bind_of_ok hp).trans h), hf s e t h]
      exact hs

end Transaction
