/-
  Programs that read a shared state and commit to it, alone and interleaved.

  A program takes one step at a time: it reads the whole state, or it commits an event, which
  changes the state as `apply` says. What it does next may depend on what it has read.

  * `run_bind`, `commits_bind`: a program alone, step by step.
  * `Based`: what a program commits is justified by what it has read.
  * `justified_of_runs`: so is every commit of an interleaved run, by the states before it.
  * `Justified.invariant`: what such commits keep, every state of the run meets.
-/
import Mathlib.Data.List.Basic

namespace Interleaving

inductive Prog (σ ε α : Type) where
  | done (a : α)
  | read (k : σ → Prog σ ε α)
  | commit (e : ε) (k : Prog σ ε α)

variable {σ ε α β : Type}

namespace Prog

def bind : Prog σ ε α → (α → Prog σ ε β) → Prog σ ε β
  | done a, f => f a
  | read k, f => read fun s => bind (k s) f
  | commit e k, f => commit e (bind k f)

instance : Monad (Prog σ ε) where
  pure := done
  bind := bind

/-- Read a part of the state. -/
def get (f : σ → α) : Prog σ ε α :=
  read fun s => done (f s)

def emit (e : ε) : Prog σ ε Unit :=
  commit e (done ())

/-! ## Alone -/

/-- The result of a program that nobody interrupts, and the state it leaves. -/
def run (apply : ε → σ → σ) : Prog σ ε α → σ → α × σ
  | done a, s => (a, s)
  | read k, s => run apply (k s) s
  | commit e k, s => run apply k (apply e s)

variable (apply : ε → σ → σ)

@[simp] theorem run_pure (a : α) (s : σ) : run apply (pure a : Prog σ ε α) s = (a, s) := rfl

@[simp] theorem run_get (f : σ → α) (s : σ) : run apply (get f) s = (f s, s) := rfl

@[simp] theorem run_emit (e : ε) (s : σ) : run apply (emit e) s = ((), apply e s) := rfl

@[simp] theorem run_bind (x : Prog σ ε α) (f : α → Prog σ ε β) (s : σ) :
    run apply (x >>= f) s = run apply (f (run apply x s).1) (run apply x s).2 := by
  show run apply (bind x f) s = _
  induction x generalizing s with
  | done a => rfl
  | read k ih => exact ih s s
  | commit e k ih => exact ih (apply e s)

/-- What a program that nobody interrupts commits, in order. -/
def commits (apply : ε → σ → σ) : Prog σ ε α → σ → List ε
  | done _, _ => []
  | read k, s => commits apply (k s) s
  | commit e k, s => e :: commits apply k (apply e s)

theorem commits_bind (x : Prog σ ε α) (f : α → Prog σ ε β) (s : σ) :
    commits apply (x >>= f) s =
      commits apply x s ++ commits apply (f (run apply x s).1) (run apply x s).2 := by
  show commits apply (bind x f) s = _
  induction x generalizing s with
  | done a => rfl
  | read k ih => exact ih s s
  | commit e k ih => exact congrArg (e :: ·) (ih (apply e s))

end Prog

/-! ## Interleaved -/

/-- A run of programs that share a state: the commits, each with the state after it. It may stop
    anywhere. -/
inductive Runs (apply : ε → σ → σ) : σ → List (Prog σ ε α) → List (ε × σ) → Prop
  | nil (s : σ) (progs : List (Prog σ ε α)) : Runs apply s progs []
  | read {s : σ} {progs : List (Prog σ ε α)} {i : Nat} {k : σ → Prog σ ε α}
      {trace : List (ε × σ)} (hi : progs[i]? = some (.read k))
      (h : Runs apply s (progs.set i (k s)) trace) : Runs apply s progs trace
  | commit {s : σ} {progs : List (Prog σ ε α)} {i : Nat} {e : ε} {k : Prog σ ε α}
      {trace : List (ε × σ)} (hi : progs[i]? = some (.commit e k))
      (h : Runs apply (apply e s) (progs.set i k) trace) :
      Runs apply s progs ((e, apply e s) :: trace)

/-- The run of a schedule: which program takes the next step. -/
def schedule (apply : ε → σ → σ) (s : σ) (progs : List (Prog σ ε α)) :
    List Nat → List (ε × σ)
  | [] => []
  | i :: rest =>
      match progs[i]? with
      | some (.read k) => schedule apply s (progs.set i (k s)) rest
      | some (.commit e k) =>
          (e, apply e s) :: schedule apply (apply e s) (progs.set i k) rest
      | _ => schedule apply s progs rest

theorem runs_schedule (apply : ε → σ → σ) (s : σ) (progs : List (Prog σ ε α))
    (choices : List Nat) : Runs apply s progs (schedule apply s progs choices) := by
  induction choices generalizing s progs with
  | nil => exact .nil s progs
  | cons i rest ih =>
      unfold schedule
      cases hi : progs[i]? with
      | none => exact ih s progs
      | some prog =>
          cases prog with
          | done a => exact ih s progs
          | read k => exact .read hi (ih s _)
          | commit e k => exact .commit hi (ih _ _)

/-- A state of a run is what the commits so far have made of the first one. -/
theorem Runs.state_eq {apply : ε → σ → σ} {s : σ} {progs : List (Prog σ ε α)}
    {trace : List (ε × σ)} (h : Runs apply s progs trace) {i : Nat} {e : ε} {t : σ}
    (hi : (trace)[i]? = some (e, t)) :
    t = ((trace.take (i + 1)).map (·.1)).foldl (fun s e => apply e s) s := by
  induction h generalizing i with
  | nil s progs => cases hi
  | read _ _ ih => exact ih hi
  | @commit s progs j e' k trace _ _ ih =>
      cases i with
      | zero =>
          obtain ⟨rfl, rfl⟩ := Prod.mk.inj (Option.some.inj hi)
          rfl
      | succ i => exact ih hi

/-- A state of a run is what its commit makes of the one before. -/
theorem Runs.step_eq {apply : ε → σ → σ} {s : σ} {progs : List (Prog σ ε α)}
    {trace : List (ε × σ)} (h : Runs apply s progs trace) {i : Nat} {e : ε} {t : σ}
    (hi : (trace)[i]? = some (e, t)) : ∃ before, t = apply e before := by
  have ht := h.state_eq hi
  have htake : trace.take (i + 1) = trace.take i ++ [(e, t)] := by
    rw [List.take_add_one, hi]
    rfl
  rw [htake, List.map_append, List.foldl_append] at ht
  exact ⟨_, ht⟩

/-- What every commit keeps, holds on in a run. -/
theorem Runs.stable {apply : ε → σ → σ} {P : σ → Prop} (hstep : ∀ e s, P s → P (apply e s)) {s : σ}
    {progs : List (Prog σ ε α)} {trace : List (ε × σ)} (h : Runs apply s progs trace) {i j : Nat}
    {first later : ε × σ} (hi : (trace)[i]? = some first) (hj : (trace)[j]? = some later)
    (hij : i ≤ j) (hfirst : P first.2) : P later.2 := by
  have hfold : ∀ (commits : List ε) (t : σ), P t → P (commits.foldl (fun s e => apply e s) t) := by
    intro commits
    induction commits with
    | nil => exact fun t ht => ht
    | cons e commits ih => exact fun t ht => ih (apply e t) (hstep e t ht)
  obtain ⟨k, rfl⟩ := Nat.exists_eq_add_of_le hij
  rw [h.state_eq hi] at hfirst
  rw [h.state_eq hj, Nat.add_right_comm, List.take_add, List.map_append, List.foldl_append]
  exact hfold _ _ hfirst

/-! ## Commits that are based on reads -/

/-- A condition on a commit, by the states that have been there. -/
abbrev Basis (σ ε : Type) := (σ → Prop) → ε → Prop

/-- A basis that more states can only help. -/
def Basis.Mono (good : Basis σ ε) : Prop :=
  ∀ seen seen' e, (∀ s, seen s → seen' s) → good seen e → good seen' e

/-- Every commit of the program is good for the states it has read, and `post` holds of these and
    of the result. -/
def Based (good : Basis σ ε) (post : (σ → Prop) → α → Prop) (seen : σ → Prop) :
    Prog σ ε α → Prop
  | .done a => post seen a
  | .read k => ∀ s, Based good post (fun t => t = s ∨ seen t) (k s)
  | .commit e k => good seen e ∧ Based good post seen k

section Based

variable {good : Basis σ ε} {post post' : (σ → Prop) → α → Prop} {seen seen' : σ → Prop}

theorem based_bind {next : (σ → Prop) → β → Prop} {x : Prog σ ε α} {f : α → Prog σ ε β}
    (hx : Based good post seen x)
    (hf : ∀ seen' a, post seen' a → Based good next seen' (f a)) :
    Based good next seen (x >>= f) := by
  show Based good next seen (x.bind f)
  induction x generalizing seen with
  | done a => exact hf seen a hx
  | read k ih => exact fun s => ih s (hx s)
  | commit e k ih => exact ⟨hx.1, ih hx.2⟩

theorem Based.imp {x : Prog σ ε α} (hx : Based good post seen x)
    (h : ∀ seen a, post seen a → post' seen a) : Based good post' seen x := by
  induction x generalizing seen with
  | done a => exact h seen a hx
  | read k ih => exact fun s => ih s (hx s)
  | commit e k ih => exact ⟨hx.1, ih hx.2⟩

/-- What is justified stays so when more states have been there. -/
theorem Based.mono (hgood : good.Mono) {x : Prog σ ε α}
    (hx : Based good (fun _ _ => True) seen x) (h : ∀ s, seen s → seen' s) :
    Based good (fun _ _ => True) seen' x := by
  induction x generalizing seen seen' with
  | done a => trivial
  | read k ih =>
      intro s
      exact ih s (hx s) fun t ht => ht.imp id (h t)
  | commit e k ih => exact ⟨hgood seen seen' e h hx.1, ih hx.2 h⟩

end Based

/-- Every commit of the trace is good for the states that were there before it, and the state
    after it is what it makes of the one before. -/
inductive Justified (apply : ε → σ → σ) (good : Basis σ ε) :
    (σ → Prop) → σ → List (ε × σ) → Prop
  | nil (seen : σ → Prop) (s : σ) : Justified apply good seen s []
  | cons {seen : σ → Prop} {s : σ} {e : ε} {trace : List (ε × σ)} (hgood : good seen e)
      (h : Justified apply good (fun t => t = apply e s ∨ seen t) (apply e s) trace) :
      Justified apply good seen s ((e, apply e s) :: trace)

/-- **Interleaved runs of programs whose commits are based on what they read.** -/
theorem justified_of_runs {apply : ε → σ → σ} {good : Basis σ ε} (hgood : good.Mono)
    {seen : σ → Prop} {s : σ} {progs : List (Prog σ ε α)} {trace : List (ε × σ)}
    (h : Runs apply s progs trace) (hs : seen s)
    (hprogs : ∀ prog ∈ progs, Based good (fun _ _ => True) seen prog) :
    Justified apply good seen s trace := by
  induction h generalizing seen with
  | nil s progs => exact .nil seen s
  | @read s progs i k trace hi h ih =>
      refine ih hs ?_
      intro prog hprog
      rcases List.mem_or_eq_of_mem_set hprog with hold | rfl
      · exact hprogs prog hold
      · -- What is read is the state that is there.
        have hread := hprogs _ (List.mem_of_getElem? hi) s
        exact hread.mono hgood fun t ht => ht.elim (fun heq => heq ▸ hs) id
  | @commit s progs i e k trace hi h ih =>
      have hcommit := hprogs _ (List.mem_of_getElem? hi)
      refine .cons hcommit.1 (ih (.inl rfl) ?_)
      intro prog hprog
      rcases List.mem_or_eq_of_mem_set hprog with hold | rfl
      · exact (hprogs prog hold).mono hgood fun _ ht => .inr ht
      · exact hcommit.2.mono hgood fun _ ht => .inr ht

/-- A commit is good for the states that were there before it. -/
theorem Justified.good_at {apply : ε → σ → σ} {good : Basis σ ε} (hgood : good.Mono)
    {seen : σ → Prop} {s : σ} {trace : List (ε × σ)} (h : Justified apply good seen s trace)
    {i : Nat} {e : ε} {t : σ} (hi : (trace)[i]? = some (e, t)) :
    good (fun u => seen u ∨ ∃ step ∈ trace.take i, step.2 = u) e := by
  induction h generalizing i with
  | nil seen s => cases hi
  | @cons seen s e' trace hfirst h ih =>
      cases i with
      | zero =>
          obtain ⟨rfl, -⟩ := Prod.mk.inj (Option.some.inj hi)
          exact hgood _ _ _ (fun _ hu => .inl hu) hfirst
      | succ i =>
          refine hgood _ _ _ ?_ (ih hi)
          rintro u ((rfl | hu) | ⟨step, hstep, rfl⟩)
          · exact .inr ⟨(e', apply e' s), List.mem_cons_self, rfl⟩
          · exact .inl hu
          · exact .inr ⟨step, List.mem_cons_of_mem _ hstep, rfl⟩

/-- **Invariants of interleaved runs.** A condition that a good commit keeps, when all states before
    it meet the condition, is met by every state of the run. -/
theorem Justified.invariant {apply : ε → σ → σ} {good : Basis σ ε} {I : σ → Prop}
    (hstep : ∀ seen s e, (∀ t, seen t → I t) → I s → good seen e → I (apply e s))
    {seen : σ → Prop} {s : σ} {trace : List (ε × σ)} (h : Justified apply good seen s trace)
    (hseen : ∀ t, seen t → I t) (hs : I s) : ∀ step ∈ trace, I step.2 := by
  induction h with
  | nil seen s => exact fun step hstep => absurd hstep List.not_mem_nil
  | @cons seen s e trace hgood h ih =>
      have hnext : I (apply e s) := hstep seen s e hseen hs hgood
      refine List.forall_mem_cons.mpr ⟨hnext, ih ?_ hnext⟩
      rintro t (rfl | ht)
      · exact hnext
      · exact hseen t ht

end Interleaving
