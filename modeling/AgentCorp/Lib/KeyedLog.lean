/-
  Procedures over a log of rows with keys that keep to the rows of one key.

  A state is a log, a part that is left alone and a part that may change. A procedure is `Local` if
  what it does depends on the rows of its key and on the part that may change, and if it appends
  rows of its key only.

  * `Local.bind`, `Local.tryCatch`, `Local.getBind`: how local procedures are put together.
-/
import AgentCorp.Lib.Proc

namespace KeyedLog

variable {σ ε α α' β γ κ ρ : Type} [DecidableEq κ]

/-- The rows of a key. -/
def rowsOf (key : β → κ) (k : κ) (rows : List β) : List β :=
  rows.filter fun row => key row = k

/-- A run that is over. -/
def ended (s : σ) : Except ε α → EStateM.Result ε σ α
  | .ok a => .ok a s
  | .error e => .error e s

def Local (put : γ → List β → ρ → σ) (key : β → κ) (k : κ) (p : Proc σ ε α) : Prop :=
  ∀ own rest, ∃ r added rest', (∀ row ∈ added, key row = k) ∧
    ∀ inert rows, rowsOf key k rows = own →
      p.run (put inert rows rest) = ended (put inert (rows ++ added) rest') r

theorem rowsOf_append {key : β → κ} {k : κ} {rows added : List β}
    (h : ∀ row ∈ added, key row = k) :
    rowsOf key k (rows ++ added) = rowsOf key k rows ++ added := by
  have hall : added.filter (fun row => key row = k) = added :=
    List.filter_eq_self.mpr fun row hrow => decide_eq_true (h row hrow)
  unfold rowsOf
  rw [List.filter_append, hall]

section Rules

variable {put : γ → List β → ρ → σ} {key : β → κ} {k : κ}

/-- A procedure that reads no rows. -/
theorem Local.ofRun {p : Proc σ ε α}
    (h : ∀ rest, ∃ r added rest', (∀ row ∈ added, key row = k) ∧
      ∀ inert rows, p.run (put inert rows rest) = ended (put inert (rows ++ added) rest') r) :
    Local put key k p := by
  intro own rest
  obtain ⟨r, added, rest', hadded, hrun⟩ := h rest
  exact ⟨r, added, rest', hadded, fun inert rows _ => hrun inert rows⟩

/-- A procedure that leaves the log alone. -/
theorem Local.ofRest {p : Proc σ ε α}
    (h : ∀ rest, ∃ r rest', ∀ inert rows,
      p.run (put inert rows rest) = ended (put inert rows rest') r) : Local put key k p := by
  refine Local.ofRun fun rest => ?_
  obtain ⟨r, rest', hrun⟩ := h rest
  refine ⟨r, [], rest', by simp, fun inert rows => ?_⟩
  rw [List.append_nil]
  exact hrun inert rows

theorem Local.pure (a : α) : Local put key k (pure a : Proc σ ε α) :=
  Local.ofRest fun rest => ⟨.ok a, rest, fun _ _ => rfl⟩

theorem Local.throw (e : ε) : Local put key k (throw e : Proc σ ε α) :=
  Local.ofRest fun rest => ⟨.error e, rest, fun _ _ => rfl⟩

theorem Local.ofExcept (r : Except ε α) : Local put key k (Proc.ofExcept r) :=
  Local.ofRest fun rest => ⟨r, rest, fun _ _ => by cases r <;> rfl⟩

theorem Local.bind {p : Proc σ ε α} {f : α → Proc σ ε α'} (hp : Local put key k p)
    (hf : ∀ a, Local put key k (f a)) : Local put key k (p >>= f) := by
  intro own rest
  obtain ⟨r, added, rest', hadded, hrun⟩ := hp own rest
  cases r with
  | error e =>
      exact ⟨.error e, added, rest', hadded,
        fun inert rows hrows => Proc.run_bind_of_error (hrun inert rows hrows)⟩
  | ok a =>
      obtain ⟨r, added', rest'', hadded', hrun'⟩ := hf a (own ++ added) rest'
      refine ⟨r, added ++ added', rest'', ?_, fun inert rows hrows => ?_⟩
      · exact fun row hrow => (List.mem_append.mp hrow).elim (hadded row) (hadded' row)
      · rw [Proc.run_bind_of_ok (hrun inert rows hrows), ← List.append_assoc]
        exact hrun' inert (rows ++ added) (by rw [rowsOf_append hadded, hrows])

theorem Local.tryCatch {p : Proc σ ε α} {handler : ε → Proc σ ε α} (hp : Local put key k p)
    (hhandler : ∀ e, Local put key k (handler e)) :
    Local put key k (tryCatch p handler) := by
  intro own rest
  obtain ⟨r, added, rest', hadded, hrun⟩ := hp own rest
  cases r with
  | ok a =>
      refine ⟨.ok a, added, rest', hadded, fun inert rows hrows => ?_⟩
      rw [Proc.run_tryCatch, hrun inert rows hrows]
      rfl
  | error e =>
      obtain ⟨r, added', rest'', hadded', hrun'⟩ := hhandler e (own ++ added) rest'
      refine ⟨r, added ++ added', rest'', ?_, fun inert rows hrows => ?_⟩
      · exact fun row hrow => (List.mem_append.mp hrow).elim (hadded row) (hadded' row)
      · rw [Proc.run_tryCatch, hrun inert rows hrows, ← List.append_assoc]
        exact hrun' inert (rows ++ added) (by rw [rowsOf_append hadded, hrows])

/-- A procedure that reads the rows of its key and goes on. -/
theorem Local.getBind {f : σ → Proc σ ε α} {g : List β → ρ → Proc σ ε α}
    (hf : ∀ inert rows rest, f (put inert rows rest) = g (rowsOf key k rows) rest)
    (hg : ∀ own rest, Local put key k (g own rest)) : Local put key k (get >>= f) := by
  intro own rest
  obtain ⟨r, added, rest', hadded, hrun⟩ := hg own rest own rest
  refine ⟨r, added, rest', hadded, fun inert rows hrows => ?_⟩
  rw [EStateM.run_bind, EStateM.run_get]
  dsimp only
  rw [hf, hrows]
  exact hrun inert rows hrows

end Rules

end KeyedLog
