/-
  Python code that reads and changes a state: a procedure that may raise a `BaseException`.
-/
import AgentCorp.Lib.Proc
import AgentCorp.Python.Values

namespace AgentCorp.Python

abbrev Py (σ α : Type) := Proc σ BaseExn α

namespace Py

variable {σ α : Type}

/-- `raise exc`. -/
def raise (exc : Exn) : Py σ α :=
  throw (.exception exc)

/-- A call that only computes. -/
def ofResult (r : Except Exn α) : Py σ α :=
  Proc.ofExcept (r.mapError .exception)

@[simp] theorem ofResult_ok_bind {β : Type} (a : α) (f : α → Py σ β) :
    (ofResult (.ok a) >>= f) = f a := rfl

@[simp] theorem ofResult_error_bind {β : Type} (exc : Exn) (f : α → Py σ β) :
    (ofResult (.error exc) >>= f) = raise exc := rfl

theorem run_ofResult {r : Except Exn α} {s t : σ} {a : α} :
    (ofResult r : Py σ α).run s = .ok a t ↔ r = .ok a ∧ t = s := by
  unfold ofResult
  rw [Proc.run_ofExcept]
  cases r <;> simp [Except.mapError]

theorem run_ofResult_bind {β : Type} {r : Except Exn α} {f : α → Py σ β} {s t : σ} {b : β} :
    (ofResult r >>= f).run s = .ok b t ↔ ∃ a, r = .ok a ∧ (f a).run s = .ok b t := by
  cases r with
  | ok a => simp
  | error exc => exact iff_of_false nofun fun ⟨_, h, _⟩ => nomatch h

end Py

end AgentCorp.Python
