/-
  Facts that a log of events adds and takes back.

  A fact is live after a log if some event added it and no later one took it back, or if it was
  there before and no event took it back.

  * `live_concat`: the fact after one more event.
  * `holds_iff_live`: a system that treats a fact so at every step holds the live facts of its log.
-/
import Mathlib.Data.List.Induction

namespace LiveFacts

variable {ε φ : Type}

/-- Which events add a fact, and which take it back. -/
structure Ledger (ε φ : Type) where
  adds : ε → φ → Prop
  removes : ε → φ → Prop

/-- The facts after a log, with those that were there before. -/
def Live (L : Ledger ε φ) (before : φ → Prop) (log : List ε) (f : φ) : Prop :=
  (before f ∧ ∀ e ∈ log, ¬ L.removes e f) ∨
    ∃ earlier e later, log = earlier ++ e :: later ∧ L.adds e f ∧ ∀ e' ∈ later, ¬ L.removes e' f

variable {L : Ledger ε φ} {before : φ → Prop} {log : List ε} {e : ε} {f : φ}

theorem live_nil : Live L before [] f ↔ before f := by
  constructor
  · rintro (⟨h, -⟩ | ⟨earlier, e, later, hsplit, -⟩)
    · exact h
    · simp at hsplit
  · exact fun h => .inl ⟨h, fun e he => absurd he List.not_mem_nil⟩

theorem live_concat :
    Live L before (log ++ [e]) f ↔ L.adds e f ∨ (Live L before log f ∧ ¬ L.removes e f) := by
  constructor
  · rintro (⟨h, hkept⟩ | ⟨earlier, e', later, hsplit, hadds, hkept⟩)
    · rw [List.forall_mem_append, List.forall_mem_singleton] at hkept
      exact .inr ⟨.inl ⟨h, hkept.1⟩, hkept.2⟩
    · rcases List.eq_nil_or_concat later with rfl | ⟨later', last, rfl⟩
      · obtain ⟨-, rfl⟩ := List.append_inj' hsplit rfl |>.imp_right List.singleton_inj.mp
        exact .inl hadds
      · have hsplit' : log ++ [e] = (earlier ++ e' :: later') ++ [last] := by simpa using hsplit
        obtain ⟨rfl, hlast⟩ := List.append_inj' hsplit' rfl
        obtain rfl := List.singleton_inj.mp hlast
        rw [List.concat_eq_append, List.forall_mem_append, List.forall_mem_singleton] at hkept
        exact .inr ⟨.inr ⟨earlier, e', later', rfl, hadds, hkept.1⟩, hkept.2⟩
  · rintro (hadds | ⟨⟨h, hkept⟩ | ⟨earlier, e', later, rfl, hadds, hkept⟩, hlast⟩)
    · exact .inr ⟨log, e, [], rfl, hadds, fun e' he' => absurd he' List.not_mem_nil⟩
    · refine .inl ⟨h, ?_⟩
      rw [List.forall_mem_append, List.forall_mem_singleton]
      exact ⟨hkept, hlast⟩
    · refine .inr ⟨earlier, e', later ++ [e], by simp, hadds, ?_⟩
      rw [List.forall_mem_append, List.forall_mem_singleton]
      exact ⟨hkept, hlast⟩

/-- **Ledgers.** `after l` is the system after the inputs `l`, and `entries l` what they put into
    the log. -/
theorem holds_iff_live {σ ι : Type} (after : List ι → σ) (entries : List ι → List ε)
    (holds : σ → φ → Prop) (hnil : entries [] = [])
    (hstep : ∀ l i, ∃ e, entries (l ++ [i]) = entries l ++ [e] ∧
      ∀ f, holds (after (l ++ [i])) f ↔
        L.adds e f ∨ (holds (after l) f ∧ ¬ L.removes e f)) (l : List ι) (f : φ) :
    holds (after l) f ↔ Live L (holds (after [])) (entries l) f := by
  induction l using List.reverseRecOn with
  | nil => rw [hnil, live_nil]
  | append_singleton l i ih =>
      obtain ⟨e, hentries, hholds⟩ := hstep l i
      rw [hholds, hentries, live_concat, ih]

end LiveFacts
