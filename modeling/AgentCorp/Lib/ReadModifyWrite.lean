/-
  A counter that clients increment by reading it and writing the sum back.

  A write stores what its client has read plus its amount, whatever is stored by then.

  * `value_of_undisturbed`: if no write falls between a write and the read it is based on, the
    counter holds its first value plus all amounts.
  * `value_lt_of_disturbed`: under positive amounts, it holds less otherwise.
-/
import Mathlib.Algebra.BigOperators.Group.List.Basic
import Mathlib.Algebra.Order.Monoid.Defs
import Mathlib.Data.List.Induction
import Mathlib.Logic.Function.Basic

namespace ReadModifyWrite

variable {ι : Type} [DecidableEq ι] {M : Type}

inductive Access (ι : Type) where
  | read (i : ι)
  | write (i : ι)
  deriving DecidableEq, Repr

/-- The counter, and what each client has read and not yet written back. -/
structure Cell (ι M : Type) where
  value : M
  seen : ι → Option M

def Cell.readBy (s : Cell ι M) (i : ι) : Cell ι M :=
  { s with seen := Function.update s.seen i (some s.value) }

/-- A client writes back what it has read plus an amount. -/
def Cell.writeBy [Add M] (s : Cell ι M) (i : ι) (seen amount : M) : Cell ι M :=
  { value := seen + amount, seen := Function.update s.seen i none }

/-- A run of clients on the counter. -/
inductive Runs [Add M] (amount : ι → M) : Cell ι M → List (Access ι) → Cell ι M → Prop
  | nil (s : Cell ι M) : Runs amount s [] s
  | read {s t : Cell ι M} {i : ι} {rest : List (Access ι)} (h : Runs amount (s.readBy i) rest t) :
      Runs amount s (.read i :: rest) t
  | write {s t : Cell ι M} {i : ι} {v : M} {rest : List (Access ι)} (hseen : s.seen i = some v)
      (h : Runs amount (s.writeBy i v (amount i)) rest t) : Runs amount s (.write i :: rest) t

/-- No write of the accesses. -/
def NoWrite (accesses : List (Access ι)) : Prop :=
  ∀ j, Access.write j ∉ accesses

/-- Every write comes after a read of its client, with no write in between. -/
def Undisturbed (trace : List (Access ι)) : Prop :=
  ∀ before i after, trace = before ++ .write i :: after →
    ∃ start since, before = start ++ .read i :: since ∧ NoWrite since

/-- The sum of the amounts that a trace writes. -/
def written [AddMonoid M] (amount : ι → M) (trace : List (Access ι)) : M :=
  (trace.map fun
    | .read _ => 0
    | .write i => amount i).sum

/-! ## Reads -/

theorem seen_readBy_self (s : Cell ι M) (i : ι) : (s.readBy i).seen i = some s.value :=
  Function.update_self ..

theorem seen_readBy_of_ne (s : Cell ι M) {i j : ι} (h : j ≠ i) :
    (s.readBy i).seen j = s.seen j :=
  Function.update_of_ne h ..

theorem seen_writeBy_self [Add M] (s : Cell ι M) (i : ι) (seen amount : M) :
    (s.writeBy i seen amount).seen i = none :=
  Function.update_self ..

theorem seen_writeBy_of_ne [Add M] (s : Cell ι M) {i j : ι} (h : j ≠ i) (seen amount : M) :
    (s.writeBy i seen amount).seen j = s.seen j :=
  Function.update_of_ne h ..

/-! ## Runs -/

section Runs

variable [Add M] {amount : ι → M} {s t : Cell ι M} {i : ι} {trace before after : List (Access ι)}

theorem runs_append : Runs amount s (before ++ after) t ↔
    ∃ m, Runs amount s before m ∧ Runs amount m after t := by
  constructor
  · intro h
    induction before generalizing s with
    | nil => exact ⟨s, .nil s, h⟩
    | cons access before ih =>
        cases h with
        | read h =>
            obtain ⟨m, hbefore, hafter⟩ := ih h
            exact ⟨m, .read hbefore, hafter⟩
        | write hseen h =>
            obtain ⟨m, hbefore, hafter⟩ := ih h
            exact ⟨m, .write hseen hbefore, hafter⟩
  · rintro ⟨m, hbefore, hafter⟩
    induction hbefore with
    | nil s => exact hafter
    | read _ ih => exact .read (ih hafter)
    | write hseen _ ih => exact .write hseen (ih hafter)

/-- The last access of a run. -/
theorem runs_concat_read : Runs amount s (trace ++ [.read i]) t ↔
    ∃ m, Runs amount s trace m ∧ t = m.readBy i := by
  rw [runs_append]
  constructor
  · rintro ⟨m, htrace, hlast⟩
    cases hlast with
    | read h => cases h with | nil => exact ⟨m, htrace, rfl⟩
  · rintro ⟨m, htrace, rfl⟩
    exact ⟨m, htrace, .read (.nil _)⟩

theorem runs_concat_write : Runs amount s (trace ++ [.write i]) t ↔
    ∃ m v, Runs amount s trace m ∧ m.seen i = some v ∧
      t = m.writeBy i v (amount i) := by
  rw [runs_append]
  constructor
  · rintro ⟨m, htrace, hlast⟩
    cases hlast with
    | write hseen h => cases h with | nil => exact ⟨m, _, htrace, hseen, rfl⟩
  · rintro ⟨m, v, htrace, hseen, rfl⟩
    exact ⟨m, htrace, .write hseen (.nil _)⟩

/-- What a client has read stays current as long as nobody writes. -/
theorem seen_of_noWrite (h : Runs amount s trace t) (hnone : NoWrite trace)
    (hseen : s.seen i = some s.value) : t.seen i = some t.value := by
  induction h with
  | nil s => exact hseen
  | @read s t j rest h ih =>
      have hrest : NoWrite rest := fun k hk => hnone k (List.mem_cons_of_mem _ hk)
      refine ih hrest ?_
      by_cases hij : i = j
      · rw [hij]
        exact seen_readBy_self s j
      · rw [seen_readBy_of_ne s hij]
        exact hseen
  | @write s t j v rest hread h ih => exact absurd (List.mem_cons_self ..) (hnone j)

end Runs

omit [DecidableEq ι] in
theorem Undisturbed.of_append {before after : List (Access ι)} (h : Undisturbed (before ++ after)) :
    Undisturbed before := by
  intro start i since hsplit
  exact h start i (since ++ after) (by rw [hsplit, List.append_assoc]; rfl)

omit [DecidableEq ι] in
/-- A client that reads and writes without another in between disturbs nothing. -/
theorem Undisturbed.concat {trace : List (Access ι)} (h : Undisturbed trace) (i : ι) :
    Undisturbed (trace ++ [.read i, .write i]) := by
  intro before j after hsplit
  rcases List.append_eq_append_iff.mp hsplit with ⟨mid, rfl, hmid⟩ | ⟨mid, rfl, hmid⟩
  · cases mid with
    | nil => cases hmid
    | cons access mid =>
        cases mid with
        | nil =>
            obtain ⟨rfl, hwrite⟩ := List.cons.inj hmid
            obtain rfl := Access.write.inj (List.cons.inj hwrite).1
            exact ⟨trace, [], rfl, fun _ hk => absurd hk List.not_mem_nil⟩
        | cons access' mid =>
            have hlength := congrArg List.length hmid
            simp only [List.length_cons, List.length_append, List.length_nil] at hlength
            omega
  · cases mid with
    | nil => cases hmid
    | cons access mid =>
        obtain ⟨rfl, -⟩ := List.cons.inj hmid
        exact h before j mid rfl

omit [DecidableEq ι] in
theorem undisturbed_nil : Undisturbed ([] : List (Access ι)) := by
  intro before i after hsplit
  have hlength := congrArg List.length hsplit
  simp at hlength

/-! ## No lost amount -/

section Sum

variable [AddCommMonoid M] {amount : ι → M} {s t : Cell ι M} {trace : List (Access ι)}

omit [DecidableEq ι] in
theorem written_concat_read (amount : ι → M) (trace : List (Access ι)) (i : ι) :
    written amount (trace ++ [.read i]) = written amount trace := by
  simp [written]

omit [DecidableEq ι] in
theorem written_concat_write (amount : ι → M) (trace : List (Access ι)) (i : ι) :
    written amount (trace ++ [.write i]) = written amount trace + amount i := by
  simp [written]

omit [DecidableEq ι] in
theorem written_append (amount : ι → M) (before after : List (Access ι)) :
    written amount (before ++ after) = written amount before + written amount after := by
  simp [written]

omit [DecidableEq ι] in
theorem written_cons_read (amount : ι → M) (i : ι) (rest : List (Access ι)) :
    written amount (.read i :: rest) = written amount rest := by
  simp [written]

omit [DecidableEq ι] in
theorem written_cons_write (amount : ι → M) (i : ι) (rest : List (Access ι)) :
    written amount (.write i :: rest) = amount i + written amount rest := by
  simp [written]

/-- **Undisturbed runs count every amount.** -/
theorem value_of_undisturbed (h : Runs amount s trace t) (hu : Undisturbed trace) :
    t.value = s.value + written amount trace := by
  induction trace using List.reverseRecOn generalizing t with
  | nil =>
      cases h
      exact (add_zero _).symm
  | append_singleton trace access ih =>
      cases access with
      | read i =>
          obtain ⟨m, htrace, rfl⟩ := runs_concat_read.mp h
          have hvalue := ih htrace hu.of_append
          rw [written_concat_read]
          exact hvalue
      | write i =>
          obtain ⟨m, v, htrace, hseen, rfl⟩ := runs_concat_write.mp h
          have hvalue := ih htrace hu.of_append
          -- The write is based on a read that is still current.
          obtain ⟨start, since, hsplit, hnone⟩ := hu trace i [] rfl
          rw [hsplit, List.append_cons] at htrace
          obtain ⟨m', hread, hsince⟩ := runs_append.mp htrace
          obtain ⟨m'', -, rfl⟩ := runs_concat_read.mp hread
          have hcurrent := seen_of_noWrite hsince hnone (seen_readBy_self m'' i)
          obtain rfl : v = m.value := Option.some.inj (hseen.symm.trans hcurrent)
          show m.value + amount i = _
          rw [written_concat_write, hvalue, add_assoc]

end Sum

/-! ## Lost amounts -/

section Lost

variable [AddCommMonoid M] [PartialOrder M] [IsOrderedCancelAddMonoid M]
  {amount : ι → M} {s t : Cell ι M} {trace : List (Access ι)}

/-- What the counter holds and what the clients have read is at most what was written, and a read
    that a write has overtaken is less. -/
theorem seen_le (hpos : ∀ i, 0 < amount i) (hstart : ∀ i, s.seen i = none)
    (h : Runs amount s trace t) :
    t.value ≤ s.value + written amount trace ∧
      ∀ i v, t.seen i = some v → v ≤ s.value + written amount trace ∧
        ((∃ start since, trace = start ++ .read i :: since ∧ NoWrite since) ∨
          v < s.value + written amount trace) := by
  induction trace using List.reverseRecOn generalizing t with
  | nil =>
      cases h
      refine ⟨(add_zero s.value).ge, ?_⟩
      intro i v hseen
      rw [hstart i] at hseen
      cases hseen
  | append_singleton trace access ih =>
      cases access with
      | read i =>
          obtain ⟨m, htrace, rfl⟩ := runs_concat_read.mp h
          obtain ⟨hvalue, hseen⟩ := ih htrace
          rw [written_concat_read]
          refine ⟨hvalue, ?_⟩
          intro j v hj
          by_cases hji : j = i
          · subst hji
            rw [seen_readBy_self] at hj
            obtain rfl := Option.some.inj hj
            exact ⟨hvalue, .inl ⟨trace, [], rfl, fun _ hk => absurd hk List.not_mem_nil⟩⟩
          · rw [seen_readBy_of_ne m hji] at hj
            obtain ⟨hle, hcase⟩ := hseen j v hj
            refine ⟨hle, hcase.imp_left ?_⟩
            rintro ⟨start, since, rfl, hnone⟩
            refine ⟨start, since ++ [.read i], by simp, ?_⟩
            intro k hk
            rcases List.mem_append.mp hk with hk | hk
            · exact hnone k hk
            · cases List.mem_singleton.mp hk
      | write i =>
          obtain ⟨m, w, htrace, hw, rfl⟩ := runs_concat_write.mp h
          obtain ⟨-, hseen⟩ := ih htrace
          have hless : s.value + written amount trace <
              s.value + (written amount trace + amount i) := by
            rw [← add_assoc]
            exact lt_add_of_pos_right _ (hpos i)
          rw [written_concat_write]
          refine ⟨?_, ?_⟩
          · show w + amount i ≤ _
            rw [← add_assoc]
            exact add_le_add_left (hseen i w hw).1 (amount i)
          · intro j v hj
            by_cases hji : j = i
            · subst hji
              rw [seen_writeBy_self] at hj
              cases hj
            · rw [seen_writeBy_of_ne m hji] at hj
              have hlt := lt_of_le_of_lt (hseen j v hj).1 hless
              exact ⟨hlt.le, .inr hlt⟩

/-- What was lost stays lost: the counter and all reads stay below what was written. -/
theorem value_lt_of_lt (hpos : ∀ i, 0 < amount i) {after : List (Access ι)}
    (h : Runs amount s after t) {total : M} (hvalue : s.value < total)
    (hseen : ∀ i v, s.seen i = some v → v < total) : t.value < total + written amount after := by
  induction h generalizing total with
  | nil s => simpa [written] using hvalue
  | @read s t i rest h ih =>
      have hread : ∀ j v, (s.readBy i).seen j = some v → v < total := by
        intro j v hj
        by_cases hji : j = i
        · rw [hji, seen_readBy_self] at hj
          obtain rfl := Option.some.inj hj
          exact hvalue
        · rw [seen_readBy_of_ne s hji] at hj
          exact hseen j v hj
      have hrest := ih hvalue hread
      rw [written_cons_read]
      exact hrest
  | @write s t i w rest hw h ih =>
      have hless : total < total + amount i := lt_add_of_pos_right _ (hpos i)
      have hwrite : ∀ j v, (s.writeBy i w (amount i)).seen j = some v → v < total + amount i := by
        intro j v hj
        by_cases hji : j = i
        · rw [hji, seen_writeBy_self] at hj
          cases hj
        · rw [seen_writeBy_of_ne s hji] at hj
          exact lt_trans (hseen j v hj) hless
      have hrest := ih (add_lt_add_left (hseen i w hw) (amount i)) hwrite
      rw [written_cons_write, ← add_assoc]
      exact hrest

/-- **Disturbed runs lose an amount.** -/
theorem value_lt_of_disturbed (hpos : ∀ i, 0 < amount i) (hstart : ∀ i, s.seen i = none)
    (h : Runs amount s trace t) (hdisturbed : ¬ Undisturbed trace) :
    t.value < s.value + written amount trace := by
  unfold Undisturbed at hdisturbed
  push Not at hdisturbed
  obtain ⟨before, i, after, rfl, hlate⟩ := hdisturbed
  rw [List.append_cons] at h ⊢
  obtain ⟨m, hbefore, hafter⟩ := runs_append.mp h
  have hm := (seen_le hpos hstart hbefore).2
  obtain ⟨m', v, hbefore', hv, rfl⟩ := runs_concat_write.mp hbefore
  obtain ⟨hle, hcase⟩ := (seen_le hpos hstart hbefore').2 i v hv
  have hlt : v < s.value + written amount before := by
    rcases hcase with ⟨start, since, hsplit, hnone⟩ | hlt
    · exact absurd hnone (hlate start since hsplit)
    · exact hlt
  have hvalue : (m'.writeBy i v (amount i)).value <
      s.value + written amount (before ++ [.write i]) := by
    rw [written_concat_write, ← add_assoc]
    exact add_lt_add_left hlt (amount i)
  have hseen : ∀ j w, (m'.writeBy i v (amount i)).seen j = some w →
      w < s.value + written amount (before ++ [.write i]) := by
    intro j w hj
    obtain ⟨-, hcase⟩ := hm j w hj
    rcases hcase with ⟨start, since, hsplit, hnone⟩ | hlt
    · have hlast := congrArg List.getLast? hsplit
      rw [List.getLast?_concat, List.getLast?_append_cons] at hlast
      rcases List.mem_cons.mp (List.mem_of_getLast? hlast.symm) with hread | hsince
      · cases hread
      · exact absurd hsince (hnone i)
    · exact hlt
  have hfinal := value_lt_of_lt hpos hafter hvalue hseen
  rw [written_append, ← add_assoc]
  exact hfinal

end Lost

end ReadModifyWrite
