/-
  A list cut into runs, each of which starts with the last element of the one before.

  `cut` reads the list once and closes a run as soon as it is too full for the next element.

  * `merge_cut`, `isChain_cut`: the runs of `cut` cover the list and are linked.
  * `cut_eq`: they are the only linked runs that are closed when, and only when, they are full.
-/
import Mathlib.Data.List.Basic
import Mathlib.Data.List.Chain

namespace LinkedRuns

variable {α : Type}

/-- The list that the runs cover: the first one, and the others without what they repeat. -/
def merge : List (List α) → List α
  | [] => []
  | run :: runs => run ++ runs.flatMap List.tail

/-- `next` starts with the last element of `run`, and goes on. -/
def Linked (run next : List α) : Prop :=
  ∃ a b rest, run.getLast? = some a ∧ next = a :: b :: rest

theorem mem_merge {a : α} {runs : List (List α)} (h : a ∈ merge runs) : ∃ run ∈ runs, a ∈ run := by
  match runs with
  | [] => cases h
  | run :: runs =>
      rcases List.mem_append.mp h with hfirst | hother
      · exact ⟨run, List.mem_cons_self, hfirst⟩
      · obtain ⟨next, hnext, ha⟩ := List.mem_flatMap.mp hother
        exact ⟨next, List.mem_cons_of_mem _ hnext, List.mem_of_mem_tail ha⟩

/-- A run that is not the first one goes on from another. -/
theorem two_le_length {runs : List (List α)} (h : runs.IsChain Linked) :
    ∀ next ∈ runs.tail, 2 ≤ next.length := by
  induction runs with
  | nil => simp
  | cons run runs ih =>
      match runs with
      | [] => simp
      | next :: runs =>
          obtain ⟨hlinked, hrest⟩ := List.isChain_cons_cons.mp h
          obtain ⟨a, b, rest, -, rfl⟩ := hlinked
          exact List.forall_mem_cons.mpr ⟨by simp, ih hrest⟩

section Cut

variable (full : List α → α → Prop)

/-- `run` was full when `next` went on. -/
def Closed (run next : List α) : Prop :=
  ∃ a b rest, run.getLast? = some a ∧ next = a :: b :: rest ∧ full run b

/-- The run was nowhere full before it ended. -/
def Open (run : List α) : Prop :=
  ∀ current a more, run = current ++ a :: more → current ≠ [] → ¬ full current a

theorem Closed.linked {run next : List α} (h : Closed full run next) : Linked run next := by
  obtain ⟨a, b, rest, hlast, hnext, -⟩ := h
  exact ⟨a, b, rest, hlast, hnext⟩

/-- What is left of a list that the first run covers. -/
theorem others_eq_nil {others : List (List α)} {run : List α}
    (hchain : (run :: others).IsChain (Closed full)) (h : others.flatMap List.tail = []) :
    others = [] := by
  match others with
  | [] => rfl
  | next :: others =>
      obtain ⟨a, b, rest, -, rfl, -⟩ := (List.isChain_cons_cons.mp hchain).1
      simp at h

variable [∀ current a, Decidable (full current a)]

/-- The runs of a list of which `current` has been read. -/
def cut (current : List α) : List α → List (List α)
  | [] => [current]
  | a :: rest =>
      if full current a then current :: cut (current.getLast?.toList ++ [a]) rest
      else cut (current ++ [a]) rest

/-- The first run goes on from what has been read. -/
theorem cut_cons (current rest : List α) :
    ∃ more others, cut full current rest = (current ++ more) :: others := by
  induction rest generalizing current with
  | nil => exact ⟨[], [], by simp [cut]⟩
  | cons a rest ih =>
      unfold cut
      split
      · exact ⟨[], _, by rw [List.append_nil]⟩
      · obtain ⟨more, others, hcut⟩ := ih (current ++ [a])
        exact ⟨a :: more, others, by rw [hcut, List.append_assoc]; rfl⟩

theorem exists_getLast? {current : List α} (h : current ≠ []) : ∃ a, current.getLast? = some a :=
  ⟨current.getLast h, List.getLast?_eq_some_getLast h⟩

theorem merge_cut {current : List α} (h : current ≠ []) (rest : List α) :
    merge (cut full current rest) = current ++ rest := by
  induction rest generalizing current with
  | nil => simp [cut, merge]
  | cons a rest ih =>
      unfold cut
      split
      · obtain ⟨b, hlast⟩ := exists_getLast? h
        rw [hlast]
        have hrest := ih (List.cons_ne_nil b [a])
        obtain ⟨more, others, hcut⟩ := cut_cons full [b, a] rest
        show merge (current :: cut full [b, a] rest) = _
        rw [hcut] at hrest ⊢
        have htail : a :: more ++ others.flatMap List.tail = a :: rest := by
          simpa [merge] using hrest
        simp [merge, ← htail]
      · rw [ih (by simp), List.append_assoc]
        rfl

theorem isChain_cut {current : List α} (h : current ≠ []) (rest : List α) :
    (cut full current rest).IsChain (Closed full) := by
  induction rest generalizing current with
  | nil => exact List.isChain_singleton _
  | cons a rest ih =>
      unfold cut
      split
      · next hfull =>
          obtain ⟨b, hlast⟩ := exists_getLast? h
          rw [hlast]
          have hrest := ih (List.cons_ne_nil b [a])
          obtain ⟨more, others, hcut⟩ := cut_cons full [b, a] rest
          show (current :: cut full [b, a] rest).IsChain _
          rw [hcut] at hrest ⊢
          exact List.isChain_cons_cons.mpr ⟨⟨b, a, more, hlast, rfl, hfull⟩, hrest⟩
      · exact ih (by simp)

/-- **The runs are determined** by when they are full. -/
theorem cut_eq {current more rest : List α} {others : List (List α)} (h : current ≠ [])
    (hmerge : merge ((current ++ more) :: others) = current ++ rest)
    (hchain : ((current ++ more) :: others).IsChain (Closed full))
    (hopen : ∀ run ∈ (current ++ more) :: others, Open full run) :
    cut full current rest = (current ++ more) :: others := by
  induction rest generalizing current more others with
  | nil =>
      have hnone : more = [] ∧ others.flatMap List.tail = [] := by
        simpa [merge] using hmerge
      rw [others_eq_nil full hchain hnone.2, hnone.1, List.append_nil]
      rfl
  | cons a rest ih =>
      have hrest : more ++ others.flatMap List.tail = a :: rest := by
        simpa [merge] using hmerge
      unfold cut
      match more with
      | b :: more =>
          -- The first run goes on, so it is not full yet.
          obtain ⟨rfl, hrest⟩ := List.cons.inj hrest
          have hnot : ¬ full current b := hopen _ List.mem_cons_self current b more rfl h
          have hshift : current ++ b :: more = current ++ [b] ++ more := by simp
          rw [if_neg hnot]
          rw [hshift] at hchain hopen ⊢
          exact ih (by simp) (by simp [merge, hrest]) hchain hopen
      | [] =>
          match others with
          | [] => simp at hrest
          | next :: others =>
              obtain ⟨hclosed, hchain⟩ := List.isChain_cons_cons.mp hchain
              obtain ⟨c, b, tail, hlast, rfl, hfull⟩ := hclosed
              rw [List.append_nil] at hlast hfull hopen ⊢
              obtain ⟨rfl, htail⟩ : b = a ∧ tail ++ others.flatMap List.tail = rest := by
                simpa using hrest
              have hmerged : merge ((c :: [b] ++ tail) :: others) = c :: [b] ++ rest := by
                simp [merge, htail]
              have hcut := ih (List.cons_ne_nil c [b]) hmerged hchain fun run hrun =>
                hopen run (List.mem_cons_of_mem _ hrun)
              rw [if_pos hfull, hlast]
              exact congrArg (current :: ·) hcut

end Cut

end LinkedRuns
