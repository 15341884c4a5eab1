/-
  Tables of rows under ids that a sequence hands out.

  An id is used once: `next` is above every id of the table. `select` lists rows in the order of
  the table, `get` looks one up by its id.

  * `get_insert`, `get_modify`: what a change does to a lookup.
  * `select_insert`, `select_modify_drop`: what it does to a selection.
  * `mapRows`: a change of all rows, and the changes it commutes with.
-/
import Mathlib.Data.List.Basic
import Mathlib.Data.List.Nodup

structure Table (α : Type) where
  rows : List (Nat × α)
  next : Nat
  lt_next : ∀ row ∈ rows, row.1 < next
  nodup : (rows.map (·.1)).Nodup

namespace Table

variable {α : Type}

def empty : Table α where
  rows := []
  next := 0
  lt_next := fun _ hrow => nomatch hrow
  nodup := List.nodup_nil

/-- The row under an id. -/
def get (t : Table α) (id : Nat) : Option α :=
  t.rows.lookup id

/-- The rows that satisfy a condition, with their ids. -/
def select (t : Table α) (p : α → Bool) : List (Nat × α) :=
  t.rows.filter fun row => p row.2

/-- The first row of a selection. -/
def first (t : Table α) (p : α → Bool) : Option (Nat × α) :=
  (t.select p).head?

/-- A new row, under the next id. -/
def insert (t : Table α) (a : α) : Table α where
  rows := t.rows ++ [(t.next, a)]
  next := t.next + 1
  lt_next := by
    intro row hrow
    rcases List.mem_append.mp hrow with hold | hnew
    · have hlt := t.lt_next row hold
      omega
    · rw [List.mem_singleton.mp hnew]
      exact Nat.lt_succ_self _
  nodup := by
    rw [List.map_append, List.nodup_append]
    refine ⟨t.nodup, List.nodup_singleton _, ?_⟩
    intro id hid id' hid' heq
    obtain ⟨row, hrow, rfl⟩ := List.mem_map.mp hid
    have hlt := t.lt_next row hrow
    have hnext : id' = t.next := List.mem_singleton.mp hid'
    omega

/-- New rows, one after the other. -/
def insertAll (t : Table α) (l : List α) : Table α :=
  l.foldl insert t

/-- They have the next ids, in order. -/
theorem insertAll_rows (t : Table α) (l : List α) :
    (t.insertAll l).rows = t.rows ++ (List.range' t.next l.length).zip l := by
  induction l generalizing t with
  | nil => exact (List.append_nil _).symm
  | cons a l ih =>
      show ((t.insert a).insertAll l).rows = _
      rw [ih, List.length_cons, List.range'_succ, List.zip_cons_cons]
      exact List.append_assoc t.rows [(t.next, a)] _

/-- The row under an id, changed. -/
def modify (t : Table α) (id : Nat) (f : α → α) : Table α where
  rows := t.rows.map fun row => if row.1 = id then (row.1, f row.2) else row
  next := t.next
  lt_next := by
    intro row hrow
    obtain ⟨old, hold, rfl⟩ := List.mem_map.mp hrow
    have hlt := t.lt_next old hold
    split <;> exact hlt
  nodup := by
    have hids : (t.rows.map fun row => if row.1 = id then (row.1, f row.2) else row).map (·.1) =
        t.rows.map (·.1) := by
      rw [List.map_map]
      apply List.map_congr_left
      intro row _
      dsimp only [Function.comp]
      split <;> rfl
    rw [hids]
    exact t.nodup

/-- The table without the row under an id. The id is not used again. -/
def delete (t : Table α) (id : Nat) : Table α where
  rows := t.rows.filter fun row => row.1 ≠ id
  next := t.next
  lt_next := fun row hrow => t.lt_next row (List.mem_filter.mp hrow).1
  nodup := (List.filter_sublist.map _).nodup t.nodup

/-! ## Lookups -/

theorem lookup_cons {κ : Type} [DecidableEq κ] (entry : κ × α) (l : List (κ × α)) (k : κ) :
    (entry :: l).lookup k = if k = entry.1 then some entry.2 else l.lookup k := by
  rw [List.lookup_cons]
  by_cases hk : k = entry.1
  · rw [if_pos hk, beq_iff_eq.mpr hk]
  · rw [if_neg hk, beq_eq_false_iff_ne.mpr hk]

/-- Under distinct keys, what is in the list is what is found. -/
theorem mem_iff_lookup {κ : Type} [DecidableEq κ] {l : List (κ × α)} (h : (l.map (·.1)).Nodup)
    {k : κ} {a : α} : (k, a) ∈ l ↔ l.lookup k = some a := by
  induction l with
  | nil => simp
  | cons entry l ih =>
      rw [List.map_cons, List.nodup_cons] at h
      rw [List.mem_cons, lookup_cons, ih h.2]
      by_cases hk : k = entry.1
      · have hnone : l.lookup k ≠ some a := by
          intro hfound
          have hmem := (ih h.2).mpr hfound
          exact h.1 (List.mem_map.mpr ⟨(k, a), hmem, hk⟩)
        rw [if_pos hk, or_iff_left hnone, Prod.ext_iff, Option.some_inj]
        exact ⟨fun heq => heq.2.symm, fun heq => ⟨hk, heq.symm⟩⟩
      · have hne : (k, a) ≠ entry := fun heq => hk (congrArg (·.1) heq)
        rw [if_neg hk, or_iff_right hne]

theorem mem_rows_iff {t : Table α} {id : Nat} {a : α} : (id, a) ∈ t.rows ↔ t.get id = some a :=
  mem_iff_lookup t.nodup

theorem get_lt {t : Table α} {id : Nat} {a : α} (h : t.get id = some a) : id < t.next :=
  t.lt_next _ (mem_rows_iff.mpr h)

theorem get_next (t : Table α) : t.get t.next = none := by
  rw [Option.eq_none_iff_forall_ne_some]
  intro a ha
  exact absurd (get_lt ha) (Nat.lt_irrefl _)

theorem get_insert (t : Table α) (a : α) (id : Nat) :
    (t.insert a).get id = if id = t.next then some a else t.get id := by
  have hlast : [(t.next, a)].lookup id = if id = t.next then some a else none :=
    lookup_cons (t.next, a) [] id
  show (t.rows ++ [(t.next, a)]).lookup id = _
  rw [List.lookup_append, hlast]
  by_cases hid : id = t.next
  · have hnone : t.rows.lookup id = none := by
      rw [hid]
      exact get_next t
    rw [if_pos hid, if_pos hid, hnone]
    rfl
  · rw [if_neg hid, if_neg hid, Option.or_none]
    rfl

theorem lookup_map_at {κ : Type} [DecidableEq κ] (l : List (κ × α)) (id : κ) (f : α → α) (id' : κ) :
    (l.map fun row => if row.1 = id then (row.1, f row.2) else row).lookup id' =
      if id' = id then (l.lookup id).map f else l.lookup id' := by
  induction l with
  | nil => simp
  | cons row l ih =>
      rw [List.map_cons, lookup_cons, lookup_cons, lookup_cons, ih]
      by_cases hrow : row.1 = id
      · by_cases hid : id' = id
        · simp [hrow, hid]
        · simp [hrow, hid]
      · by_cases hid : id' = id
        · have hne : ¬ id = row.1 := fun heq => hrow heq.symm
          simp [hrow, hid, hne]
        · simp [hrow, hid]

theorem get_modify (t : Table α) (id : Nat) (f : α → α) (id' : Nat) :
    (t.modify id f).get id' = if id' = id then (t.get id).map f else t.get id' :=
  lookup_map_at t.rows id f id'

/-! ## Selections -/

theorem mem_select {t : Table α} {p : α → Bool} {id : Nat} {a : α} :
    (id, a) ∈ t.select p ↔ t.get id = some a ∧ p a = true := by
  rw [select, List.mem_filter, mem_rows_iff]

theorem first_eq_some {t : Table α} {p : α → Bool} {id : Nat} {a : α}
    (h : t.first p = some (id, a)) : t.get id = some a ∧ p a = true :=
  mem_select.mp (List.mem_of_head? h)

theorem select_insert (t : Table α) (a : α) (p : α → Bool) :
    (t.insert a).select p = t.select p ++ if p a then [(t.next, a)] else [] := by
  show List.filter _ (t.rows ++ [(t.next, a)]) = _
  rw [List.filter_append, List.filter_cons]
  rfl

/-- A change that takes the row out. -/
theorem select_modify_drop {t : Table α} {p : α → Bool} {id : Nat} {f : α → α}
    (h : ∀ a, p (f a) = false) :
    (t.modify id f).select p = (t.select p).filter fun row => row.1 ≠ id := by
  show (t.rows.map _).filter _ = (t.rows.filter _).filter _
  induction t.rows with
  | nil => rfl
  | cons row l ih =>
      rw [List.map_cons, List.filter_cons, List.filter_cons, ih]
      by_cases hid : row.1 = id
      · by_cases hp : p row.2 = true
        · simp [hid, hp, h]
        · simp [hid, hp, h]
      · by_cases hp : p row.2 = true
        · simp [hid, hp]
        · simp [hid, hp]

/-- What a change leaves in every row, it leaves in all of them. -/
theorem map_rows_modify {β : Type} {g : α → β} {f : α → α} (h : ∀ a, g (f a) = g a) (t : Table α)
    (id : Nat) :
    ((t.modify id f).rows.map fun row => g row.2) = t.rows.map fun row => g row.2 := by
  show (t.rows.map _).map _ = _
  rw [List.map_map]
  apply List.map_congr_left
  intro row _
  dsimp only [Function.comp]
  split
  · exact h row.2
  · rfl

/-! ## A change of all rows -/

theorem ext {t t' : Table α} (hrows : t.rows = t'.rows) (hnext : t.next = t'.next) : t = t' := by
  cases t
  cases t'
  subst hrows
  subst hnext
  rfl

/-- Every row changed, under its id. -/
def mapRows (t : Table α) (f : α → α) : Table α where
  rows := t.rows.map fun row => (row.1, f row.2)
  next := t.next
  lt_next := by
    intro row hrow
    obtain ⟨old, hold, rfl⟩ := List.mem_map.mp hrow
    exact t.lt_next old hold
  nodup := by
    rw [List.map_map]
    exact t.nodup

variable (t : Table α) (f : α → α)

theorem get_mapRows (id : Nat) : (t.mapRows f).get id = (t.get id).map f := by
  show (t.rows.map fun row => (row.1, f row.2)).lookup id = (t.rows.lookup id).map f
  induction t.rows with
  | nil => rfl
  | cons row l ih =>
      rw [List.map_cons, lookup_cons, lookup_cons, ih]
      split <;> rfl

theorem select_mapRows {p : α → Bool} (h : ∀ a, p (f a) = p a) :
    (t.mapRows f).select p = (t.select p).map fun row => (row.1, f row.2) := by
  show (t.rows.map _).filter _ = (t.rows.filter _).map _
  rw [List.filter_map]
  congr 1
  apply List.filter_congr
  intro row _
  exact h row.2

theorem mapRows_insert {a : α} (h : f a = a) :
    (t.mapRows f).insert a = (t.insert a).mapRows f := by
  refine ext ?_ rfl
  show t.rows.map _ ++ [(t.next, a)] = (t.rows ++ [(t.next, a)]).map _
  rw [List.map_append, List.map_singleton, h]

theorem mapRows_modify (id : Nat) {g : α → α} (h : ∀ a, g (f a) = f (g a)) :
    (t.mapRows f).modify id g = (t.modify id g).mapRows f := by
  refine ext ?_ rfl
  show (t.rows.map _).map _ = (t.rows.map _).map _
  rw [List.map_map, List.map_map]
  apply List.map_congr_left
  intro row _
  dsimp only [Function.comp]
  split
  · rw [h]
  · rfl

end Table
