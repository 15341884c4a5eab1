/-
  Tables under constraints: a unique column, and a reference to the rows of another table.

  * `has_insert`, `has_deleteWhere`: which rows a table holds after a change.
  * `Unique.insert`, `.modify`, `.deleteWhere`: the changes that keep a column unique.
  * `Refers.insert`, `.deleteWhere`, `.cascade`, `.insert_target`, `.modify_target`: the changes
    of either table that keep a reference. A deletion cascades.
-/
import AgentCorp.Lib.Table

namespace Table

variable {α β κ : Type}

/-- The table without the rows that satisfy a condition. Their ids are not used again. -/
def deleteWhere (t : Table α) (p : α → Bool) : Table α where
  rows := t.rows.filter fun row => !p row.2
  next := t.next
  lt_next := fun row hrow => t.lt_next row (List.mem_filter.mp hrow).1
  nodup := (List.filter_sublist.map _).nodup t.nodup

/-- Some row of the table satisfies the condition. -/
def any (t : Table α) (p : α → Bool) : Bool :=
  t.rows.any fun row => p row.2

/-- The table holds this row, under some id. -/
def Has (t : Table α) (a : α) : Prop :=
  ∃ id, t.get id = some a

/-- No two rows have the same value in this column. -/
def Unique (t : Table α) (column : α → κ) : Prop :=
  ∀ id id' a a', t.get id = some a → t.get id' = some a' → column a = column a' → id = id'

/-- Every row refers to a row of the target. -/
def Refers (t : Table α) (key : α → Nat) (target : Table β) : Prop :=
  ∀ a, t.Has a → ∃ b, target.get (key a) = some b

variable {t : Table α}

/-! ## Rows -/

theorem any_iff {p : α → Bool} : t.any p = true ↔ ∃ a, t.Has a ∧ p a = true := by
  unfold any
  rw [List.any_eq_true]
  constructor
  · intro ⟨row, hrow, hp⟩
    exact ⟨row.2, ⟨row.1, mem_rows_iff.mp hrow⟩, hp⟩
  · intro ⟨a, ⟨id, hget⟩, hp⟩
    exact ⟨(id, a), mem_rows_iff.mpr hget, hp⟩

theorem any_eq_false_iff {p : α → Bool} :
    t.any p = false ↔ ∀ id a, t.get id = some a → p a = false := by
  rw [← Bool.not_eq_true, any_iff]
  constructor
  · intro h id a hget
    exact Bool.eq_false_iff.mpr fun hp => h ⟨a, ⟨id, hget⟩, hp⟩
  · intro h ⟨a, ⟨id, hget⟩, hp⟩
    rw [h id a hget] at hp
    cases hp

theorem first_eq_none_iff {p : α → Bool} :
    t.first p = none ↔ ∀ id a, t.get id = some a → p a = false := by
  rw [← any_eq_false_iff]
  unfold first select any
  rw [List.head?_eq_none_iff, List.filter_eq_nil_iff, List.any_eq_false]

theorem get_deleteWhere (p : α → Bool) (id : Nat) (a : α) :
    (t.deleteWhere p).get id = some a ↔ t.get id = some a ∧ p a = false := by
  rw [← mem_rows_iff, ← mem_rows_iff]
  show (id, a) ∈ t.rows.filter _ ↔ _
  rw [List.mem_filter, Bool.not_eq_true']

theorem get_delete (id id' : Nat) (a : α) :
    (t.delete id).get id' = some a ↔ t.get id' = some a ∧ id' ≠ id := by
  rw [← mem_rows_iff, ← mem_rows_iff]
  show (id', a) ∈ t.rows.filter _ ↔ _
  rw [List.mem_filter, decide_eq_true_iff]

theorem has_insert {a b : α} : (t.insert a).Has b ↔ b = a ∨ t.Has b := by
  constructor
  · intro ⟨id, hget⟩
    rw [get_insert] at hget
    split at hget
    · exact .inl (Option.some.inj hget).symm
    · exact .inr ⟨id, hget⟩
  · rintro (rfl | ⟨id, hget⟩)
    · exact ⟨t.next, by rw [get_insert, if_pos rfl]⟩
    · have hne : id ≠ t.next := Nat.ne_of_lt (get_lt hget)
      exact ⟨id, by rw [get_insert, if_neg hne, hget]⟩

theorem has_insertAll {l : List α} {b : α} : (t.insertAll l).Has b ↔ b ∈ l ∨ t.Has b := by
  induction l generalizing t with
  | nil => exact (or_iff_right List.not_mem_nil).symm
  | cons a l ih =>
      show ((t.insert a).insertAll l).Has b ↔ _
      rw [ih, has_insert, List.mem_cons, or_left_comm, or_assoc]

theorem has_deleteWhere {p : α → Bool} {b : α} :
    (t.deleteWhere p).Has b ↔ t.Has b ∧ p b = false := by
  unfold Has
  simp only [get_deleteWhere, exists_and_right]

/-- The row of a deletion is gone, if it was there once. -/
theorem has_delete {id : Nat} {a b : α} (hget : t.get id = some a) (h : t.Unique fun a => a) :
    (t.delete id).Has b ↔ t.Has b ∧ b ≠ a := by
  constructor
  · intro ⟨id', hget'⟩
    obtain ⟨hb, hne⟩ := (get_delete id id' b).mp hget'
    exact ⟨⟨id', hb⟩, fun heq => hne (h id' id b a hb hget heq)⟩
  · intro ⟨⟨id', hb⟩, hne⟩
    refine ⟨id', (get_delete id id' b).mpr ⟨hb, fun heq => hne ?_⟩⟩
    rw [heq, hget] at hb
    exact (Option.some.inj hb).symm

theorem has_delete_of_none {id : Nat} {b : α} (hget : t.get id = none) :
    (t.delete id).Has b ↔ t.Has b := by
  constructor
  · intro ⟨id', hb⟩
    exact ⟨id', ((get_delete id id' b).mp hb).1⟩
  · intro ⟨id', hb⟩
    refine ⟨id', (get_delete id id' b).mpr ⟨hb, fun heq => ?_⟩⟩
    rw [heq, hget] at hb
    cases hb

theorem not_has_empty (a : α) : ¬ (empty : Table α).Has a :=
  fun ⟨_, h⟩ => nomatch h

theorem unique_empty (column : α → κ) : (empty : Table α).Unique column :=
  fun _ _ _ _ h => nomatch h

theorem refers_empty (key : α → Nat) (target : Table β) : (empty : Table α).Refers key target :=
  fun a h => absurd h (not_has_empty a)

/-! ## Unique columns -/

namespace Unique

variable {column : α → κ}

theorem insert (h : t.Unique column) {a : α}
    (hfresh : ∀ id b, t.get id = some b → column b ≠ column a) : (t.insert a).Unique column := by
  intro id id' b b' hb hb' heq
  rw [get_insert] at hb hb'
  split at hb <;> split at hb'
  · next hid hid' => rw [hid, hid']
  · obtain rfl := Option.some.inj hb
    exact absurd heq.symm (hfresh id' b' hb')
  · obtain rfl := Option.some.inj hb'
    exact absurd heq (hfresh id b hb)
  · exact h id id' b b' hb hb' heq

theorem insertAll (h : t.Unique fun a => a) {l : List α} (hl : l.Nodup)
    (hfresh : ∀ a ∈ l, ¬ t.Has a) : (t.insertAll l).Unique fun a => a := by
  induction l generalizing t with
  | nil => exact h
  | cons a l ih =>
      obtain ⟨ha, hl⟩ := List.nodup_cons.mp hl
      refine ih (h.insert fun id b hb heq => ?_) hl fun b hb hhas => ?_
      · exact hfresh a List.mem_cons_self ⟨id, heq ▸ hb⟩
      · rcases has_insert.mp hhas with rfl | hold
        · exact ha hb
        · exact hfresh b (List.mem_cons_of_mem _ hb) hold

theorem modify (h : t.Unique column) {id : Nat} {f : α → α}
    (hfresh : ∀ a, t.get id = some a → ∀ id' b, id' ≠ id → t.get id' = some b →
      column b ≠ column (f a)) : (t.modify id f).Unique column := by
  intro id₁ id₂ b₁ b₂ h₁ h₂ heq
  rw [get_modify] at h₁ h₂
  split at h₁ <;> split at h₂
  · next hid₁ hid₂ => rw [hid₁, hid₂]
  · next hne =>
      obtain ⟨a, ha, rfl⟩ := Option.map_eq_some_iff.mp h₁
      exact absurd heq.symm (hfresh a ha id₂ b₂ hne h₂)
  · next hne _ =>
      obtain ⟨a, ha, rfl⟩ := Option.map_eq_some_iff.mp h₂
      exact absurd heq (hfresh a ha id₁ b₁ hne h₁)
  · exact h id₁ id₂ b₁ b₂ h₁ h₂ heq

theorem deleteWhere (h : t.Unique column) (p : α → Bool) : (t.deleteWhere p).Unique column := by
  intro id id' a a' ha ha' heq
  exact h id id' a a' ((get_deleteWhere p id a).mp ha).1 ((get_deleteWhere p id' a').mp ha').1 heq

theorem delete (h : t.Unique column) (id : Nat) : (t.delete id).Unique column := by
  intro id₁ id₂ a₁ a₂ h₁ h₂ heq
  exact h id₁ id₂ a₁ a₂ ((get_delete id id₁ a₁).mp h₁).1 ((get_delete id id₂ a₂).mp h₂).1 heq

/-- A row that is there under an id is there under this id only. -/
theorem id_eq (h : t.Unique column) {id id' : Nat} {a a' : α} (ha : t.get id = some a)
    (ha' : t.get id' = some a') (heq : column a = column a') : id = id' ∧ a = a' := by
  obtain rfl := h id id' a a' ha ha' heq
  exact ⟨rfl, Option.some.inj (ha.symm.trans ha')⟩

end Unique

/-! ## References -/

namespace Refers

variable {key : α → Nat} {target : Table β}

theorem insert (h : t.Refers key target) {a : α} (ha : ∃ b, target.get (key a) = some b) :
    (t.insert a).Refers key target := by
  intro a' ha'
  rcases has_insert.mp ha' with rfl | hold
  · exact ha
  · exact h a' hold

theorem insertAll (h : t.Refers key target) {l : List α}
    (hl : ∀ a ∈ l, ∃ b, target.get (key a) = some b) : (t.insertAll l).Refers key target := by
  intro a ha
  rcases has_insertAll.mp ha with hnew | hold
  · exact hl a hnew
  · exact h a hold

theorem deleteWhere (h : t.Refers key target) (p : α → Bool) :
    (t.deleteWhere p).Refers key target :=
  fun a ha => h a (has_deleteWhere.mp ha).1

theorem delete (h : t.Refers key target) (id : Nat) : (t.delete id).Refers key target := by
  intro a ⟨id', ha⟩
  exact h a ⟨id', ((get_delete id id' a).mp ha).1⟩

/-- The target gets new rows. -/
theorem extend {target' : Table β} (h : t.Refers key target)
    (htarget : ∀ id b, target.get id = some b → target'.get id = some b) :
    t.Refers key target' := by
  intro a ha
  obtain ⟨b, hb⟩ := h a ha
  exact ⟨b, htarget _ b hb⟩

/-- A row is deleted together with the rows that refer to it. -/
theorem cascade (h : t.Refers key target) (id : Nat) :
    (t.deleteWhere fun a => key a == id).Refers key (target.delete id) := by
  intro a ha
  obtain ⟨hold, hne⟩ := has_deleteWhere.mp ha
  obtain ⟨b, hb⟩ := h a hold
  exact ⟨b, (get_delete id (key a) b).mpr ⟨hb, beq_eq_false_iff_ne.mp hne⟩⟩

theorem insert_target (h : t.Refers key target) (b : β) : t.Refers key (target.insert b) := by
  intro a ha
  obtain ⟨b', hb'⟩ := h a ha
  have hne : key a ≠ target.next := Nat.ne_of_lt (get_lt hb')
  exact ⟨b', by rw [get_insert, if_neg hne, hb']⟩

theorem modify_target (h : t.Refers key target) (id : Nat) (f : β → β) :
    t.Refers key (target.modify id f) := by
  intro a ha
  obtain ⟨b, hb⟩ := h a ha
  rw [get_modify]
  split
  · next hid => exact ⟨f b, by rw [← hid, hb, Option.map_some]⟩
  · exact ⟨b, hb⟩

end Refers

end Table
