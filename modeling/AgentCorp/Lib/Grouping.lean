/-
  Grouping a list by a key: one entry for each key, in the order of the first occurrences.

  `group` folds the elements of one key into one value: `first` makes it of the first of them
  and `step` adds the others. It is the loop over a dictionary that updates the entry of a key
  where there is one, and adds one otherwise.

  * `nodup_keys_group`, `keys_group`: no key occurs twice, and the first occurrences are in order.
  * `lookup_upsert`: what an update leaves under each key.
  * `mem_group`: what an entry is, by the elements of its key.
  * `group_of_nodup`: elements whose keys are distinct are entries of their own.
-/
import Mathlib.Data.List.Induction
import Mathlib.Data.List.Nodup

namespace Grouping

variable {κ α β : Type} [DecidableEq κ]

/-- Update the value of a key, or add the key with a first value. -/
def upsert (d : List (κ × α)) (k : κ) (first : α) (step : α → α) : List (κ × α) :=
  match d with
  | [] => [(k, first)]
  | (k', a) :: rest =>
      if k' = k then (k', step a) :: rest else (k', a) :: upsert rest k first step

def group (key : β → κ) (first : β → α) (step : α → β → α) (l : List β) : List (κ × α) :=
  l.foldl (fun d b => upsert d (key b) (first b) (step · b)) []

def keys (d : List (κ × α)) : List κ :=
  d.map Prod.fst

/-! ## One update -/

section Upsert

variable (k : κ) (first : α) (step : α → α)

theorem keys_upsert (d : List (κ × α)) :
    keys (upsert d k first step) = if k ∈ keys d then keys d else keys d ++ [k] := by
  induction d with
  | nil => rfl
  | cons entry rest ih =>
      obtain ⟨k', a⟩ := entry
      unfold upsert
      by_cases hk : k' = k
      · subst hk
        simp [keys]
      · have hmem : k ∈ keys ((k', a) :: rest) ↔ k ∈ keys rest := by
          simp [keys, Ne.symm hk]
        rw [if_neg hk]
        show k' :: keys (upsert rest k first step) = _
        rw [ih]
        simp only [hmem]
        split <;> rfl

theorem nodup_upsert {d : List (κ × α)} (h : (keys d).Nodup) :
    (keys (upsert d k first step)).Nodup := by
  rw [keys_upsert]
  split
  · exact h
  · next hk => exact List.Nodup.append h (List.nodup_singleton k) (by simpa using hk)

omit [DecidableEq κ] in
theorem mem_keys_of_mem {d : List (κ × α)} {k : κ} {a : α} (h : (k, a) ∈ d) : k ∈ keys d :=
  List.mem_map.mpr ⟨(k, a), h, rfl⟩

theorem mem_upsert {d : List (κ × α)} (h : (keys d).Nodup) {k' : κ} {a' : α} :
    (k', a') ∈ upsert d k first step ↔
      if k' = k then (∃ a, (k, a) ∈ d ∧ a' = step a) ∨ (k ∉ keys d ∧ a' = first)
      else (k', a') ∈ d := by
  induction d with
  | nil =>
      unfold upsert
      by_cases hk : k' = k
      · simp [hk, keys]
      · simp [hk]
  | cons entry rest ih =>
      obtain ⟨k₀, a₀⟩ := entry
      obtain ⟨hfresh, hrest⟩ : k₀ ∉ keys rest ∧ (keys rest).Nodup := List.nodup_cons.mp h
      unfold upsert
      by_cases hk₀ : k₀ = k
      · -- The entry of the key is the first one, and the only one.
        subst hk₀
        have hother : ∀ a, (k₀, a) ∉ rest := fun a ha => hfresh (mem_keys_of_mem ha)
        rw [if_pos rfl]
        by_cases hk : k' = k₀
        · subst hk
          simp [hother, keys]
        · simp [hk]
      · have hkeys : k ∈ keys ((k₀, a₀) :: rest) ↔ k ∈ keys rest := by
          simp [keys, Ne.symm hk₀]
        rw [if_neg hk₀, List.mem_cons, ih hrest, hkeys]
        by_cases hk : k' = k
        · subst hk
          simp [Ne.symm hk₀]
        · simp [hk]

theorem lookup_upsert (d : List (κ × α)) (k' : κ) :
    (upsert d k first step).lookup k' =
      if k' = k then some ((d.lookup k).elim first step) else d.lookup k' := by
  induction d with
  | nil =>
      by_cases hk : k' = k
      · simp [upsert, hk]
      · simp [upsert, List.lookup_cons, hk, beq_eq_false_iff_ne.mpr hk]
  | cons entry rest ih =>
      obtain ⟨k₀, a₀⟩ := entry
      unfold upsert
      by_cases hk₀ : k₀ = k
      · subst hk₀
        rw [if_pos rfl]
        by_cases hk : k' = k₀
        · simp [hk]
        · simp [List.lookup_cons, hk, beq_eq_false_iff_ne.mpr hk]
      · have hne : (k == k₀) = false := beq_eq_false_iff_ne.mpr (Ne.symm hk₀)
        rw [if_neg hk₀, List.lookup_cons, List.lookup_cons, List.lookup_cons, ih, hne]
        by_cases hk' : k' = k₀
        · subst hk'
          simp [hk₀]
        · rw [beq_eq_false_iff_ne.mpr hk']

end Upsert

theorem lookup_filter_keys (p : κ → Bool) (d : List (κ × α)) (k : κ) :
    (d.filter fun entry => p entry.1).lookup k = if p k then d.lookup k else none := by
  induction d with
  | nil => simp
  | cons entry rest ih =>
      obtain ⟨k₀, a₀⟩ := entry
      by_cases hk : k = k₀
      · subst hk
        by_cases hp : p k
        · simp [hp]
        · rw [List.filter_cons_of_neg (by simpa using hp), ih]
          simp [hp]
      · have hne : (k == k₀) = false := beq_eq_false_iff_ne.mpr hk
        by_cases hp : p k₀
        · rw [List.filter_cons_of_pos (by simpa using hp), List.lookup_cons, hne, ih,
            List.lookup_cons, hne]
        · rw [List.filter_cons_of_neg (by simpa using hp), ih, List.lookup_cons, hne]

/-! ## All updates -/

variable (key : β → κ) (first : β → α) (step : α → β → α)

theorem group_concat (l : List β) (b : β) :
    group key first step (l ++ [b]) =
      upsert (group key first step l) (key b) (first b) (step · b) := by
  unfold group
  rw [List.foldl_concat]

theorem nodup_keys_group (l : List β) : (keys (group key first step l)).Nodup := by
  induction l using List.reverseRecOn with
  | nil => exact List.nodup_nil
  | append_singleton l b ih =>
      rw [group_concat]
      exact nodup_upsert _ _ _ ih

theorem mem_keys_group {l : List β} {k : κ} :
    k ∈ keys (group key first step l) ↔ k ∈ l.map key := by
  induction l using List.reverseRecOn with
  | nil => simp [group, keys]
  | append_singleton l b ih =>
      rw [group_concat, keys_upsert, List.map_append, List.mem_append, ← ih]
      by_cases hb : key b ∈ keys (group key first step l)
      · rw [if_pos hb]
        constructor
        · exact Or.inl
        · rintro (h | h)
          · exact h
          · rwa [List.mem_singleton.mp h]
      · rw [if_neg hb, List.mem_append]
        rfl

/-- The keys are those of the elements, each at its first occurrence. -/
theorem keys_group (l : List β) : keys (group key first step l) = (l.map key).eraseDups := by
  induction l using List.reverseRecOn with
  | nil => rfl
  | append_singleton l b ih =>
      rw [group_concat, keys_upsert, ih, List.map_append, List.eraseDups_append]
      by_cases hb : key b ∈ (l.map key).eraseDups
      · have hold : key b ∈ l.map key := List.mem_eraseDups.mp hb
        rw [if_pos hb, List.map_singleton, List.removeAll,
          List.filter_cons_of_neg (by simpa using hold)]
        exact (List.append_nil _).symm
      · have hnew : key b ∉ l.map key := fun hold => hb (List.mem_eraseDups.mpr hold)
        rw [if_neg hb, List.map_singleton, List.removeAll,
          List.filter_cons_of_pos (by simpa using hnew)]
        rfl

/-- The value of a key is the fold of its elements. -/
theorem mem_group {l : List β} {k : κ} {a : α} :
    (k, a) ∈ group key first step l ↔
      ∃ b bs, l.filter (fun b => key b = k) = b :: bs ∧ a = bs.foldl step (first b) := by
  induction l using List.reverseRecOn generalizing a with
  | nil => simp [group]
  | append_singleton l b ih =>
      rw [group_concat, mem_upsert _ _ _ (nodup_keys_group key first step l), List.filter_append]
      by_cases hk : k = key b
      · subst hk
        rw [if_pos rfl]
        simp only [mem_keys_group, ih, List.filter_cons, decide_true, if_true, List.filter_nil]
        cases hfilter : l.filter (fun b' => key b' = key b) with
        | nil =>
            have hfresh : key b ∉ l.map key := by
              rintro hmem
              obtain ⟨b', hb', hkey⟩ := List.mem_map.mp hmem
              exact absurd (hfilter ▸ List.mem_filter.mpr ⟨hb', by simpa using hkey⟩)
                List.not_mem_nil
            simp [hfresh]
        | cons b₀ bs =>
            have hmem : key b ∈ l.map key := by
              have hb₀ : b₀ ∈ l.filter (fun b' => key b' = key b) := by simp [hfilter]
              obtain ⟨hin, hkey⟩ := List.mem_filter.mp hb₀
              exact List.mem_map.mpr ⟨b₀, hin, by simpa using hkey⟩
            simp [hmem, List.foldl_append]
      · have hb : ¬ key b = k := fun h => hk h.symm
        rw [if_neg hk, ih]
        simp [hb]

theorem group_of_nodup {l : List β} (h : (l.map key).Nodup) :
    group key first step l = l.map fun b => (key b, first b) := by
  induction l using List.reverseRecOn with
  | nil => rfl
  | append_singleton l b ih =>
      rw [List.map_append] at h
      obtain ⟨hl, -, hdisjoint⟩ := List.nodup_append.mp h
      have hfresh : key b ∉ keys (group key first step l) := by
        rw [mem_keys_group]
        exact fun hmem => hdisjoint _ hmem _ (List.mem_singleton_self _) rfl
      have hupsert : ∀ d : List (κ × α), key b ∉ keys d →
          upsert d (key b) (first b) (step · b) = d ++ [(key b, first b)] := by
        intro d hd
        induction d with
        | nil => rfl
        | cons entry rest ihd =>
            obtain ⟨k, a⟩ := entry
            have hne : ¬ k = key b := fun hk => hd (by simp [keys, hk])
            have hrest : key b ∉ keys rest := fun hin => hd (List.mem_cons_of_mem _ hin)
            unfold upsert
            rw [if_neg hne, ihd hrest]
            rfl
      rw [group_concat, hupsert _ hfresh, ih hl, List.map_append]
      rfl

end Grouping
