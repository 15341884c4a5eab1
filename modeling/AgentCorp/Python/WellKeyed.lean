/-
  Dictionaries without repeated keys, at every depth, as Python builds them.

  * `Json.eq_self`: such a value equals itself.
  * `lookup_set`, `lookup_pop`, `filter_set`, `filter_pop`: what an assignment and a removal
    change, and what they leave alone.
  * `wellKeyed_set`, `wellKeyed_merge`: assignment and merging keep keys distinct.
-/
import AgentCorp.Lib.Table
import AgentCorp.Python.Data
import Mathlib.Data.List.Nodup

namespace AgentCorp.Python

namespace Json

mutual

/-- No dictionary in the value has a key twice. -/
def WellKeyed : Json → Prop
  | list items => WellKeyedItems items
  | dict entries => (entries.map Prod.fst).Nodup ∧ WellKeyedEntries entries
  | _ => True

def WellKeyedItems : List Json → Prop
  | [] => True
  | item :: items => WellKeyed item ∧ WellKeyedItems items

def WellKeyedEntries : List (String × Json) → Prop
  | [] => True
  | (_, value) :: entries => WellKeyed value ∧ WellKeyedEntries entries

end

theorem wellKeyedEntries_iff {entries : List (String × Json)} :
    WellKeyedEntries entries ↔ ∀ entry ∈ entries, entry.2.WellKeyed := by
  induction entries with
  | nil => simp [WellKeyedEntries]
  | cons entry entries ih =>
      obtain ⟨key, value⟩ := entry
      unfold WellKeyedEntries
      rw [ih, List.forall_mem_cons]

end Json

theorem lookup_of_mem {α : Type} {d : Dict α} (h : (d.map Prod.fst).Nodup) {key : String}
    {value : α} (hmem : (key, value) ∈ d) : d.lookup key = some value := by
  induction d with
  | nil => cases hmem
  | cons entry d ih =>
      obtain ⟨k, v⟩ := entry
      obtain ⟨hfresh, hd⟩ : k ∉ d.map Prod.fst ∧ (d.map Prod.fst).Nodup := List.nodup_cons.mp h
      rcases List.mem_cons.mp hmem with hhead | htail
      · obtain ⟨rfl, rfl⟩ := Prod.mk.inj hhead
        simp
      · have hne : (key == k) = false := by
          apply beq_eq_false_iff_ne.mpr
          rintro rfl
          exact hfresh (List.mem_map.mpr ⟨(key, value), htail, rfl⟩)
        rw [List.lookup_cons, hne]
        exact ih hd htail

namespace Json

mutual

theorem eq_self : ∀ value : Json, value.WellKeyed → value.eq value = true
  | null, _ => rfl
  | bool b, _ => by simp [eq, asNumber]
  | int i, _ => by simp [eq, asNumber]
  | float x, _ => by simp [eq, asNumber]
  | str s, _ => by simp [eq]
  | list items, h => by
      rw [eq]
      exact eqItems_self items h
  | dict entries, h => by
      rw [eq, eqEntries_self entries entries (fun _ hentry => lookup_of_mem h.1 hentry) h.2]
      simp

theorem eqItems_self : ∀ items : List Json, WellKeyedItems items → eqItems items items = true
  | [], _ => by rw [eqItems]
  | item :: items, h => by
      rw [eqItems, eq_self item h.1, eqItems_self items h.2]
      rfl

/-- The entries are found again in the dictionary they are from. -/
theorem eqEntries_self : ∀ entries d : List (String × Json),
    (∀ entry ∈ entries, d.lookup entry.1 = some entry.2) → WellKeyedEntries entries →
    eqEntries entries d = true
  | [], _, _, _ => by rw [eqEntries]
  | (key, value) :: entries, d, hfound, h => by
      have hhead := hfound (key, value) (List.mem_cons_self ..)
      have htail := eqEntries_self entries d
        (fun entry hentry => hfound entry (List.mem_cons_of_mem _ hentry)) h.2
      have hvalue := eq_self value h.1
      rw [eqEntries, hhead, htail, Bool.and_true]
      exact hvalue

end

end Json

/-- Distinct keys, in the dictionary and in its values. -/
def WellKeyedDict (d : Dict Json) : Prop :=
  (d.map Prod.fst).Nodup ∧ ∀ entry ∈ d, entry.2.WellKeyed

theorem wellKeyedDict_iff {d : Dict Json} : WellKeyedDict d ↔ (Json.dict d).WellKeyed := by
  unfold WellKeyedDict
  rw [← Json.wellKeyedEntries_iff]
  rfl

theorem eqJson_self {d : Dict Json} (h : WellKeyedDict d) : eqJson d d = true :=
  Json.eq_self (.dict d) (wellKeyedDict_iff.mp h)

theorem mem_set {α : Type} {d : Dict α} {key : String} {value : α} {entry : String × α}
    (h : entry ∈ d.set key value) : entry ∈ d ∨ entry = (key, value) := by
  induction d with
  | nil => exact .inr (List.mem_singleton.mp h)
  | cons head d ih =>
      obtain ⟨k, v⟩ := head
      unfold Dict.set at h
      by_cases hk : k = key
      · rw [if_pos hk] at h
        rcases List.mem_cons.mp h with rfl | htail
        · exact .inr (by rw [hk])
        · exact .inl (List.mem_cons_of_mem _ htail)
      · rw [if_neg hk] at h
        rcases List.mem_cons.mp h with rfl | htail
        · exact .inl (List.mem_cons_self ..)
        · exact (ih htail).imp_left (List.mem_cons_of_mem _)

theorem set_ne_nil {α : Type} (d : Dict α) (key : String) (value : α) : d.set key value ≠ [] := by
  cases d with
  | nil => exact List.cons_ne_nil _ _
  | cons entry d =>
      unfold Dict.set
      split <;> exact List.cons_ne_nil _ _

theorem lookup_set {α : Type} (d : Dict α) (key : String) (value : α) (key' : String) :
    (d.set key value).lookup key' = if key' = key then some value else d.lookup key' := by
  induction d with
  | nil =>
      unfold Dict.set
      rw [Table.lookup_cons]
  | cons head d ih =>
      obtain ⟨k, v⟩ := head
      unfold Dict.set
      by_cases hk : k = key
      · rw [if_pos hk, Table.lookup_cons, Table.lookup_cons]
        by_cases hkey : key' = key <;> simp [hkey, hk]
      · rw [if_neg hk, Table.lookup_cons, Table.lookup_cons, ih]
        by_cases hkey : key' = key
        · have hne : key' ≠ k := fun heq => hk (heq.symm.trans hkey)
          rw [if_neg hne, if_pos hkey, if_pos hkey]
        · rw [if_neg hkey, if_neg hkey]

theorem lookup_pop {α : Type} (d : Dict α) (key key' : String) :
    (d.pop key).lookup key' = if key' = key then none else d.lookup key' := by
  unfold Dict.pop
  induction d with
  | nil => simp
  | cons head d ih =>
      obtain ⟨k, v⟩ := head
      rw [List.filter_cons, Table.lookup_cons]
      by_cases hk : k = key
      · rw [if_neg (by simpa using hk), ih]
        by_cases hkey : key' = key
        · rw [if_pos hkey, if_pos hkey]
        · have hne : key' ≠ k := fun heq => hkey (heq.trans hk)
          rw [if_neg hkey, if_neg hkey, if_neg hne]
      · rw [if_pos (by simpa using hk), Table.lookup_cons, ih]
        by_cases hkey : key' = key
        · have hne : key' ≠ k := fun heq => hk (heq.symm.trans hkey)
          rw [if_neg hne, if_pos hkey, if_pos hkey]
        · rw [if_neg hkey, if_neg hkey]

/-- The entries under other keys stay where they are. -/
theorem filter_set {α : Type} {p : String → Bool} {key : String} (hp : p key = false) (d : Dict α)
    (value : α) : (d.set key value).filter (fun entry => p entry.1) =
      d.filter fun entry => p entry.1 := by
  induction d with
  | nil =>
      unfold Dict.set
      simp [hp]
  | cons head d ih =>
      obtain ⟨k, v⟩ := head
      unfold Dict.set
      by_cases hk : k = key
      · rw [if_pos hk, List.filter_cons, List.filter_cons]
        simp [hk, hp]
      · rw [if_neg hk, List.filter_cons, List.filter_cons, ih]

theorem filter_pop {α : Type} {p : String → Bool} {key : String} (hp : p key = false) (d : Dict α) :
    (d.pop key).filter (fun entry => p entry.1) = d.filter fun entry => p entry.1 := by
  unfold Dict.pop
  rw [List.filter_filter]
  apply List.filter_congr
  intro entry _
  by_cases hk : entry.1 = key
  · rw [hk, hp]
    rfl
  · simp [hk]

theorem nodup_set {α : Type} {d : Dict α} (h : (d.map Prod.fst).Nodup) (key : String) (value : α) :
    ((d.set key value).map Prod.fst).Nodup := by
  induction d with
  | nil => exact List.nodup_singleton key
  | cons head d ih =>
      obtain ⟨k, v⟩ := head
      obtain ⟨hfresh, hd⟩ : k ∉ d.map Prod.fst ∧ (d.map Prod.fst).Nodup := List.nodup_cons.mp h
      unfold Dict.set
      by_cases hk : k = key
      · rw [if_pos hk]
        exact h
      · rw [if_neg hk]
        refine List.nodup_cons.mpr ⟨?_, ih hd⟩
        intro hmem
        obtain ⟨entry, hentry, hkey⟩ := List.mem_map.mp hmem
        rcases mem_set hentry with hold | rfl
        · exact hfresh (List.mem_map.mpr ⟨entry, hold, hkey⟩)
        · exact hk hkey.symm

theorem wellKeyed_set {d : Dict Json} (h : WellKeyedDict d) {key : String} {value : Json}
    (hvalue : value.WellKeyed) : WellKeyedDict (d.set key value) := by
  refine ⟨nodup_set h.1 key value, ?_⟩
  intro entry hentry
  rcases mem_set hentry with hold | rfl
  · exact h.2 entry hold
  · exact hvalue

theorem wellKeyed_merge {a b : Dict Json} (ha : WellKeyedDict a)
    (hb : ∀ entry ∈ b, entry.2.WellKeyed) : WellKeyedDict (Dict.merge a b) := by
  unfold Dict.merge
  induction b generalizing a with
  | nil => exact ha
  | cons entry b ih =>
      rw [List.forall_mem_cons] at hb
      exact ih (wellKeyed_set ha hb.1) hb.2

theorem wellKeyed_of_lookup {d : Dict Json} (h : WellKeyedDict d) {key : String} {value : Json}
    (hlookup : d.lookup key = some value) : value.WellKeyed := by
  have hmem : (key, value) ∈ d := by
    rw [List.lookup_eq_some_iff] at hlookup
    obtain ⟨before, after, rfl, -⟩ := hlookup
    simp
  exact h.2 (key, value) hmem

end AgentCorp.Python
