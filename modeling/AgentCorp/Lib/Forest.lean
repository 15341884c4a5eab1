/-
  Ordered forests: trees side by side, each with its children in order.

  * `before_of_edge`: in postorder every child comes before its parent.
  * `postorder_append`, `roots_append`, `edges_append`, `trees_append`: two forests side by side.
  * `map_append`, `postorder_map`: relabelling.
-/
import Mathlib.Data.List.Basic

inductive Forest (α : Type) where
  | nil
  | cons (a : α) (children rest : Forest α)
  deriving DecidableEq, Repr

namespace Forest

variable {α β : Type}

def append : Forest α → Forest α → Forest α
  | nil, g => g
  | cons a children rest, g => cons a children (rest.append g)

instance : Append (Forest α) := ⟨append⟩

def map (f : α → β) : Forest α → Forest β
  | nil => nil
  | cons a children rest => cons (f a) (children.map f) (rest.map f)

def postorder : Forest α → List α
  | nil => []
  | cons a children rest => children.postorder ++ a :: rest.postorder

def roots : Forest α → List α
  | nil => []
  | cons a _ rest => a :: rest.roots

/-- The pairs of a parent and a child. -/
def edges : Forest α → List (α × α)
  | nil => []
  | cons a children rest => children.roots.map (a, ·) ++ children.edges ++ rest.edges

/-- The roots, each with what is below it. -/
def trees : Forest α → List (α × Forest α)
  | nil => []
  | cons a children rest => (a, children) :: rest.trees

@[simp] theorem nil_append (g : Forest α) : nil ++ g = g := rfl

@[simp] theorem cons_append (a : α) (children rest g : Forest α) :
    cons a children rest ++ g = cons a children (rest ++ g) := rfl

theorem map_append (f : α → β) (g₁ g₂ : Forest α) : (g₁ ++ g₂).map f = g₁.map f ++ g₂.map f := by
  induction g₁ with
  | nil => rfl
  | cons a children rest _ ih => rw [cons_append, map, map, cons_append, ih]

theorem postorder_append (g₁ g₂ : Forest α) :
    (g₁ ++ g₂).postorder = g₁.postorder ++ g₂.postorder := by
  induction g₁ with
  | nil => rfl
  | cons a children rest _ ih =>
      rw [cons_append, postorder, postorder, ih, List.append_assoc, List.cons_append]

theorem roots_append (g₁ g₂ : Forest α) : (g₁ ++ g₂).roots = g₁.roots ++ g₂.roots := by
  induction g₁ with
  | nil => rfl
  | cons a children rest _ ih => rw [cons_append, roots, roots, ih, List.cons_append]

theorem edges_append (g₁ g₂ : Forest α) : (g₁ ++ g₂).edges = g₁.edges ++ g₂.edges := by
  induction g₁ with
  | nil => rfl
  | cons a children rest _ ih =>
      rw [cons_append, edges, edges, ih]
      simp only [List.append_assoc]

theorem trees_append (g₁ g₂ : Forest α) : (g₁ ++ g₂).trees = g₁.trees ++ g₂.trees := by
  induction g₁ with
  | nil => rfl
  | cons a children rest _ ih => rw [cons_append, trees, trees, ih, List.cons_append]

theorem postorder_map (f : α → β) (g : Forest α) : (g.map f).postorder = g.postorder.map f := by
  induction g with
  | nil => rfl
  | cons a children rest ihc ihr =>
      rw [map, postorder, postorder, ihc, ihr, List.map_append, List.map_cons]

theorem roots_subset_postorder (g : Forest α) : g.roots ⊆ g.postorder := by
  induction g with
  | nil => exact List.Subset.refl _
  | cons a children rest _ ih =>
      intro b hb
      rcases List.mem_cons.mp hb with rfl | hrest
      · simp [postorder]
      · simp [postorder, ih hrest]

theorem before_of_edge {g : Forest α} {parent child : α} (h : (parent, child) ∈ g.edges) :
    [child, parent].Sublist g.postorder := by
  induction g with
  | nil => cases h
  | cons a children rest ihc ihr =>
      unfold edges at h
      unfold postorder
      rcases List.mem_append.mp h with hhere | hrest
      · rcases List.mem_append.mp hhere with hroot | hbelow
        · obtain ⟨b, hb, heq⟩ := List.mem_map.mp hroot
          obtain ⟨rfl, rfl⟩ := Prod.mk.inj heq
          have hchild : [b].Sublist children.postorder :=
            List.singleton_sublist.mpr (roots_subset_postorder children hb)
          exact hchild.append ((List.nil_sublist _).cons_cons a)
        · exact (ihc hbelow).trans (List.sublist_append_left _ _)
      · exact (ihr hrest).trans
          ((List.sublist_cons_self a _).trans (List.sublist_append_right _ _))

end Forest
