/-
  Series of updates that are kept under a code.

  Every update belongs to a series and changes a value. A store that keeps one value per code
  folds all updates whose series have that code; a series of its own folds its own updates.

  * `held_eq_own`: a series that no other one shares its code with is kept as it is.
  * `exact_concat_iff`: one more update keeps the store exact, if and only if it would do nothing to the other
    series of its code.
-/
import Mathlib.Data.List.Basic

namespace EncodedSeries

variable {ι τ κ α : Type}

/-- The fold of some of the updates. -/
def foldOf (p : ι → Prop) [DecidablePred p] (update : ι → α → α) (first : α) (l : List ι) : α :=
  (l.filter p).foldl (fun a i => update i a) first

theorem foldOf_concat (p : ι → Prop) [DecidablePred p] (update : ι → α → α) (first : α)
    (l : List ι) (i : ι) :
    foldOf p update first (l ++ [i]) =
      if p i then update i (foldOf p update first l) else foldOf p update first l := by
  unfold foldOf
  rw [List.filter_append, List.foldl_append]
  by_cases h : p i
  · rw [if_pos h, List.filter_cons_of_pos (p := fun i => decide (p i)) (decide_eq_true h)]
    rfl
  · rw [if_neg h, List.filter_cons_of_neg (p := fun i => decide (p i)) (by simpa using h)]
    rfl

section Exact

variable [DecidableEq κ] (series : ι → τ) (encode : τ → κ) (same : τ → τ → Prop)
  [DecidableRel same] (update : ι → α → α) (first : α)

/-- What the store keeps under a code. -/
def held (l : List ι) (code : κ) : α :=
  foldOf (fun i => encode (series i) = code) update first l

/-- What one series has of its own. -/
def own (l : List ι) (t : τ) : α :=
  foldOf (fun i => same (series i) t) update first l

/-- The store has for each series what the series has of its own. -/
def Exact (l : List ι) : Prop :=
  ∀ t, held series encode update first l (encode t) = own series same update first l t

variable {series encode same update first}

/-- Where no update of another series has the code, the store has what the series has. -/
theorem held_eq_own {l : List ι} {t : τ}
    (h : ∀ i ∈ l, encode (series i) = encode t ↔ same (series i) t) :
    held series encode update first l (encode t) = own series same update first l t := by
  unfold held own foldOf
  rw [List.filter_congr fun i hi => decide_eq_decide.mpr (h i hi)]

theorem exact_concat_iff (hsame : ∀ s t, same s t → encode s = encode t) {l : List ι}
    (h : Exact series encode same update first l) (i : ι) :
    Exact series encode same update first (l ++ [i]) ↔
      ∀ t, encode (series i) = encode t → ¬ same (series i) t →
        update i (own series same update first l t) = own series same update first l t := by
  apply forall_congr'
  intro t
  have ht : held series encode update first l (encode t) = own series same update first l t := h t
  unfold held own at *
  rw [foldOf_concat, foldOf_concat, ht]
  by_cases hcode : encode (series i) = encode t
  · by_cases hown : same (series i) t
    · simp [hcode, hown]
    · simp [hcode, hown]
  · have hother : ¬ same (series i) t := fun hown => hcode (hsame _ t hown)
    simp [hcode, hother]

end Exact

end EncodedSeries
