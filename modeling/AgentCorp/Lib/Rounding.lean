/-
  Rounding to the nearest integer, ties to the even one.

  * `roundHalfEven_le_iff`: what rounds to at most `k`.
  * `roundHalfEven_mono`, `roundHalfEven_intCast`: rounding keeps the order and the integers.
-/
import Mathlib.Algebra.Order.Floor.Ring
import Mathlib.Tactic.Linarith

namespace Rounding

variable {K : Type} [Field K] [LinearOrder K] [FloorRing K]

def roundHalfEven (y : K) : ℤ :=
  if y - ⌊y⌋ < 1 / 2 ∨ (y - ⌊y⌋ = 1 / 2 ∧ ⌊y⌋ % 2 = 0) then ⌊y⌋ else ⌊y⌋ + 1

theorem floor_le_roundHalfEven (y : K) : ⌊y⌋ ≤ roundHalfEven y := by
  unfold roundHalfEven
  split <;> omega

theorem roundHalfEven_le_floor_add_one (y : K) : roundHalfEven y ≤ ⌊y⌋ + 1 := by
  unfold roundHalfEven
  split <;> omega

variable [IsStrictOrderedRing K]

theorem roundHalfEven_le_iff (y : K) (k : ℤ) :
    roundHalfEven y ≤ k ↔ y < k + 1 / 2 ∨ (y = k + 1 / 2 ∧ k % 2 = 0) := by
  have hfloor := Int.floor_le y
  have hceil := Int.lt_floor_add_one y
  rcases lt_trichotomy ⌊y⌋ k with hlt | rfl | hgt
  · have hcast : (⌊y⌋ : K) + 1 ≤ k := by exact_mod_cast hlt
    exact iff_of_true ((roundHalfEven_le_floor_add_one y).trans hlt) (Or.inl (by linarith))
  · have hround : roundHalfEven y ≤ ⌊y⌋ ↔
        y - ⌊y⌋ < 1 / 2 ∨ (y - ⌊y⌋ = 1 / 2 ∧ ⌊y⌋ % 2 = 0) := by
      unfold roundHalfEven
      split
      · next h => exact iff_of_true (le_refl _) h
      · next h => exact iff_of_false (by omega) h
    rw [hround, sub_lt_iff_lt_add', sub_eq_iff_eq_add']
  · have hcast : (k : K) + 1 ≤ ⌊y⌋ := by exact_mod_cast hgt
    refine iff_of_false (fun h => ?_) ?_
    · exact absurd (h.trans_lt hgt) (floor_le_roundHalfEven y).not_gt
    · rintro (h | ⟨h, -⟩) <;> linarith

theorem roundHalfEven_mono {y z : K} (hyz : y ≤ z) : roundHalfEven y ≤ roundHalfEven z := by
  rw [roundHalfEven_le_iff]
  rcases (roundHalfEven_le_iff z _).mp (le_refl _) with hlt | ⟨heq, heven⟩
  · exact Or.inl (hyz.trans_lt hlt)
  · rcases hyz.lt_or_eq with hlt | rfl
    · exact Or.inl (heq ▸ hlt)
    · exact Or.inr ⟨heq, heven⟩

theorem roundHalfEven_intCast (n : ℤ) : roundHalfEven (n : K) = n := by
  unfold roundHalfEven
  rw [Int.floor_intCast, sub_self, if_pos (Or.inl one_half_pos)]

end Rounding
