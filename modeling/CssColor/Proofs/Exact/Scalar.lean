import CssColor.Number.Scalar
import CssColor.Proofs.Number.Rounding

/-! # Scalars without rounding

What the operations on scalars are over the rationals, in their usual terms: moving a number into an
interval, the larger and the smaller of two numbers, and an angle reduced to one turn, which is its
remainder under division by 360 (`wrapDegrees_eq`). -/

namespace CssColor.Number.Exact

open Scalar

/-! ### Intervals -/

theorem clamp_of_mem {lo hi x : ℚ} (h : lo ≤ x ∧ x ≤ hi) : clamp lo hi x = x := by
  unfold clamp
  rw [if_neg (not_lt.mpr h.1), if_neg (not_lt.mpr h.2)]

theorem clamp_mem {lo hi : ℚ} (h : lo ≤ hi) (x : ℚ) : lo ≤ clamp lo hi x ∧ clamp lo hi x ≤ hi := by
  unfold clamp
  split_ifs with h1 h2
  · exact ⟨le_rfl, h⟩
  · exact ⟨h, le_rfl⟩
  · exact ⟨not_lt.mp h1, not_lt.mp h2⟩

theorem clampUnit_of_mem {x : ℚ} (h : 0 ≤ x ∧ x ≤ 1) : clampUnit x = x := clamp_of_mem h

theorem clampUnit_mem (x : ℚ) : 0 ≤ clampUnit x ∧ clampUnit x ≤ 1 := clamp_mem zero_le_one x

theorem clampUnit_of_one_le {x : ℚ} (h : 1 ≤ x) : clampUnit x = 1 := by
  rcases h.eq_or_lt with rfl | h
  · exact clampUnit_of_mem ⟨zero_le_one, le_rfl⟩
  · have h0 : ¬x < 0 := not_lt.mpr (zero_le_one.trans h.le)
    show clamp 0 1 x = 1
    unfold clamp
    rw [if_neg h0, if_pos h]

/-! ### Comparisons -/

theorem same_iff {x y : ℚ} : Same x y ↔ x = y := le_antisymm_iff.symm

theorem larger_eq (x y : ℚ) : larger x y = max x y := by
  unfold larger
  split_ifs with h h'
  · exact (max_eq_right h.le).symm
  · exact (max_eq_left (not_lt.mp h)).symm
  · exact absurd le_rfl h'

theorem smaller_eq (x y : ℚ) : smaller x y = min x y := by
  unfold smaller
  split_ifs with h h'
  · exact (min_eq_right h.le).symm
  · exact (min_eq_left (not_lt.mp h)).symm
  · exact absurd le_rfl h'

/-! ### Angles -/

theorem truncate_of_neg {q : ℚ} (h : q < 0) : truncate q = -⌊-q⌋ := by
  rw [← neg_neg q, truncate_neg, truncate_of_nonneg (by linarith), neg_neg]

/-- **An angle reduced to one turn** is its remainder under division by a full turn. -/
theorem wrapDegrees_eq (h : ℚ) : wrapDegrees h = h - 360 * ⌊h / 360⌋ := by
  have hwrap : wrapDegrees h = if h - 360 * truncate (h / 360) < 0
      then h - 360 * truncate (h / 360) + 360 else h - 360 * truncate (h / 360) := rfl
  have hturns : h = 360 * (h / 360) := by ring
  rw [hwrap]
  rcases le_or_gt 0 (h / 360) with hq | hq
  · have hfloor := Int.floor_le (h / 360)
    rw [truncate_of_nonneg hq, if_neg (by linarith)]
  · have h1 := Int.floor_le (-(h / 360))
    have h2 := Int.lt_floor_add_one (-(h / 360))
    rw [truncate_of_neg hq]
    push_cast
    split_ifs with hrest
    · have hfloor : ⌊h / 360⌋ = -⌊-(h / 360)⌋ - 1 := by
        rw [Int.floor_eq_iff]
        push_cast
        constructor <;> linarith
      rw [hfloor]
      push_cast
      ring
    · have hfloor : ⌊h / 360⌋ = -⌊-(h / 360)⌋ := by
        rw [Int.floor_eq_iff]
        push_cast
        constructor <;> linarith
      rw [hfloor]
      push_cast
      ring

theorem wrapDegrees_mem (h : ℚ) : 0 ≤ wrapDegrees h ∧ wrapDegrees h < 360 := by
  have h1 := Int.floor_le (h / 360)
  have h2 := Int.lt_floor_add_one (h / 360)
  rw [le_div_iff₀ (by norm_num)] at h1
  rw [div_lt_iff₀ (by norm_num)] at h2
  rw [wrapDegrees_eq]
  constructor <;> linarith

theorem wrapDegrees_of_mem {h : ℚ} (h0 : 0 ≤ h) (h360 : h < 360) : wrapDegrees h = h := by
  have hfloor : ⌊h / 360⌋ = 0 := by
    rw [Int.floor_eq_zero_iff]
    exact ⟨by positivity, (div_lt_one (by norm_num)).mpr h360⟩
  rw [wrapDegrees_eq, hfloor, Int.cast_zero, mul_zero, sub_zero]

end CssColor.Number.Exact
