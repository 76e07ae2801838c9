import CssColor.Color.Hsl
import Mathlib.Algebra.Order.Group.MinMax
import Mathlib.Tactic.Linarith
import Mathlib.Tactic.Ring

/-! # The color circle

Along the color circle, measured in sixths, each channel goes through the same course: it rises from
the smallest to the largest value in one sixth, stays there for two, falls for one and stays down
for two (`Hsl.ramp`). Green goes through it from 0 on, red is two sixths ahead and blue two behind.

The position is found again from the three, even if they are a little off: from any channel that is
the largest but for an error, and the difference of the other two (`Hsl.position_of_red`,
`Hsl.position_of_green`, `Hsl.position_of_blue`). Where two channels are both almost the largest,
they tell almost the same position. Every three levels from 0 to 1 that reach both ends are those of
some position (`Hsl.exists_position`). -/

namespace CssColor.Hsl

/-- The course of a channel along the circle in sixths, from 0 where it is the smallest to 1 where
it is the largest, for positions from -5 to 9. -/
def ramp (x : ℚ) : ℚ := max 0 (min 1 (|(|x - 2| - 3)| - 1))

theorem ramp_nonneg (x : ℚ) : 0 ≤ ramp x := le_max_left _ _

theorem ramp_le_one (x : ℚ) : ramp x ≤ 1 := max_le zero_le_one (min_le_left _ _)

theorem ramp_add_six {x : ℚ} (h1 : -5 ≤ x) (h2 : x ≤ 3) : ramp (x + 6) = ramp x := by
  unfold ramp
  grind

/-! ### The four parts of the course -/

section

variable {x e : ℚ} (he0 : 0 ≤ e) (he1 : e ≤ 1)

include he0 he1

theorem abs_ramp_sub_rising (h1 : -e ≤ x) (h2 : x ≤ 1 + e) : |ramp x - x| ≤ e := by
  unfold ramp
  grind

theorem abs_ramp_sub_high (h1 : 1 - e ≤ x) (h2 : x ≤ 3 + e) : |ramp x - 1| ≤ e := by
  unfold ramp
  grind

theorem abs_ramp_sub_falling (h1 : 3 - e ≤ x) (h2 : x ≤ 4 + e) : |ramp x - (4 - x)| ≤ e := by
  unfold ramp
  grind

theorem abs_ramp_low (h1 : 4 - e ≤ x) (h2 : x ≤ 6 + e) : |ramp x| ≤ e := by
  unfold ramp
  grind

end

section

variable {x : ℚ}

theorem ramp_rising (h1 : 0 ≤ x) (h2 : x ≤ 1) : ramp x = x := by
  have h := abs_ramp_sub_rising (x := x) le_rfl zero_le_one (by linarith) (by linarith)
  linarith [abs_nonpos_iff.mp h]

theorem ramp_high (h1 : 1 ≤ x) (h2 : x ≤ 3) : ramp x = 1 := by
  have h := abs_ramp_sub_high (x := x) le_rfl zero_le_one (by linarith) (by linarith)
  linarith [abs_nonpos_iff.mp h]

theorem ramp_falling (h1 : 3 ≤ x) (h2 : x ≤ 4) : ramp x = 4 - x := by
  have h := abs_ramp_sub_falling (x := x) le_rfl zero_le_one (by linarith) (by linarith)
  linarith [abs_nonpos_iff.mp h]

theorem ramp_low (h1 : 4 ≤ x) (h2 : x ≤ 6) : ramp x = 0 :=
  abs_nonpos_iff.mp (abs_ramp_low le_rfl zero_le_one (by linarith) (by linarith))

end

/-! ### The three channels -/

section

variable {x e : ℚ} (h0 : 0 ≤ x) (h6 : x ≤ 6)

include h0 h6

/-- Red, green and blue in each sixth of the circle. -/
theorem ramps_cases :
    (x ≤ 1 ∧ ramp (x + 2) = 1 ∧ ramp x = x ∧ ramp (x - 2) = 0) ∨
    (1 ≤ x ∧ x ≤ 2 ∧ ramp (x + 2) = 2 - x ∧ ramp x = 1 ∧ ramp (x - 2) = 0) ∨
    (2 ≤ x ∧ x ≤ 3 ∧ ramp (x + 2) = 0 ∧ ramp x = 1 ∧ ramp (x - 2) = x - 2) ∨
    (3 ≤ x ∧ x ≤ 4 ∧ ramp (x + 2) = 0 ∧ ramp x = 4 - x ∧ ramp (x - 2) = 1) ∨
    (4 ≤ x ∧ x ≤ 5 ∧ ramp (x + 2) = x - 4 ∧ ramp x = 0 ∧ ramp (x - 2) = 1) ∨
    (5 ≤ x ∧ ramp (x + 2) = 1 ∧ ramp x = 0 ∧ ramp (x - 2) = 6 - x) := by
  -- red beyond the end of the circle, and blue before its start
  have hred : 4 ≤ x → ramp (x + 2) = ramp (x - 4) := fun h => by
    rw [← ramp_add_six (x := x - 4) (by linarith) (by linarith), show x - 4 + 6 = x + 2 by ring]
  have hblue : x ≤ 2 → ramp (x - 2) = 0 := fun h => by
    rw [← ramp_add_six (by linarith) (by linarith)]
    exact ramp_low (by linarith) (by linarith)
  rcases le_total x 1 with h1 | h1
  · refine Or.inl ⟨h1, ramp_high ?_ ?_, ramp_rising h0 h1, hblue ?_⟩ <;> linarith
  rcases le_total x 2 with h2 | h2
  · refine Or.inr (Or.inl ⟨h1, h2, ?_, ramp_high h1 (by linarith), hblue h2⟩)
    rw [ramp_falling (by linarith) (by linarith)]
    ring
  rcases le_total x 3 with h3 | h3
  · refine Or.inr (Or.inr (Or.inl ⟨h2, h3, ramp_low ?_ ?_, ramp_high h1 h3, ramp_rising ?_ ?_⟩)) <;>
      linarith
  rcases le_total x 4 with h4 | h4
  · refine Or.inr (Or.inr (Or.inr (Or.inl
      ⟨h3, h4, ramp_low ?_ ?_, ramp_falling h3 h4, ramp_high ?_ ?_⟩))) <;> linarith
  rcases le_total x 5 with h5 | h5
  · refine Or.inr (Or.inr (Or.inr (Or.inr (Or.inl
      ⟨h4, h5, (hred h4).trans (ramp_rising ?_ ?_), ramp_low h4 h6, ramp_high ?_ ?_⟩)))) <;>
      linarith
  · refine Or.inr (Or.inr (Or.inr (Or.inr (Or.inr
      ⟨h5, (hred h4).trans (ramp_high ?_ ?_), ramp_low h4 h6, ?_⟩)))) <;> try linarith
    rw [ramp_falling (by linarith) (by linarith)]
    ring

theorem max_ramps : max (max (ramp (x + 2)) (ramp x)) (ramp (x - 2)) = 1 := by
  rcases ramps_cases h0 h6 with ⟨_, hr, hg, hb⟩ | ⟨_, _, hr, hg, hb⟩ | ⟨_, _, hr, hg, hb⟩ |
    ⟨_, _, hr, hg, hb⟩ | ⟨_, _, hr, hg, hb⟩ | ⟨_, hr, hg, hb⟩ <;> rw [hr, hg, hb] <;> grind

theorem min_ramps : min (min (ramp (x + 2)) (ramp x)) (ramp (x - 2)) = 0 := by
  rcases ramps_cases h0 h6 with ⟨_, hr, hg, hb⟩ | ⟨_, _, hr, hg, hb⟩ | ⟨_, _, hr, hg, hb⟩ |
    ⟨_, _, hr, hg, hb⟩ | ⟨_, _, hr, hg, hb⟩ | ⟨_, hr, hg, hb⟩ <;> rw [hr, hg, hb] <;> grind

/-! ### The position told by the largest channel -/

variable (he0 : 0 ≤ e) (he1 : e < 1)

include he0 he1

theorem position_of_red (hg : ramp x ≤ ramp (x + 2) + e) (hb : ramp (x - 2) ≤ ramp (x + 2) + e) :
    |ramp x - ramp (x - 2) - x| ≤ e ∨ |ramp x - ramp (x - 2) - (x - 6)| ≤ e := by
  rcases ramps_cases h0 h6 with ⟨_, h⟩ | ⟨_, _, h⟩ | ⟨_, _, h⟩ | ⟨_, _, h⟩ | ⟨_, _, h⟩ | ⟨_, h⟩ <;>
    simp only [h] at hg hb ⊢ <;> grind

theorem position_of_green (hr : ramp (x + 2) ≤ ramp x + e) (hb : ramp (x - 2) ≤ ramp x + e) :
    |ramp (x - 2) - ramp (x + 2) - (x - 2)| ≤ e := by
  rcases ramps_cases h0 h6 with ⟨_, h⟩ | ⟨_, _, h⟩ | ⟨_, _, h⟩ | ⟨_, _, h⟩ | ⟨_, _, h⟩ | ⟨_, h⟩ <;>
    simp only [h] at hr hb ⊢ <;> grind

theorem position_of_blue (hr : ramp (x + 2) ≤ ramp (x - 2) + e) (hg : ramp x ≤ ramp (x - 2) + e) :
    |ramp (x + 2) - ramp x - (x - 4)| ≤ e := by
  rcases ramps_cases h0 h6 with ⟨_, h⟩ | ⟨_, _, h⟩ | ⟨_, _, h⟩ | ⟨_, _, h⟩ | ⟨_, _, h⟩ | ⟨_, h⟩ <;>
    simp only [h] at hr hg ⊢ <;> grind

end

/-! ### The position of three levels -/

/-- **Every three levels** of which the largest is 1 and the smallest 0 stand somewhere on the
circle. -/
theorem exists_position {r g b : ℚ} (hmax : max (max r g) b = 1) (hmin : min (min r g) b = 0) :
    ∃ x, 0 ≤ x ∧ x < 6 ∧ ramp (x + 2) = r ∧ ramp x = g ∧ ramp (x - 2) = b := by
  obtain ⟨hrg, hb1⟩ := max_le_iff.mp hmax.le
  obtain ⟨hr1, hg1⟩ := max_le_iff.mp hrg
  obtain ⟨hrg, hb0⟩ := le_min_iff.mp hmin.ge
  obtain ⟨hr0, hg0⟩ := le_min_iff.mp hrg
  have hone : r = 1 ∨ g = 1 ∨ b = 1 := by grind
  have hzero : r = 0 ∨ g = 0 ∨ b = 0 := by grind
  -- the sixth is told by which level is 1 and which is 0
  obtain ⟨x, h0, h6, h⟩ : ∃ x, 0 ≤ x ∧ x < 6 ∧ ((x ≤ 1 ∧ r = 1 ∧ g = x ∧ b = 0) ∨
      (1 ≤ x ∧ x ≤ 2 ∧ r = 2 - x ∧ g = 1 ∧ b = 0) ∨ (2 ≤ x ∧ x ≤ 3 ∧ r = 0 ∧ g = 1 ∧ b = x - 2) ∨
      (3 ≤ x ∧ x ≤ 4 ∧ r = 0 ∧ g = 4 - x ∧ b = 1) ∨ (4 ≤ x ∧ x ≤ 5 ∧ r = x - 4 ∧ g = 0 ∧ b = 1) ∨
      (5 ≤ x ∧ r = 1 ∧ g = 0 ∧ b = 6 - x)) := by
    rcases hone with h1 | h1 | h1
    · rcases hzero with h | h | h
      · linarith
      · by_cases hb : b = 0
        · exact ⟨g, by grind⟩
        · exact ⟨6 - b, by grind⟩
      · exact ⟨g, by grind⟩
    · rcases hzero with h | h | h
      · exact ⟨2 + b, by grind⟩
      · linarith
      · exact ⟨2 - r, by grind⟩
    · rcases hzero with h | h | h
      · exact ⟨4 - g, by grind⟩
      · exact ⟨4 + r, by grind⟩
      · linarith
  refine ⟨x, h0, h6, ?_⟩
  have := ramps_cases h0 h6.le
  grind

/-! ### The smallest and the largest channel -/

/-- The largest channel less the smallest one, for a saturation and a lightness. The two stand at
equal distances from the lightness. -/
def spread (s l : ℚ) : ℚ := s * min (2 * l) (2 - 2 * l)

section

variable {s l : ℚ}

theorem spread_of_dark (h : l ≤ 1 / 2) : spread s l = s * (2 * l) := by
  rw [spread, min_eq_left (by linarith)]

theorem spread_of_light (h : 1 / 2 ≤ l) : spread s l = s * (2 - 2 * l) := by
  rw [spread, min_eq_right (by linarith)]

theorem spread_nonneg (hs0 : 0 ≤ s) (h0 : 0 ≤ l) (h1 : l ≤ 1) : 0 ≤ spread s l :=
  mul_nonneg hs0 (le_min (by linarith) (by linarith))

theorem spread_le (hs1 : s ≤ 1) (h0 : 0 ≤ l) (h1 : l ≤ 1) :
    spread s l ≤ 2 * l ∧ spread s l ≤ 2 - 2 * l := by
  have hmin : 0 ≤ min (2 * l) (2 - 2 * l) := le_min (by linarith) (by linarith)
  have h := mul_le_of_le_one_left hmin hs1
  exact ⟨h.trans (min_le_left _ _), h.trans (min_le_right _ _)⟩

end

end CssColor.Hsl
