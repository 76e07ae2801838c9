import CssColor.Number.Rounding
import Mathlib.Data.Rat.Floor
import Mathlib.Tactic.Linarith
import Mathlib.Tactic.Ring

/-! # Rounding to an integer

Both roundings stay within a half of the number (`abs_roundHalfEven_sub_le`,
`abs_roundHalfAway_sub_le`) and fix the integers. From this alone they are monotone
(`mono_of_abs_sub_le`): if they changed the order of two numbers, these would lie in the middle of
the same two integers. -/

namespace CssColor.Number

/-- What rounds to within a half is monotone. -/
theorem mono_of_abs_sub_le {f : ℚ → ℤ} (hf : ∀ q, |(f q : ℚ) - q| ≤ 1 / 2) {p q : ℚ}
    (h : p ≤ q) : f p ≤ f q := by
  by_contra hlt
  have hp := abs_le.mp (hf p)
  have hq := abs_le.mp (hf q)
  have hstep : (f q : ℚ) + 1 ≤ f p := by exact_mod_cast not_le.mp hlt
  have heq : p = q := by linarith [hp.2, hq.1]
  rw [heq] at hlt
  exact hlt le_rfl

/-! ### A half to the even neighbour -/

theorem abs_roundHalfEven_sub_le (q : ℚ) : |(roundHalfEven q : ℚ) - q| ≤ 1 / 2 := by
  have h0 := Int.floor_le q
  have h1 := Int.lt_floor_add_one q
  rw [abs_le]
  unfold roundHalfEven
  simp only [show q.floor = ⌊q⌋ from rfl]
  split_ifs <;> constructor <;> push_cast <;> linarith

theorem roundHalfEven_intCast (n : ℤ) : roundHalfEven n = n := by
  unfold roundHalfEven
  simp only [Rat.floor_intCast]
  norm_num

theorem roundHalfEven_mono {p q : ℚ} (h : p ≤ q) : roundHalfEven p ≤ roundHalfEven q :=
  mono_of_abs_sub_le abs_roundHalfEven_sub_le h

/-- The integers about a tie are told apart by their parity. -/
theorem roundHalfEven_even_of_tie {q : ℚ} (h : |(roundHalfEven q : ℚ) - q| = 1 / 2) :
    roundHalfEven q % 2 = 0 := by
  have h0 := Int.floor_le q
  have h1 := Int.lt_floor_add_one q
  unfold roundHalfEven at h ⊢
  simp only [show q.floor = ⌊q⌋ from rfl] at h ⊢
  split_ifs at h ⊢ with ha hb hc
  · rw [abs_of_nonpos (by linarith)] at h; linarith
  · push_cast at h; rw [abs_of_nonneg (by linarith)] at h; linarith
  · exact hc
  · omega

theorem roundHalfEven_neg (q : ℚ) : roundHalfEven (-q) = -roundHalfEven q := by
  have hp := abs_le.mp (abs_roundHalfEven_sub_le (-q))
  have hq := abs_le.mp (abs_roundHalfEven_sub_le q)
  by_contra hne
  -- the two differ by one, so both are ties, and both are even
  have hdist : roundHalfEven (-q) + roundHalfEven q = 1 ∨
      roundHalfEven (-q) + roundHalfEven q = -1 := by
    have h1 : (roundHalfEven (-q) : ℚ) + roundHalfEven q ≤ 1 := by linarith [hp.2, hq.2]
    have h2 : -1 ≤ (roundHalfEven (-q) : ℚ) + roundHalfEven q := by linarith [hp.1, hq.1]
    have h1' : roundHalfEven (-q) + roundHalfEven q ≤ 1 := by exact_mod_cast h1
    have h2' : -1 ≤ roundHalfEven (-q) + roundHalfEven q := by exact_mod_cast h2
    omega
  rcases hdist with hd | hd
  · have hd' : (roundHalfEven (-q) : ℚ) + roundHalfEven q = 1 := by exact_mod_cast hd
    have e1 := roundHalfEven_even_of_tie (q := q) (by
      rw [show (roundHalfEven q : ℚ) - q = 1 / 2 by linarith [hp.2, hq.2]]; norm_num)
    have e2 := roundHalfEven_even_of_tie (q := -q) (by
      rw [show (roundHalfEven (-q) : ℚ) - -q = 1 / 2 by linarith [hp.2, hq.2]]; norm_num)
    omega
  · have hd' : (roundHalfEven (-q) : ℚ) + roundHalfEven q = -1 := by exact_mod_cast hd
    have e1 := roundHalfEven_even_of_tie (q := q) (by
      rw [show (roundHalfEven q : ℚ) - q = -(1 / 2) by linarith [hp.1, hq.1]]; norm_num)
    have e2 := roundHalfEven_even_of_tie (q := -q) (by
      rw [show (roundHalfEven (-q) : ℚ) - -q = -(1 / 2) by linarith [hp.1, hq.1]]; norm_num)
    omega

/-! ### A half away from zero -/

theorem abs_roundHalfAway_sub_le (q : ℚ) : |(roundHalfAway q : ℚ) - q| ≤ 1 / 2 := by
  rw [abs_le]
  unfold roundHalfAway
  split_ifs
  · rw [show (-q + 1 / 2).floor = ⌊-q + 1 / 2⌋ from rfl]
    have h0 := Int.floor_le (-q + 1 / 2)
    have h1 := Int.lt_floor_add_one (-q + 1 / 2)
    constructor <;> push_cast <;> linarith
  · rw [show (q + 1 / 2).floor = ⌊q + 1 / 2⌋ from rfl]
    have h0 := Int.floor_le (q + 1 / 2)
    have h1 := Int.lt_floor_add_one (q + 1 / 2)
    constructor <;> linarith

/-- What lies nearer to an integer than a half is rounded to it. -/
theorem roundHalfAway_eq {q : ℚ} {n : ℤ} (h : |q - n| < 1 / 2) : roundHalfAway q = n := by
  have hq := abs_le.mp (abs_roundHalfAway_sub_le q)
  have hn := abs_lt.mp h
  have h1 : (roundHalfAway q : ℚ) < n + 1 := by linarith [hq.2, hn.2]
  have h2 : (n : ℚ) - 1 < roundHalfAway q := by linarith [hq.1, hn.1]
  have h1' : roundHalfAway q < n + 1 := by exact_mod_cast h1
  have h2' : n - 1 < roundHalfAway q := by exact_mod_cast h2
  omega

theorem roundHalfAway_intCast (n : ℤ) : roundHalfAway n = n := by
  refine roundHalfAway_eq ?_
  norm_num

theorem roundHalfAway_mono {p q : ℚ} (h : p ≤ q) : roundHalfAway p ≤ roundHalfAway q :=
  mono_of_abs_sub_le abs_roundHalfAway_sub_le h

theorem roundHalfAway_mem {q : ℚ} {n : ℕ} (h0 : 0 ≤ q) (hn : q ≤ n) :
    0 ≤ roundHalfAway q ∧ roundHalfAway q ≤ n := by
  have hlow := roundHalfAway_mono h0
  have hhigh := roundHalfAway_mono hn
  rw [← Int.cast_zero, roundHalfAway_intCast] at hlow
  rw [← Int.cast_natCast, roundHalfAway_intCast] at hhigh
  exact ⟨hlow, hhigh⟩

/-! ### Toward zero -/

theorem truncate_of_nonneg {q : ℚ} (h : 0 ≤ q) : truncate q = ⌊q⌋ := by
  rw [truncate, if_neg (not_lt.mpr h)]
  rfl

theorem truncate_neg (q : ℚ) : truncate (-q) = -truncate q := by
  rcases lt_trichotomy q 0 with h | rfl | h
  · rw [truncate, truncate, if_neg (by linarith), if_pos h, neg_neg]
  · rfl
  · rw [truncate, truncate, if_pos (by linarith), if_neg (by linarith), neg_neg]

end CssColor.Number
