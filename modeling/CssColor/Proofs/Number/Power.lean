import CssColor.Number.Power
import CssColor.Proofs.Number.Arithmetic

/-! # Powers of shares

A power of a number from zero to one lies there as well (`within_pow`). The descent to a whole root
stops at a number whose square does not pass the given one (`descend_mul_self_le`), so a cut root is
none too large (`root_mul_self_le`) and stays below one where its number does; from there
`powerFrom` only takes products of such numbers. -/

namespace CssColor.Number

/-! ### Roots -/

/-- The descent goes on as long as the guess is too large. -/
theorem descend_mul_self_le (n guess : ℕ) : descend n guess * descend n guess ≤ n := by
  fun_induction descend n guess with
  | case1 guess next h ih => exact ih
  | case2 guess next h =>
    rcases Nat.eq_zero_or_pos guess with rfl | hpos
    · simp
    · have hdiv : guess ≤ n / guess := by omega
      exact (Nat.le_div_iff_mul_le hpos).mp hdiv

theorem root_nonneg (q : ℚ) : 0 ≤ root q := by
  unfold root
  positivity

theorem natCast_toNat_floor_le {z : ℚ} (h : 0 ≤ z) : (z.floor.toNat : ℚ) ≤ z := by
  have hz : ((z.floor.toNat : ℤ) : ℚ) ≤ z := by
    rw [Int.toNat_of_nonneg (Rat.le_floor_iff.mpr (by simpa using h))]
    exact Rat.floor_le z
  exact_mod_cast hz

/-- A cut root is none too large. -/
theorem root_mul_self_le {q : ℚ} (h : 0 ≤ q) : root q * root q ≤ q := by
  unfold root
  dsimp only
  have hu : (0 : ℚ) < 2 ^ (Binary64.binade q / 2 + 1 - rootBits) := by positivity
  generalize (2 : ℚ) ^ (Binary64.binade q / 2 + 1 - rootBits) = u at hu ⊢
  have hfloor := natCast_toNat_floor_le (z := q / (u * u)) (by positivity)
  generalize (q / (u * u)).floor.toNat = n at hfloor ⊢
  have hroot : (wholeRoot n : ℚ) * wholeRoot n ≤ n := by
    exact_mod_cast descend_mul_self_le n _
  calc (wholeRoot n : ℚ) * u * (wholeRoot n * u) = wholeRoot n * wholeRoot n * (u * u) := by ring
    _ ≤ q / (u * u) * (u * u) := by gcongr; exact hroot.trans hfloor
    _ = q := div_mul_cancel₀ q (by positivity)

theorem root_le_one {q : ℚ} (h0 : 0 ≤ q) (h1 : q ≤ 1) : root q ≤ 1 := by
  have h := (root_mul_self_le h0).trans h1
  nlinarith [root_nonneg q]

/-! ### Powers -/

theorem powerFrom_mem {q : ℚ} (hq0 : 0 ≤ q) (hq1 : q ≤ 1) (k m : ℕ) {r : ℚ} (hr0 : 0 ≤ r)
    (hr1 : r ≤ 1) : 0 ≤ powerFrom q r k m ∧ powerFrom q r k m ≤ 1 := by
  induction k generalizing r m with
  | zero => exact ⟨by unfold powerFrom; positivity, mul_le_one₀ (pow_le_one₀ hq0 hq1) hr0 hr1⟩
  | succ k ih =>
    have h0 : 0 ≤ q ^ (m % 2) * r := by positivity
    have h1 : q ^ (m % 2) * r ≤ 1 := mul_le_one₀ (pow_le_one₀ hq0 hq1) hr0 hr1
    exact ih (m / 2) (root_nonneg _) (root_le_one h0 h1)

/-- **A power of a share is a share.** -/
theorem Binary64.within_pow {x : Binary64} (h : Within 0 1 x) (y : Binary64) :
    Within 0 1 (pow x y) := by
  obtain ⟨h0, h1⟩ := powerFrom_mem h.lo_le h.le_hi y.value.den.log2 y.value.num.toNat
    zero_le_one le_rfl
  rw [pow, if_pos h.isFinite]
  exact within_ofRat isDouble_zero isDouble_one h0 h1

end CssColor.Number
