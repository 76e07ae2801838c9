import CssColor.Proofs.Number.Range
import Mathlib.Algebra.Order.Group.MinMax
import Mathlib.Tactic.FieldSimp

/-! # Doubles near a number

`Near a e q x` says that `x` is a finite double off `q` by at most `e`, where `q` is of magnitude at
most `a`. An operation on doubles near two numbers leads near the exact result, with the errors it
inherits and a `roundoff` of its own: below 4096 a number is rounded by less than that. The bounds
are generous, for a formula whose result is rounded to a whole number in the end. -/

namespace CssColor.Number.Binary64

open Scalar

/-- What rounding changes at most about a number of magnitude at most 4096. -/
def roundoff : ℚ := 1 / 10 ^ 12

/-- A finite double off `q` by at most `e`, where `q` is of magnitude at most `a`. -/
structure Near (a e q : ℚ) (x : Binary64) : Prop where
  isFinite : x.isFinite = true
  size_le : |q| ≤ a
  error_le : |x.value - q| ≤ e

theorem abs_nearest_sub_le_roundoff {q : ℚ} (h : |q| ≤ 4096) : |nearest q - q| ≤ roundoff :=
  (abs_nearest_sub_le_of_le h (by norm_num)).trans (by norm_num [roundoff])

theorem near_signed {q : ℚ} (s : Bool) (h : |q| ≤ 4096) : Near 4096 roundoff q (signed s q) := by
  have hd : IsDouble 4096 := by exact_mod_cast isDouble_natCast (n := 4096) (by norm_num)
  obtain ⟨h1, h2⟩ := abs_le.mp h
  have hlt := abs_nearest_lt_bound hd.neg hd h1 h2
  refine ⟨isFinite_signed s hlt, h, ?_⟩
  rw [value_signed s hlt]
  exact abs_nearest_sub_le_roundoff h

theorem near_of_value_eq {a q : ℚ} {x : Binary64} (hx : x.isFinite = true) (hv : x.value = q)
    (hq : |q| ≤ a) : Near a 0 q x :=
  ⟨hx, hq, by rw [hv, sub_self, abs_zero]⟩

theorem near_ofNat {n : ℕ} (h : n < 2 ^ 53) : Near n 0 n (ofNat n : Binary64) :=
  near_of_value_eq (isFinite_ofNat h) (value_ofNat h) (Nat.abs_cast n).le

section

variable {a b e f p q : ℚ} {x y : Binary64}

theorem Near.weaken (h : Near a e q x) (ha : a ≤ b) (he : e ≤ f) : Near b f q x :=
  ⟨h.isFinite, h.size_le.trans ha, h.error_le.trans he⟩

theorem Near.shift (h : Near a e p x) (hq : |q| ≤ b) (hpq : |p - q| ≤ f) : Near b (e + f) q x :=
  ⟨h.isFinite, hq, (abs_sub_le x.value p q).trans (add_le_add h.error_le hpq)⟩

theorem Near.bounds (h : Near a e q x) : q - e ≤ x.value ∧ x.value ≤ q + e := by
  obtain ⟨h1, h2⟩ := abs_le.mp h.error_le
  constructor <;> linarith

theorem Near.abs_value_le (h : Near a e q x) : |x.value| ≤ a + e := by
  linarith [abs_sub_abs_le_abs_sub x.value q, h.error_le, h.size_le]

theorem Near.nonneg (h : Near a e q x) : 0 ≤ a ∧ 0 ≤ e :=
  ⟨(abs_nonneg q).trans h.size_le, (abs_nonneg _).trans h.error_le⟩

/-! ### Comparisons -/

/-- A comparison of doubles orders the numbers they are near, but for their errors. -/
theorem Near.lt_of_lt (hx : Near a e p x) (hy : Near b f q y) (h : x < y) : p - e < q + f := by
  rw [lt_iff hx.isFinite hy.isFinite] at h
  linarith [hx.bounds.1, hy.bounds.2]

theorem Near.le_of_not_lt (hx : Near a e p x) (hy : Near b f q y) (h : ¬x < y) :
    q - f ≤ p + e := by
  rw [lt_iff hx.isFinite hy.isFinite] at h
  linarith [hx.bounds.2, hy.bounds.1]

theorem Near.larger (hx : Near a e p x) (hy : Near a e q y) :
    Near a e (max p q) (larger x y) := by
  refine ⟨isFinite_larger hx.isFinite hy.isFinite,
    abs_max_le_max_abs_abs.trans (max_le hx.size_le hy.size_le), ?_⟩
  rw [value_larger hx.isFinite hy.isFinite]
  exact (abs_max_sub_max_le_max ..).trans (max_le hx.error_le hy.error_le)

theorem Near.smaller (hx : Near a e p x) (hy : Near a e q y) :
    Near a e (min p q) (smaller x y) := by
  refine ⟨isFinite_smaller hx.isFinite hy.isFinite,
    abs_min_le_max_abs_abs.trans (max_le hx.size_le hy.size_le), ?_⟩
  rw [value_smaller hx.isFinite hy.isFinite]
  exact (abs_min_sub_min_le_max ..).trans (max_le hx.error_le hy.error_le)

/-! ### Operations -/

/-- What is rounded is near whatever the exact result is near. -/
theorem near_of_rounded {r : ℚ} {z : Binary64} (h : ∃ s, z = signed s r) (hq : |q| ≤ a)
    (hr : |r - q| ≤ e) (hb : a + e ≤ 4096) : Near a (e + roundoff) q z := by
  obtain ⟨s, rfl⟩ := h
  have hbound : |r| ≤ 4096 := by linarith [abs_sub_abs_le_abs_sub r q]
  have hs := (near_signed s hbound).shift hq hr
  rwa [add_comm]

theorem Near.add (hx : Near a e p x) (hy : Near b f q y) (hb : a + b + (e + f) ≤ 4096) :
    Near (a + b) (e + f + roundoff) (p + q) (x + y) := by
  refine near_of_rounded (exists_add_eq hx.isFinite hy.isFinite)
    ((abs_add_le p q).trans (add_le_add hx.size_le hy.size_le)) ?_ hb
  rw [show x.value + y.value - (p + q) = x.value - p + (y.value - q) by ring]
  exact (abs_add_le _ _).trans (add_le_add hx.error_le hy.error_le)

theorem Near.sub (hx : Near a e p x) (hy : Near b f q y) (hb : a + b + (e + f) ≤ 4096) :
    Near (a + b) (e + f + roundoff) (p - q) (x - y) := by
  refine near_of_rounded (exists_sub_eq hx.isFinite hy.isFinite)
    ((abs_sub p q).trans (add_le_add hx.size_le hy.size_le)) ?_ hb
  rw [show x.value - y.value - (p - q) = x.value - p - (y.value - q) by ring]
  exact (abs_sub _ _).trans (add_le_add hx.error_le hy.error_le)

theorem Near.mul (hx : Near a e p x) (hy : Near b f q y)
    (hb : a * b + (e * (b + f) + a * f) ≤ 4096) :
    Near (a * b) (e * (b + f) + a * f + roundoff) (p * q) (x * y) := by
  refine near_of_rounded (exists_mul_eq hx.isFinite hy.isFinite) ?_ ?_ hb
  · rw [abs_mul]
    exact mul_le_mul hx.size_le hy.size_le (abs_nonneg q) hx.nonneg.1
  · rw [show x.value * y.value - p * q = (x.value - p) * y.value + p * (y.value - q) by ring]
    refine (abs_add_le _ _).trans (add_le_add ?_ ?_) <;> rw [abs_mul]
    · exact mul_le_mul hx.error_le hy.abs_value_le (abs_nonneg _) hx.nonneg.2
    · exact mul_le_mul hx.size_le hy.error_le (abs_nonneg _) hx.nonneg.1

theorem Near.mul_ofNat {n : ℕ} (hx : Near a e p x) (hn : n < 2 ^ 53) (hb : a * n + e * n ≤ 4096) :
    Near (a * n) (e * n + roundoff) (p * n) (x * ofNat n) := by
  have h := hx.mul (near_ofNat hn) (by rwa [add_zero, mul_zero, add_zero])
  rwa [add_zero, mul_zero, add_zero] at h

theorem Near.div_ofNat {n : ℕ} (hx : Near a e p x) (hn0 : n ≠ 0) (hn : n < 2 ^ 53)
    (hb : a / n + e / n ≤ 4096) : Near (a / n) (e / n + roundoff) (p / n) (x / ofNat n) := by
  refine near_of_rounded (exists_div_eq hx.isFinite (isFinite_ofNat hn)
    (value_ofNat_ne_zero hn0 hn)) ?_ ?_ hb
  · rw [abs_div, Nat.abs_cast]
    exact div_le_div_of_nonneg_right hx.size_le n.cast_nonneg
  · rw [value_ofNat hn, ← sub_div, abs_div, Nat.abs_cast]
    exact div_le_div_of_nonneg_right hx.error_le n.cast_nonneg

/-- A quotient of magnitude at most one, by a divisor of at least `m`. -/
theorem Near.ratio {m : ℚ} (hx : Near a e p x) (hy : Near b f q y) (hm : 0 < m) (hmq : m ≤ q)
    (hf : f ≤ m / 2) (hpq : |p| ≤ q) (he : e ≤ m) :
    Near 1 (2 * (e + f) / m + roundoff) (p / q) (x / y) := by
  have hq : 0 < q := hm.trans_le hmq
  have hyv : m / 2 ≤ y.value := by linarith [hy.bounds.1]
  have hy0 : 0 < y.value := by linarith
  have hshare : |p / q| ≤ 1 := by
    rw [abs_div, abs_of_pos hq]
    exact div_le_one_of_le₀ hpq hq.le
  refine near_of_rounded (exists_div_eq hx.isFinite hy.isFinite hy0.ne') hshare ?_ ?_
  · -- the quotient is off by the errors of both, as shares of the divisor
    have heq : x.value / y.value - p / q
        = (x.value - p + p / q * (q - y.value)) / y.value := by
      field_simp
      ring
    have hnum : |x.value - p + p / q * (q - y.value)| ≤ e + f := by
      refine (abs_add_le _ _).trans (add_le_add hx.error_le ?_)
      rw [abs_mul, abs_sub_comm q]
      exact (mul_le_of_le_one_left (abs_nonneg _) hshare).trans hy.error_le
    rw [heq, abs_div, abs_of_pos hy0]
    calc _ ≤ (e + f) / (m / 2) := div_le_div₀ ((abs_nonneg _).trans hnum) hnum (by linarith) hyv
      _ = 2 * (e + f) / m := by ring
  · have hsmall : 2 * (e + f) / m ≤ 3 := by
      rw [div_le_iff₀ hm]
      linarith
    linarith

end

/-- What is near a whole number is rounded to it. -/
theorem toIntNearest_of_near {a : ℚ} {n : ℤ} {x : Binary64} (h : Near a (1 / 10) n x) :
    Scalar.toIntNearest x = n :=
  roundHalfAway_eq (h.error_le.trans_lt (by norm_num))

/-! ### Literals -/

theorem near_zero : Near 0 0 0 (0 : Binary64) := by exact_mod_cast near_ofNat (n := 0) (by norm_num)

theorem near_one : Near 1 0 1 (1 : Binary64) := by exact_mod_cast near_ofNat (n := 1) (by norm_num)

theorem near_two : Near 2 0 2 (2 : Binary64) := by exact_mod_cast near_ofNat (n := 2) (by norm_num)

theorem near_six : Near 6 0 6 (6 : Binary64) := by exact_mod_cast near_ofNat (n := 6) (by norm_num)

theorem near_half : Near 1 roundoff (1 / 2) (1 / 2 : Binary64) :=
  (near_one.div_ofNat (n := 2) (by norm_num) (by norm_num) (by norm_num)).weaken (by norm_num)
    (by norm_num)

theorem value_half : (1 / 2 : Binary64).value = 1 / 2 := by
  have hdouble : IsDouble (1 / 2) := ⟨1, -1, by norm_num, by norm_num, by norm_num, by norm_num⟩
  have h1 := value_ofNat (n := 1) (by norm_num)
  have h2 := value_ofNat (n := 2) (by norm_num)
  have hquotient : (ofNat 1 : Binary64).value / (ofNat 2 : Binary64).value = 1 / 2 := by
    rw [h1, h2]
    norm_num
  have hwithin := within_div (x := ofNat 1) (y := ofNat 2) (a := 1 / 2) (b := 1 / 2)
    (isFinite_ofNat (by norm_num)) (isFinite_ofNat (by norm_num)) (by rw [h2]; norm_num) hdouble
    hdouble hquotient.ge hquotient.le
  exact hwithin.value_eq

theorem near_third : Near 1 roundoff (1 / 3) (1 / 3 : Binary64) :=
  (near_one.div_ofNat (n := 3) (by norm_num) (by norm_num) (by norm_num)).weaken (by norm_num)
    (by norm_num)

theorem near_two_thirds : Near 1 roundoff (2 / 3) (2 / 3 : Binary64) :=
  (near_two.div_ofNat (n := 3) (by norm_num) (by norm_num) (by norm_num)).weaken (by norm_num)
    (by norm_num)

theorem near_sixth : Near 1 roundoff (1 / 6) (1 / 6 : Binary64) :=
  (near_one.div_ofNat (n := 6) (by norm_num) (by norm_num) (by norm_num)).weaken (by norm_num)
    (by norm_num)

end CssColor.Number.Binary64
