import CssColor.Proofs.Number.Arithmetic

/-! # Ranges of scalars in double precision

What moves a number into an interval leads into it, whatever is not `nan` (`within_clamp`), and
leaves alone what lies there (`clamp_eq_self`). A whole number is found again from its share of
another (`toIntNearest_div_mul`), and a reduced angle lies from 0 to 360 (`within_wrapDegrees`). -/

namespace CssColor.Number.Binary64

open Scalar

/-! ### Whole numbers -/

theorem within_ofNat {n : ℕ} {a b : ℚ} (h : n < 2 ^ 53) (ha : a ≤ n) (hb : n ≤ b) :
    Within a b (ofNat n : Binary64) := by
  rw [ofNat_eq_finite h]
  exact within_finite (isDouble_natCast h) ha hb

theorem value_ofNat {n : ℕ} (h : n < 2 ^ 53) : (ofNat n : Binary64).value = n := by
  rw [ofNat_eq_finite h]; rfl

theorem value_one : (1 : Binary64).value = 1 := by exact_mod_cast value_ofNat (n := 1) (by norm_num)

theorem value_literal {n : ℕ} [n.AtLeastTwo] (h : n < 2 ^ 53) :
    (OfNat.ofNat n : Binary64).value = OfNat.ofNat n := value_ofNat h

theorem isFinite_ofNat {n : ℕ} (h : n < 2 ^ 53) : (ofNat n : Binary64).isFinite = true := by
  rw [ofNat_eq_finite h]; rfl

theorem value_ofNat_ne_zero {n : ℕ} (h0 : n ≠ 0) (h : n < 2 ^ 53) :
    (ofNat n : Binary64).value ≠ 0 := by
  rw [value_ofNat h]
  exact_mod_cast h0

theorem IsNumber.div_ofNat {n : ℕ} {x : Binary64} (hx : x.IsNumber) (h0 : n ≠ 0) (h : n < 2 ^ 53) :
    (x / ofNat n).IsNumber :=
  isNumber_div hx.isNaN (isFinite_ofNat h) (value_ofNat_ne_zero h0 h)

theorem IsNumber.mul_ofNat {n : ℕ} {x : Binary64} (hx : x.IsNumber) (h0 : n ≠ 0) (h : n < 2 ^ 53) :
    (x * ofNat n).IsNumber :=
  hx.mul (isFinite_ofNat h) (value_ofNat_ne_zero h0 h)

/-! ### Intervals -/

theorem within_clamp {lo hi : ℕ} (hle : lo ≤ hi) (hhi : hi < 2 ^ 53) {x : Binary64}
    (hx : x.IsNumber) : Within lo hi (clamp (ofNat lo) (ofNat hi) x) := by
  obtain ⟨hn, hd⟩ := hx
  have hlo : lo < 2 ^ 53 := by omega
  have hle' : (lo : ℚ) ≤ hi := by exact_mod_cast hle
  have hbl := (abs_lt.mp (isDouble_natCast hlo).abs_lt_bound).1
  have hbh := (abs_lt.mp (isDouble_natCast hhi).abs_lt_bound).2
  unfold clamp
  split_ifs with h1 h2
  · exact within_ofNat hlo le_rfl hle'
  · exact within_ofNat hhi hle' le_rfl
  · rw [ofNat_eq_finite hlo] at h1
    rw [ofNat_eq_finite hhi] at h2
    cases x with
    | nan => cases hn
    | infinity s =>
      cases s
      · exact absurd ⟨rfl, hbh⟩ h2
      · exact absurd ⟨rfl, hbl⟩ h1
    | negZero =>
      rw [lt_iff rfl rfl] at h1 h2
      exact ⟨rfl, hd, not_lt.mp h1, not_lt.mp h2⟩
    | finite q =>
      rw [lt_iff rfl rfl] at h1 h2
      exact ⟨rfl, hd, not_lt.mp h1, not_lt.mp h2⟩

theorem clamp_eq_self {lo hi : ℕ} (hlo : lo < 2 ^ 53) (hhi : hi < 2 ^ 53) {x : Binary64}
    (h : Within lo hi x) : clamp (ofNat lo) (ofNat hi) x = x := by
  unfold clamp
  rw [if_neg, if_neg]
  · rw [lt_iff (isFinite_ofNat hhi) h.isFinite, value_ofNat hhi]
    exact not_lt.mpr h.le_hi
  · rw [lt_iff h.isFinite (isFinite_ofNat hlo), value_ofNat hlo]
    exact not_lt.mpr h.lo_le

theorem within_clampUnit {x : Binary64} (hx : x.IsNumber) : Within 0 1 (clampUnit x) := by
  rw [← Nat.cast_zero, ← Nat.cast_one]
  exact within_clamp (by norm_num) (by norm_num) hx

theorem clampUnit_eq_self {x : Binary64} (h : Within 0 1 x) : clampUnit x = x := by
  rw [← Nat.cast_zero, ← Nat.cast_one] at h
  exact clamp_eq_self (by norm_num) (by norm_num) h

theorem clampUnit_nan : clampUnit nan = nan := by decide +kernel

/-! ### The larger and the smaller of two -/

theorem larger_eq {x y : Binary64} (hx : x.isFinite = true) (hy : y.isFinite = true) :
    larger x y = if x.value < y.value then y else x := by
  unfold larger
  simp only [lt_iff hx hy, le_iff hx hx, le_refl, if_true]

theorem smaller_eq {x y : Binary64} (hx : x.isFinite = true) (hy : y.isFinite = true) :
    smaller x y = if y.value < x.value then y else x := by
  unfold smaller
  simp only [lt_iff hy hx, le_iff hx hx, le_refl, if_true]

section

variable {a b : ℚ} {x y : Binary64}

theorem Within.larger (hx : Within a b x) (hy : Within a b y) : Within a b (larger x y) := by
  rw [larger_eq hx.isFinite hy.isFinite]
  split_ifs
  · exact hy
  · exact hx

theorem Within.smaller (hx : Within a b x) (hy : Within a b y) : Within a b (smaller x y) := by
  rw [smaller_eq hx.isFinite hy.isFinite]
  split_ifs
  · exact hy
  · exact hx

theorem larger_self (hx : x.isFinite = true) : larger x x = x := by rw [larger_eq hx hx, ite_self]

theorem smaller_self (hx : x.isFinite = true) : smaller x x = x := by
  rw [smaller_eq hx hx, ite_self]

theorem isFinite_larger (hx : x.isFinite = true) (hy : y.isFinite = true) :
    (larger x y).isFinite = true := by
  rw [larger_eq hx hy, apply_ite Binary64.isFinite, hx, hy, ite_self]

theorem isFinite_smaller (hx : x.isFinite = true) (hy : y.isFinite = true) :
    (smaller x y).isFinite = true := by
  rw [smaller_eq hx hy, apply_ite Binary64.isFinite, hx, hy, ite_self]

theorem value_larger (hx : x.isFinite = true) (hy : y.isFinite = true) :
    (larger x y).value = max x.value y.value := by
  rw [larger_eq hx hy]
  split_ifs with h
  · exact (max_eq_right h.le).symm
  · exact (max_eq_left (not_lt.mp h)).symm

theorem value_smaller (hx : x.isFinite = true) (hy : y.isFinite = true) :
    (smaller x y).value = min x.value y.value := by
  rw [smaller_eq hx hy]
  split_ifs with h
  · exact (min_eq_right h.le).symm
  · exact (min_eq_left (not_lt.mp h)).symm

end

/-! ### Small numbers -/

/-- A finite double of magnitude at most `n`. -/
def Small (n : ℕ) (x : Binary64) : Prop := Within (-n) n x

theorem Within.small {a b : ℚ} {n : ℕ} {x : Binary64} (h : Within a b x) (ha : -n ≤ a)
    (hb : b ≤ n) :
    Small n x :=
  h.weaken ha hb

theorem Small.mono {m n : ℕ} {x : Binary64} (h : Small m x) (hle : m ≤ n) : Small n x := by
  have : (m : ℚ) ≤ n := by exact_mod_cast hle
  exact h.weaken (neg_le_neg this) this

theorem small_ofNat {n : ℕ} (h : n < 2 ^ 53) : Small n (ofNat n : Binary64) :=
  within_ofNat h (neg_le_self (Nat.cast_nonneg n)) le_rfl

section

variable {m n : ℕ} {x y : Binary64}

theorem Small.isNumber (h : Small n x) : x.IsNumber := Within.isNumber h

theorem Small.abs_value_le (h : Small n x) : |x.value| ≤ n := abs_le.mpr ⟨h.lo_le, h.le_hi⟩

theorem Small.add (hx : Small m x) (hy : Small n y) (h : m + n < 2 ^ 53) :
    Small (m + n) (x + y) := by
  have hd := isDouble_natCast h
  have hm := hx.lo_le
  have hn := hy.lo_le
  have hm' := hx.le_hi
  have hn' := hy.le_hi
  push_cast at hd
  refine within_add hx.isFinite hy.isFinite ?_ ?_ ?_ ?_ <;> push_cast
  · exact hd.neg
  · exact hd
  · linarith
  · linarith

theorem Small.sub (hx : Small m x) (hy : Small n y) (h : m + n < 2 ^ 53) :
    Small (m + n) (x - y) := by
  have hd := isDouble_natCast h
  have hm := hx.lo_le
  have hn := hy.lo_le
  have hm' := hx.le_hi
  have hn' := hy.le_hi
  push_cast at hd
  refine within_sub hx.isFinite hy.isFinite ?_ ?_ ?_ ?_ <;> push_cast
  · exact hd.neg
  · exact hd
  · linarith
  · linarith

theorem Small.mul (hx : Small m x) (hy : Small n y) (h : m * n < 2 ^ 53) :
    Small (m * n) (x * y) := by
  have hd := isDouble_natCast h
  have hmul : |x.value * y.value| ≤ m * n := by
    rw [abs_mul]
    exact mul_le_mul hx.abs_value_le hy.abs_value_le (abs_nonneg _) (Nat.cast_nonneg m)
  push_cast at hd
  obtain ⟨h1, h2⟩ := abs_le.mp hmul
  refine within_mul hx.isFinite hy.isFinite ?_ ?_ ?_ ?_ <;> push_cast
  · exact hd.neg
  · exact hd
  · exact h1
  · exact h2

theorem Small.div_ofNat (hx : Small m x) (hm : m < 2 ^ 53) (hn0 : n ≠ 0) (hn : n < 2 ^ 53) :
    Small m (x / ofNat n) := by
  have hd := isDouble_natCast hm
  have hv := value_ofNat hn
  have hn1 : (1 : ℚ) ≤ n := by exact_mod_cast Nat.one_le_iff_ne_zero.mpr hn0
  have hdiv : |x.value / n| ≤ m := by
    rw [abs_div, Nat.abs_cast]
    exact (div_le_self (abs_nonneg _) hn1).trans hx.abs_value_le
  obtain ⟨h1, h2⟩ := abs_le.mp hdiv
  refine within_div hx.isFinite (isFinite_ofNat hn) ?_ hd.neg hd ?_ ?_ <;> rw [hv]
  · exact (zero_lt_one.trans_le hn1).ne'
  · exact h1
  · exact h2

end

/-- A part of a whole, as its share of it. -/
theorem within_ratio {x y : Binary64} (hx : x.isFinite = true) (hy : y.isFinite = true)
    (h0 : 0 ≤ x.value) (hle : x.value ≤ y.value) (hpos : 0 < y.value) : Within 0 1 (x / y) :=
  within_div hx hy hpos.ne' isDouble_zero isDouble_one (div_nonneg h0 hpos.le)
    ((div_le_one hpos).mpr hle)

theorem within_share {n : ℕ} {x : Binary64} (h : Within 0 n x) (hn0 : n ≠ 0) (hn : n < 2 ^ 53) :
    Within 0 1 (x / ofNat n) := by
  refine within_ratio h.isFinite (isFinite_ofNat hn) h.lo_le ?_ ?_ <;> rw [value_ofNat hn]
  · exact h.le_hi
  · exact_mod_cast Nat.pos_of_ne_zero hn0

theorem within_literalShare {n d : ℕ} (hle : n ≤ d) (h0 : d ≠ 0) (hd : d < 2 ^ 53) :
    Within 0 1 (ofNat n / ofNat d : Binary64) :=
  within_share (within_ofNat (hle.trans_lt hd) n.cast_nonneg (by exact_mod_cast hle)) h0 hd

theorem Within.to_value {q : ℚ} {x : Binary64} (h : Within 0 q x) : Within 0 x.value x :=
  ⟨h.isFinite, h.isDouble, h.lo_le, le_rfl⟩

/-- A product with a share does not pass the other factor. -/
theorem Within.mul_share {q : ℚ} {x y : Binary64} (hx : Within 0 q x) (hy : Within 0 1 y) :
    Within 0 x.value (x * y) :=
  within_mul hx.isFinite hy.isFinite isDouble_zero hx.isDouble (mul_nonneg hx.lo_le hy.lo_le)
    (mul_le_of_le_one_right hx.lo_le hy.le_hi)

/-- Addition is monotone, rounding included. -/
theorem within_add_mono {a b x y : Binary64} (ha : a.isFinite = true) (hb : b.isFinite = true)
    (hab : a.value + b.value ≤ 2) (hx : Within 0 a.value x) (hy : Within 0 b.value y) :
    Within 0 (a + b).value (x + y) := by
  have h0 : 0 ≤ x.value + y.value := add_nonneg hx.lo_le hy.lo_le
  have hle : x.value + y.value ≤ a.value + b.value := add_le_add hx.le_hi hy.le_hi
  have hsum := within_add hx.isFinite hy.isFinite isDouble_zero isDouble_two h0 (hle.trans hab)
  have hlow := abs_nearest_lt_bound isDouble_zero isDouble_two h0 (hle.trans hab)
  have hhigh := abs_nearest_lt_bound isDouble_zero isDouble_two (h0.trans hle) hab
  refine ⟨hsum.isFinite, hsum.isDouble, hsum.lo_le, ?_⟩
  rw [value_add hx.isFinite hy.isFinite hlow, value_add ha hb hhigh]
  exact nearest_mono hle

/-! ### Shares of whole numbers -/

theorem Within.mul_ofNat {q : ℚ} {x : Binary64} (h : Within 0 q x) {n : ℕ} (hn : n < 2 ^ 53)
    (hd : IsDouble (q * n)) : Within 0 (q * n) (x * ofNat n) := by
  refine within_mul h.isFinite (isFinite_ofNat hn) isDouble_zero hd ?_ ?_ <;> rw [value_ofNat hn]
  · exact mul_nonneg h.lo_le n.cast_nonneg
  · exact mul_le_mul_of_nonneg_right h.le_hi n.cast_nonneg

theorem Within.add_ofNat {a b : ℤ} {x : Binary64} (h : Within a b x) {n : ℕ} (hn : n < 2 ^ 53)
    (ha : |a + n| < 2 ^ 53) (hb : |b + n| < 2 ^ 53) :
    Within (a + n : ℤ) (b + n : ℤ) (x + ofNat n) := by
  have h1 := h.lo_le
  have h2 := h.le_hi
  refine within_add h.isFinite (isFinite_ofNat hn) (isDouble_intCast ha) (isDouble_intCast hb)
    ?_ ?_ <;> rw [value_ofNat hn] <;> push_cast <;> linarith

theorem Within.toIntNearest_mem {q : ℚ} {x : Binary64} (h : Within 0 q x) :
    0 ≤ Scalar.toIntNearest x ∧ Scalar.toIntNearest x ≤ roundHalfAway q := by
  refine ⟨?_, roundHalfAway_mono h.le_hi⟩
  have hlo := roundHalfAway_mono h.lo_le
  rwa [← Int.cast_zero, roundHalfAway_intCast] at hlo

/-- A share of `n`, rounded to a whole number, is one up to `n`. -/
theorem Within.toIntNearest_share_mem {x : Binary64} (h : Within 0 1 x) {n : ℕ} (hn : n < 2 ^ 53) :
    0 ≤ Scalar.toIntNearest (x * ofNat n) ∧ Scalar.toIntNearest (x * ofNat n) ≤ n := by
  have hd : IsDouble (1 * (n : ℚ)) := by
    rw [one_mul]
    exact isDouble_natCast hn
  have hproduct := h.mul_ofNat hn hd
  rw [one_mul] at hproduct
  exact roundHalfAway_mem hproduct.lo_le hproduct.le_hi

theorem value_share {n : ℕ} {x : Binary64} (h : Within 0 n x) (hn0 : n ≠ 0) (hn : n < 2 ^ 53) :
    (x / ofNat n).value = nearest (x.value / n) := by
  have hpos : (0 : ℚ) < n := by exact_mod_cast Nat.pos_of_ne_zero hn0
  obtain ⟨s, hs⟩ := exists_div_eq h.isFinite (isFinite_ofNat hn) (value_ofNat_ne_zero hn0 hn)
  rw [hs, value_ofNat hn]
  exact value_signed s (abs_nearest_lt_bound isDouble_zero isDouble_one
    (div_nonneg h.lo_le hpos.le) ((div_le_one hpos).mpr h.le_hi))

theorem value_ofNat_div_ofNat {n d : ℕ} (h0 : d ≠ 0) (hn : n ≤ d) (hd : d < 2 ^ 53) :
    (ofNat n / ofNat d : Binary64).isFinite = true ∧
      (ofNat n / ofNat d : Binary64).value = nearest (n / d) := by
  have hshare : Within 0 d (ofNat n : Binary64) :=
    within_ofNat (by omega) n.cast_nonneg (by exact_mod_cast hn)
  refine ⟨(within_share hshare h0 hd).isFinite, ?_⟩
  rw [value_share hshare h0 hd, value_ofNat (by omega)]

/-- A whole number is found again from its share of another: the two roundings move it by less
than a half. -/
theorem toIntNearest_div_mul {n d : ℕ} (h0 : d ≠ 0) (hn : n ≤ d) (hd : d < 2 ^ 51) :
    toIntNearest (ofNat n / ofNat d * ofNat d : Binary64) = (n : ℤ) := by
  have hd1 : (1 : ℚ) ≤ d := by exact_mod_cast Nat.one_le_iff_ne_zero.mpr h0
  have hd2 : (d : ℚ) < 2 ^ 51 := by exact_mod_cast hd
  have hpos : (0 : ℚ) < d := zero_lt_one.trans_le hd1
  have hq0 : (0 : ℚ) ≤ n / d := by positivity
  have hq1 : (n : ℚ) / d ≤ 1 := (div_le_one hpos).mpr (by exact_mod_cast hn)
  obtain ⟨hfin, hvalue⟩ := value_ofNat_div_ofNat h0 hn (by omega)
  -- the share, at most 1, is off by at most `2 ^ -53`
  set p := nearest (n / d : ℚ)
  have hshare : |p - n / d| ≤ 1 / 2 ^ 53 :=
    abs_nearest_sub_le_of_le (by rwa [abs_of_nonneg hq0]) le_rfl
  have hback : |p * d - n| ≤ d / 2 ^ 53 := by
    have heq : p * d - n = (p - n / d) * d := by rw [sub_mul, div_mul_cancel₀ _ hpos.ne']
    rw [heq, abs_mul, abs_of_pos hpos]
    calc |p - n / d| * d ≤ 1 / 2 ^ 53 * d := mul_le_mul_of_nonneg_right hshare hpos.le
      _ = d / 2 ^ 53 := by ring
  -- and the product, at most `d`, by at most as much of `d`
  have hp0 : 0 ≤ p * d := mul_nonneg (nearest_nonneg hq0) hpos.le
  have hp1 : p * d ≤ d := mul_le_of_le_one_left hpos.le (nearest_le isDouble_one hq1)
  have hproduct : |nearest (p * d) - p * d| ≤ d / 2 ^ 53 :=
    abs_nearest_sub_le_of_le (by rwa [abs_of_nonneg hp0]) hd1
  have hmul : (ofNat n / ofNat d * ofNat d : Binary64).value = nearest (p * d) := by
    have hlt := abs_nearest_lt_bound isDouble_zero (isDouble_natCast (n := d) (by omega)) hp0 hp1
    obtain ⟨s, hs⟩ := exists_mul_eq hfin (isFinite_ofNat (n := d) (by omega))
    rw [hvalue, value_ofNat (by omega)] at hs
    rw [hs, value_signed s hlt]
  show roundHalfAway _ = _
  rw [hmul]
  refine roundHalfAway_eq ?_
  have hsum := abs_sub_le (nearest (p * d)) (p * d) (n : ℚ)
  push_cast
  linarith

/-! ### Angles -/

theorem abs_sub_truncate_le (q : ℚ) : |q - truncate q| ≤ 1 := by
  rw [abs_le]
  unfold truncate
  split_ifs
  · rw [show (-q).floor = ⌊-q⌋ from rfl]
    have h0 := Int.floor_le (-q)
    have h1 := Int.lt_floor_add_one (-q)
    constructor <;> push_cast <;> linarith
  · rw [show q.floor = ⌊q⌋ from rfl]
    have h0 := Int.floor_le q
    have h1 := Int.lt_floor_add_one q
    constructor <;> linarith

theorem exists_rem_eq {x y : Binary64} (hx : x.isFinite = true) (hy : y.isFinite = true)
    (h0 : y.value ≠ 0) :
    ∃ s, Binary64.rem x y = signed s (x.value - y.value * truncate (x.value / y.value)) := by
  refine ⟨x.isNegative, ?_⟩
  have hz : y.isZero = false := by rw [Bool.eq_false_iff, ne_eq, isZero_iff hy]; exact h0
  unfold Binary64.rem
  simp [isNaN_of_isFinite hx, isNaN_of_isFinite hy, isInfinite_of_isFinite hx,
    isInfinite_of_isFinite hy, hz]

theorem within_rem {x : Binary64} {n : ℕ} (hx : x.isFinite = true) (hn0 : n ≠ 0) (hn : n < 2 ^ 53) :
    Within (-n) n (Binary64.rem x (ofNat n)) := by
  have hv := value_ofNat hn
  have hn0' : (0 : ℚ) < n := by exact_mod_cast Nat.pos_of_ne_zero hn0
  obtain ⟨s, hs⟩ := exists_rem_eq hx (isFinite_ofNat hn) (by rw [hv]; exact hn0'.ne')
  have heq : x.value - n * truncate (x.value / n) = n * (x.value / n - truncate (x.value / n)) := by
    field_simp
  have habs := abs_le.mp (abs_sub_truncate_le (x.value / n))
  rw [hs, hv, heq]
  refine within_signed s (isDouble_natCast hn).neg (isDouble_natCast hn) ?_ ?_ <;> nlinarith

theorem within_wrapDegrees {x : Binary64} (hx : x.isFinite = true) :
    Within 0 360 (wrapDegrees x) := by
  have hr : Within (-360) 360 (Binary64.rem x (ofNat 360)) := by
    exact_mod_cast within_rem hx (n := 360) (by norm_num) (by norm_num)
  have hd : IsDouble 360 := by exact_mod_cast isDouble_natCast (n := 360) (by norm_num)
  have h0 : (ofNat 0 : Binary64).isFinite = true := isFinite_ofNat (by norm_num)
  have h360 : (ofNat 360 : Binary64).isFinite = true := isFinite_ofNat (by norm_num)
  have hv360 : (ofNat 360 : Binary64).value = 360 := value_literal (by norm_num)
  have hlt := lt_iff hr.isFinite h0
  rw [value_ofNat (by norm_num), Nat.cast_zero] at hlt
  unfold wrapDegrees
  dsimp only
  split_ifs with hneg
  · have hneg' := hlt.mp hneg
    show Within 0 360 (Binary64.rem x (ofNat 360) + ofNat 360)
    refine within_add hr.isFinite h360 isDouble_zero hd ?_ ?_ <;> rw [hv360] <;>
      linarith [hr.lo_le]
  · exact ⟨hr.isFinite, hr.isDouble, not_lt.mp (mt hlt.mpr hneg), hr.le_hi⟩

/-- A whole angle below a full turn is not changed. -/
theorem value_wrapDegrees_ofNat {h : ℕ} (hh : h < 360) :
    (wrapDegrees (ofNat h : Binary64)).isFinite = true ∧
      (wrapDegrees (ofNat h : Binary64)).value = h := by
  have hq : (h : ℚ) < 360 := by exact_mod_cast hh
  have hd : IsDouble h := isDouble_natCast (by omega)
  have hv : (ofNat 360 : Binary64).value = 360 := value_literal (by norm_num)
  have hfloor : ⌊(h : ℚ) / 360⌋ = 0 := Int.floor_eq_zero_iff.mpr
    ⟨by positivity, (div_lt_one (by norm_num)).mpr hq⟩
  obtain ⟨s, hs⟩ := exists_rem_eq (isFinite_ofNat (n := h) (by omega))
    (isFinite_ofNat (n := 360) (by norm_num)) (by rw [hv]; norm_num)
  rw [value_ofNat (by omega), hv, truncate_of_nonneg (by positivity), hfloor, Int.cast_zero,
    mul_zero, sub_zero] at hs
  have hw := within_signed s hd hd le_rfl le_rfl
  have hr : wrapDegrees (ofNat h : Binary64) = signed s h := by
    unfold wrapDegrees
    dsimp only
    rw [show (Scalar.rem (ofNat h) 360 : Binary64) = signed s h from hs, if_neg]
    refine mt (lt_iff hw.isFinite (isFinite_ofNat (n := 0) (by norm_num))).mp ?_
    rw [value_ofNat (by norm_num), not_lt, Nat.cast_zero]
    exact h.cast_nonneg.trans hw.lo_le
  rw [hr]
  exact ⟨hw.isFinite, le_antisymm hw.le_hi hw.lo_le⟩

end CssColor.Number.Binary64
