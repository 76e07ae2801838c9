import CssColor.Proofs.Color.Ends

/-! # From hue, saturation and lightness and back

A color made from whole degrees and percent has the same whole degrees and percent again
(`Hsl.toWhole_ofWhole`), whatever the roundings in between are: channels near those of a position on
the circle lead near that position, saturation and lightness (`Rgba.NearCircle.toHsl`). Two
divisions carry the errors: one by the range of the channels, which is at least 1/5000, and one by
the divisor of the saturation, which is at least 1/50.

At the ends this fails. A gray has no hue, and black and white have no saturation to find again:
there the three numbers stay if and only if hue or saturation are zero
(`Hsl.toWhole_ofWhole_iff`). -/

namespace CssColor

open Number Number.Scalar Number.Binary64

namespace Rgba

open Hsl

/-! ### The largest and the smallest channel -/

/-- A channel that is no smaller than another is so on the circle, but for an error. -/
theorem ramp_le_of_value_le {w d p q : ℚ} {y z : Binary64} (hd : 1 / 5000 ≤ d)
    (hy : Near 1 (1502 * roundoff) (w + d * ramp p) y)
    (hz : Near 1 (1502 * roundoff) (w + d * ramp q) z) (hle : z.value ≤ y.value) :
    ramp q ≤ ramp p + 1 / 10 ^ 4 := by
  have h1 := hy.bounds.2
  have h2 := hz.bounds.1
  norm_num [roundoff] at h1 h2
  by_contra hlt
  nlinarith

/-- A position that is found but for a full turn. -/
theorem near_position {a x y : ℚ} {z : Binary64} (h0 : 0 ≤ x) (h6 : x ≤ 6)
    (hz : Near a (2 / 10 ^ 4) y z) (n : ℤ) (hn1 : -1 ≤ n) (hn2 : n ≤ 1)
    (hy : |y - (x + 6 * n)| ≤ 1 / 10 ^ 4) :
    ∃ n : ℤ, Near 13 (3 / 10 ^ 4) (x + 6 * n) z := by
  have h1 : (-1 : ℚ) ≤ n := by exact_mod_cast hn1
  have h2 : (n : ℚ) ≤ 1 := by exact_mod_cast hn2
  exact ⟨n, (hz.shift (abs_le.mpr ⟨by linarith, by linarith⟩) hy).weaken le_rfl (by norm_num)⟩

section

variable {w d x : ℚ} {c : Color} (h : NearCircle w d x c) (hd : 1 / 5000 ≤ d) (h0 : 0 ≤ x)
  (h6 : x ≤ 6)

include h hd h0 h6

theorem NearCircle.largest : Near 1 (1502 * roundoff) (w + d) c.largest := by
  have hm := (h.red.larger h.green).larger h.blue
  rw [max_add_add_left, ← mul_max_of_nonneg _ _ (by linarith), max_add_add_left,
    ← mul_max_of_nonneg _ _ (by linarith), max_ramps h0 h6, mul_one] at hm
  exact hm

theorem NearCircle.smallest : Near 1 (1502 * roundoff) w c.smallest := by
  have hm := (h.red.smaller h.green).smaller h.blue
  rw [min_add_add_left, ← mul_min_of_nonneg _ _ (by linarith), min_add_add_left,
    ← mul_min_of_nonneg _ _ (by linarith), min_ramps h0 h6, mul_zero, add_zero] at hm
  exact hm

theorem NearCircle.range : Near 2 (3005 * roundoff) d (c.largest - c.smallest) := by
  have hr := (h.largest hd h0 h6).sub (h.smallest hd h0 h6) (by norm_num [roundoff])
  rw [add_sub_cancel_left] at hr
  exact hr.weaken (by norm_num) (by norm_num [roundoff])

/-- The difference of two channels, as a share of the range. -/
theorem NearCircle.share {p q : ℚ} {y z : Binary64}
    (hy : Near 1 (1502 * roundoff) (w + d * ramp p) y)
    (hz : Near 1 (1502 * roundoff) (w + d * ramp q) z) :
    Near 1 (1 / 10 ^ 4) (ramp p - ramp q) ((y - z) / (c.largest - c.smallest)) := by
  have hsub := hy.sub hz (by norm_num [roundoff])
  rw [add_sub_add_left_eq_sub, ← mul_sub] at hsub
  have hle : |d * (ramp p - ramp q)| ≤ d := by
    rw [abs_mul, abs_of_nonneg (by linarith)]
    refine mul_le_of_le_one_right (by linarith) (abs_le.mpr ⟨?_, ?_⟩) <;>
      linarith [ramp_nonneg p, ramp_nonneg q, ramp_le_one p, ramp_le_one q]
  have hr := hsub.ratio (h.range hd h0 h6) (m := 1 / 5000) (by norm_num) hd
    (by norm_num [roundoff]) hle (by norm_num [roundoff])
  rw [mul_div_cancel_left₀ _ (by linarith)] at hr
  exact hr.weaken le_rfl (by norm_num [roundoff])

/-- The position that red tells, where green or blue comes next. -/
theorem NearCircle.near_redSum : ∃ k : ℤ, 0 ≤ k ∧ k ≤ 1 ∧
    Near 7 (2 / 10 ^ 4) (ramp x - ramp (x - 2) + 6 * k)
      ((c.green - c.blue) / (c.largest - c.smallest) + if c.green < c.blue then 6 else 0) := by
  have hshare := h.share hd h0 h6 h.green h.blue
  split_ifs
  · refine ⟨1, by norm_num, by norm_num, ?_⟩
    rw [Int.cast_one, mul_one]
    exact (hshare.add near_six (by norm_num)).weaken (by norm_num) (by norm_num [roundoff])
  · refine ⟨0, by norm_num, by norm_num, ?_⟩
    rw [Int.cast_zero, mul_zero]
    exact (hshare.add near_zero (by norm_num)).weaken (by norm_num) (by norm_num [roundoff])

/-- **The position on the circle** is found again, but for a full turn. -/
theorem NearCircle.sextant : ∃ n : ℤ, Near 13 (3 / 10 ^ 4) (x + 6 * n)
    (c.sextant c.largest (c.largest - c.smallest)) := by
  have hmax := value_largest h.red.isFinite h.green.isFinite h.blue.isFinite
  have hfinite := (h.largest hd h0 h6).isFinite
  have he0 : (0 : ℚ) ≤ 1 / 10 ^ 4 := by norm_num
  have he1 : (1 : ℚ) / 10 ^ 4 < 1 := by norm_num
  unfold Rgba.sextant
  by_cases hred : Same c.largest c.red
  · rw [if_pos hred]
    rw [same_iff hfinite h.red.isFinite, hmax] at hred
    obtain ⟨k, hk0, hk1, hk⟩ := h.near_redSum hd h0 h6
    rcases position_of_red h0 h6 he0 he1
        (ramp_le_of_value_le hd h.red h.green (hred ▸ le_max_of_le_left (le_max_right _ _)))
        (ramp_le_of_value_le hd h.red h.blue (hred ▸ le_max_right _ _)) with hx | hx
    · refine near_position h0 h6 hk k (by omega) hk1 ?_
      rwa [add_sub_add_right_eq_sub]
    · refine near_position h0 h6 hk (k - 1) (by omega) (by omega) ?_
      rwa [show ramp x - ramp (x - 2) + 6 * (k : ℚ) - (x + 6 * ((k - 1 : ℤ) : ℚ))
        = ramp x - ramp (x - 2) - (x - 6) by push_cast; ring]
  · rw [if_neg hred]
    rw [same_iff hfinite h.red.isFinite] at hred
    by_cases hgreen : Same c.largest c.green
    · rw [if_pos hgreen]
      rw [same_iff hfinite h.green.isFinite, hmax] at hgreen
      have hsum := (h.share hd h0 h6 h.blue h.red).add near_two (by norm_num)
      have hx := position_of_green h0 h6 he0 he1
        (ramp_le_of_value_le hd h.green h.red (hgreen ▸ le_max_of_le_left (le_max_left _ _)))
        (ramp_le_of_value_le hd h.green h.blue (hgreen ▸ le_max_right _ _))
      refine near_position h0 h6 (hsum.weaken le_rfl (by norm_num [roundoff])) 0 (by norm_num)
        (by norm_num) ?_
      rwa [Int.cast_zero, mul_zero, add_zero, ← sub_sub_eq_add_sub]
    · rw [if_neg hgreen]
      rw [same_iff hfinite h.green.isFinite] at hgreen
      have hblue : c.largest.value = c.blue.value := by grind
      rw [hmax] at hblue
      have hsum := (h.share hd h0 h6 h.red h.green).add
        (show Near 4 0 4 (4 : Binary64) by exact_mod_cast near_ofNat (n := 4) (by norm_num))
        (by norm_num)
      have hx := position_of_blue h0 h6 he0 he1
        (ramp_le_of_value_le hd h.blue h.red (hblue ▸ le_max_of_le_left (le_max_left _ _)))
        (ramp_le_of_value_le hd h.blue h.green (hblue ▸ le_max_of_le_left (le_max_right _ _)))
      refine near_position h0 h6 (hsum.weaken le_rfl (by norm_num [roundoff])) 0 (by norm_num)
        (by norm_num) ?_
      rwa [Int.cast_zero, mul_zero, add_zero, ← sub_sub_eq_add_sub]

end

/-! ### Saturation and lightness -/

theorem spread_ge {s l : ℚ} (hs0 : 1 / 100 ≤ s) (hl0 : 1 / 100 ≤ l) (hl1 : l ≤ 99 / 100) :
    1 / 5000 ≤ spread s l := by
  have h : (1 / 100 : ℚ) * (1 / 50) ≤ s * min (2 * l) (2 - 2 * l) :=
    mul_le_mul hs0 (le_min (by linarith) (by linarith)) (by norm_num) (by linarith)
  exact le_trans (by norm_num) h

section

variable {s l x : ℚ} {c : Color} (hs0 : 1 / 100 ≤ s) (hs1 : s ≤ 1) (hl0 : 1 / 100 ≤ l)
  (hl1 : l ≤ 99 / 100)

include hs0 hs1 hl1 in
/-- In the middle both divisors lead to the saturation. -/
theorem abs_lightShare_sub_le (h : 1 / 2 - 1505 * roundoff ≤ l) :
    |spread s l / (2 - 2 * l) - s| ≤ 1 / 10 ^ 8 := by
  have hpos : 0 < 2 - 2 * l := by linarith
  rw [div_sub' hpos.ne', abs_div, abs_of_pos hpos, div_le_iff₀ hpos]
  rcases le_total l (1 / 2) with hl | hl
  · rw [spread_of_dark hl, show s * (2 * l) - (2 - 2 * l) * s = -(s * (2 - 4 * l)) by ring, abs_neg,
      abs_of_nonneg (mul_nonneg (by linarith) (by linarith))]
    refine (mul_le_of_le_one_left (by linarith) hs1).trans ?_
    norm_num [roundoff] at h
    linarith
  · rw [spread_of_light hl, mul_comm, sub_self, abs_zero]
    positivity

include hs0 hs1 hl0 in
theorem abs_darkShare_sub_le (h : l ≤ 1 / 2 + 1505 * roundoff) :
    |spread s l / (2 * l) - s| ≤ 1 / 10 ^ 8 := by
  have hpos : 0 < 2 * l := by linarith
  rw [div_sub' hpos.ne', abs_div, abs_of_pos hpos, div_le_iff₀ hpos]
  rcases le_total l (1 / 2) with hl | hl
  · rw [spread_of_dark hl, mul_comm, sub_self, abs_zero]
    positivity
  · rw [spread_of_light hl, show s * (2 - 2 * l) - 2 * l * s = -(s * (4 * l - 2)) by ring, abs_neg,
      abs_of_nonneg (mul_nonneg (by linarith) (by linarith))]
    refine (mul_le_of_le_one_left (by linarith) hs1).trans ?_
    norm_num [roundoff] at h
    linarith

variable (h0 : 0 ≤ x) (h6 : x ≤ 6) (h : NearCircle (l - spread s l / 2) (spread s l) x c)

include hs0 hl0 hl1 h0 h6 h

theorem NearCircle.lightness : Near 1 (1504 * roundoff) l ((c.largest + c.smallest) / 2) := by
  have hd := spread_ge hs0 hl0 hl1
  have hsum := ((h.largest hd h0 h6).add (h.smallest hd h0 h6) (by norm_num [roundoff])).div_ofNat
    (n := 2) (by norm_num) (by norm_num) (by norm_num [roundoff])
  rw [show (l - spread s l / 2 + spread s l + (l - spread s l / 2)) / ((2 : ℕ) : ℚ) = l by
    push_cast; ring] at hsum
  exact hsum.weaken (by norm_num) (by norm_num [roundoff])

include hs1

theorem NearCircle.saturation : Near 1 (1 / 10 ^ 6) s
    (if 1 / 2 < (c.largest + c.smallest) / 2
    then (c.largest - c.smallest) / (2 - c.largest - c.smallest)
    else (c.largest - c.smallest) / (c.largest + c.smallest)) := by
  have hd := spread_ge hs0 hl0 hl1
  have hle := spread_le hs1 (l := l) (by linarith) (by linarith)
  have hs : |s| ≤ 1 := abs_le.mpr ⟨by linarith, hs1⟩
  have habs : |spread s l| = spread s l := abs_of_nonneg (by linarith)
  have hlight := h.lightness hs0 hl0 hl1 h0 h6
  have hhigh := h.largest hd h0 h6
  have hlow := h.smallest hd h0 h6
  have hrange := h.range hd h0 h6
  split_ifs with hl
  · have hlt := near_half.lt_of_lt hlight hl
    have hdiv := (near_two.sub hhigh (by norm_num [roundoff])).sub hlow (by norm_num [roundoff])
    rw [show 2 - (l - spread s l / 2 + spread s l) - (l - spread s l / 2) = 2 - 2 * l by ring]
      at hdiv
    exact ((hrange.ratio hdiv (m := 1 / 50) (by norm_num) (by linarith) (by norm_num [roundoff])
      (habs.le.trans hle.2) (by norm_num [roundoff])).shift hs
      (abs_lightShare_sub_le hs0 hs1 hl1 (by linarith))).weaken le_rfl (by norm_num [roundoff])
  · have hlt := near_half.le_of_not_lt hlight hl
    have hdiv := hhigh.add hlow (by norm_num [roundoff])
    rw [show l - spread s l / 2 + spread s l + (l - spread s l / 2) = 2 * l by ring] at hdiv
    exact ((hrange.ratio hdiv (m := 1 / 50) (by norm_num) (by linarith) (by norm_num [roundoff])
      (habs.le.trans hle.1) (by norm_num [roundoff])).shift hs
      (abs_darkShare_sub_le hs0 hs1 hl0 (by linarith))).weaken le_rfl (by norm_num [roundoff])

end

/-- **Hue, saturation and lightness** are found again, but for a full turn of the circle. -/
theorem NearCircle.toHsl {s l x : ℚ} {c : Color} (hs0 : 1 / 100 ≤ s) (hs1 : s ≤ 1)
    (hl0 : 1 / 100 ≤ l) (hl1 : l ≤ 99 / 100) (h0 : 0 ≤ x) (h6 : x ≤ 6)
    (h : NearCircle (l - spread s l / 2) (spread s l) x c.unit) :
    (∃ n : ℤ, Near 780 (1 / 10) (60 * x + 360 * n) c.toHsl.hue) ∧
      Near 1 (1 / 10 ^ 6) s c.toHsl.saturation ∧ Near 1 (1 / 10 ^ 6) l c.toHsl.lightness := by
  have hd := spread_ge hs0 hl0 hl1
  have hhigh := h.largest hd h0 h6
  have hlow := h.smallest hd h0 h6
  have hcolored : ¬Same c.unit.largest c.unit.smallest := by
    rw [same_iff hhigh.isFinite hlow.isFinite]
    have h1 := hhigh.bounds.1
    have h2 := hlow.bounds.2
    norm_num [roundoff] at h1 h2
    linarith
  rw [toHsl_of_colored hcolored]
  refine ⟨?_, h.saturation hs0 hs1 hl0 hl1 h0 h6,
    (h.lightness hs0 hl0 hl1 h0 h6).weaken le_rfl (by norm_num [roundoff])⟩
  obtain ⟨n, hn⟩ := h.sextant hd h0 h6
  have hturn := hn.div_ofNat (n := 6) (by norm_num) (by norm_num) (by norm_num)
  have hhue := hturn.mul_ofNat (n := 360) (by norm_num) (by norm_num [roundoff])
  rw [show (x + 6 * (n : ℚ)) / ((6 : ℕ) : ℚ) * ((360 : ℕ) : ℚ) = 60 * x + 360 * n by
    push_cast; ring] at hhue
  exact ⟨n, hhue.weaken (by norm_num) (by norm_num [roundoff])⟩

end Rgba

namespace Hsl

/-! ### Whole degrees and percent -/

/-- Whole degrees and percent. -/
def ofWhole (h s l : ℕ) : Hsl Binary64 := ⟨ofNat h, ofNat s / 100, ofNat l / 100⟩

theorem clampUnit_percent {n : ℕ} (h : n ≤ 100) :
    clampUnit (ofNat n / 100 : Binary64) = ofNat n / 100 := by
  refine clampUnit_eq_self (within_share (n := 100) ?_ (by norm_num) (by norm_num))
  exact within_ofNat (by omega) n.cast_nonneg (by exact_mod_cast h)

/-- Zero percent is zero, and so is twice as much. -/
theorem zeroPercent : clampUnit (ofNat 0 / 100 : Binary64) = ofNat 0 ∧
    (2 * ofNat 0 : Binary64) = ofNat 0 := by
  decide +kernel

theorem isNumber_wholePercent (n : ℕ) : (ofNat n / 100 : Binary64).IsNumber :=
  (isNumber_ofRat _).div_ofNat (n := 100) (by norm_num) (by norm_num)

theorem inRange_ofWhole {h : ℕ} (hh : h < 360) (s l : ℕ) {a : Binary64} (ha : a.IsNumber) :
    ((ofWhole h s l).toRgba a).InRange :=
  inRange_toRgba (isFinite_ofNat (by omega)) (isNumber_wholePercent s) (isNumber_wholePercent l) ha

theorem near_percent {n : ℕ} (h : n ≤ 100) :
    Near 1 roundoff (n / 100) (clampUnit (ofNat n / 100 : Binary64)) := by
  have hn : (n : ℚ) ≤ 100 := by exact_mod_cast h
  rw [clampUnit_percent h]
  exact ((near_ofNat (by omega)).div_ofNat (n := 100) (by norm_num) (by norm_num) (by
    rw [zero_div, add_zero]; linarith)).weaken (by push_cast; linarith) (by norm_num)

theorem near_wholeTurn {h : ℕ} (hh : h < 360) :
    Near 1 (2 * roundoff) (h / 360) (wrapDegrees (ofNat h : Binary64) / 360) := by
  obtain ⟨hfinite, hvalue⟩ := value_wrapDegrees_ofNat hh
  have hq : |(h : ℚ)| ≤ 360 := by
    rw [Nat.abs_cast]
    exact_mod_cast hh.le
  have hn : Near 360 0 h (wrapDegrees (ofNat h : Binary64)) := near_of_value_eq hfinite hvalue hq
  exact (hn.div_ofNat (n := 360) (by norm_num) (by norm_num) (by norm_num)).weaken
    (by norm_num) (by norm_num [roundoff])

theorem toIntNearest_percent {n : ℕ} {x : Binary64} (h : Near 1 (1 / 10 ^ 6) (n / 100) x) :
    Scalar.toIntNearest (x * 100) = n := by
  have hm := h.mul_ofNat (n := 100) (by norm_num) (by norm_num)
  rw [Nat.cast_ofNat, div_mul_cancel₀ _ (by norm_num)] at hm
  exact toIntNearest_of_near (hm.weaken le_rfl (by norm_num [roundoff]))

theorem toWhole_ofWhole {h s l : ℕ} (hh : h < 360) (hs0 : 1 ≤ s) (hs1 : s ≤ 100) (hl0 : 1 ≤ l)
    (hl1 : l ≤ 99) {a : Binary64} (ha : a.IsNumber) :
    ((ofWhole h s l).toRgba a).toHsl.toWhole = ((h : ℤ), (s : ℤ), (l : ℤ)) := by
  have qh : (h : ℚ) < 360 := by exact_mod_cast hh
  have qs0 : (1 : ℚ) ≤ s := by exact_mod_cast hs0
  have qs1 : (s : ℚ) ≤ 100 := by exact_mod_cast hs1
  have ql0 : (1 : ℚ) ≤ l := by exact_mod_cast hl0
  have ql1 : (l : ℚ) ≤ 99 := by exact_mod_cast hl1
  have qh0 : (0 : ℚ) ≤ h := h.cast_nonneg
  have hcircle := Rgba.nearCircle_toRgba (c := ofWhole h s l) (s := s / 100) (l := l / 100)
    (x := h / 60) (by linarith) (by linarith) (by linarith) (by linarith) (by linarith)
    (by linarith) (near_percent hs1) (near_percent (by omega))
    (by rw [div_div]; norm_num; exact near_wholeTurn hh) a
  obtain ⟨⟨n, hn⟩, hs, hl⟩ := hcircle.toHsl (by linarith) (by linarith) (by linarith) (by linarith)
    (by linarith) (by linarith)
  obtain ⟨hhue, -, -⟩ := (inRange_ofWhole hh s l ha).toHsl
  rw [mul_div_cancel₀ _ (by norm_num)] at hn
  have hturn : Scalar.toIntNearest ((ofWhole h s l).toRgba a).toHsl.hue = h + 360 * n :=
    toIntNearest_of_near (n := h + 360 * n) (by push_cast; exact hn)
  obtain ⟨h1, h2⟩ := hhue.toIntNearest_mem
  rw [show ((360 : ℚ) = ((360 : ℤ) : ℚ)) by norm_num, roundHalfAway_intCast] at h2
  unfold toWhole
  rw [toIntNearest_percent hs, toIntNearest_percent hl, hturn]
  -- the hue is that of the color or a full turn, which is its start
  rw [Int.tmod_eq_emod_of_nonneg (by omega)]
  congr 1
  omega

/-! ### Grays -/

theorem toWhole_of_gray (x : Binary64) :
    (⟨0, 0, x⟩ : Hsl Binary64).toWhole = (0, 0, Scalar.toIntNearest (x * 100)) := by
  have hturn : Scalar.toIntNearest (0 : Binary64) = 0 :=
    toIntNearest_of_near (n := 0) (by exact_mod_cast near_zero.weaken le_rfl (by norm_num))
  have hpercent : Scalar.toIntNearest (0 * 100 : Binary64) = 0 := by
    refine toIntNearest_percent (n := 0) ?_
    rw [Nat.cast_zero, zero_div]
    exact near_zero.weaken (by norm_num) (by norm_num)
  unfold toWhole
  rw [hturn, hpercent]
  rfl

/-- The color of a lightness without saturation is gray, and its lightness is found again. -/
theorem toWhole_ofWhole_gray (h : ℕ) {l : ℕ} (hl : l ≤ 100) (a : Binary64) :
    ((ofWhole h 0 l).toRgba a).toHsl.toWhole = (0, 0, (l : ℤ)) := by
  have hgray : Same (clampUnit (ofNat 0 / 100 : Binary64)) 0 := by
    rw [zeroPercent.1]
    exact (Rgba.same_iff near_zero.isFinite near_zero.isFinite).mpr rfl
  have hchannel := near_channel ((near_percent hl).weaken le_rfl (by norm_num [roundoff]))
    (by positivity)
  have hunit : ((ofWhole h 0 l).toRgba a).unit.largest
        = clamp 0 255 (clampUnit (ofNat l / 100) * 255) / 255 ∧
      ((ofWhole h 0 l).toRgba a).unit.smallest
        = clamp 0 255 (clampUnit (ofNat l / 100) * 255) / 255 := by
    unfold toRgba ofWhole
    dsimp only
    rw [if_pos hgray]
    unfold Rgba.largest Rgba.smallest Rgba.unit Rgba.clamped
    dsimp only
    rw [larger_self hchannel.isFinite, larger_self hchannel.isFinite,
      smaller_self hchannel.isFinite, smaller_self hchannel.isFinite]
    exact ⟨rfl, rfl⟩
  obtain ⟨hlargest, hsmallest⟩ := hunit
  have hsame : Same ((ofWhole h 0 l).toRgba a).unit.largest
      ((ofWhole h 0 l).toRgba a).unit.smallest := by
    rw [hlargest, hsmallest, Rgba.same_iff hchannel.isFinite hchannel.isFinite]
  have hhalf := (hchannel.add hchannel (by norm_num [roundoff])).div_ofNat (n := 2) (by norm_num)
    (by norm_num) (by norm_num [roundoff])
  rw [show ((l : ℚ) / 100 + l / 100) / ((2 : ℕ) : ℚ) = l / 100 by push_cast; ring] at hhalf
  have hround := toIntNearest_percent (hhalf.weaken (by norm_num) (by norm_num [roundoff]))
  rw [Rgba.toHsl_of_same hsame, hlargest, hsmallest, toWhole_of_gray]
  exact congrArg (fun n => (0, 0, n)) hround

/-! ### Black and white -/

theorem within_wholeTurn {h : ℕ} (hh : h < 360) :
    Within 0 1 (wrapDegrees (ofNat h : Binary64) / 360) := by
  refine within_share (n := 360) ?_ (by norm_num) (by norm_num)
  exact_mod_cast within_wrapDegrees (isFinite_ofNat (n := h) (by omega))

section

variable {h s l : ℕ} (hh : h < 360) (hs0 : 1 ≤ s) (hs1 : s ≤ 100) {a : Binary64}

include hs0 hs1 in
theorem not_same_percent : ¬Same (clampUnit (ofNat s / 100 : Binary64)) 0 := by
  have q : (1 : ℚ) ≤ s := by exact_mod_cast hs0
  exact not_same_zero_of_near (by linarith) (near_percent hs1)

include hh hs0 hs1

/-- In black, and in white of full saturation, the channels are equal and the saturation is lost. -/
theorem saturation_lost_of_flat {v : ℕ} (hv : v ≤ 1)
    (hbottom : Within v v (bottom (clampUnit (ofNat s / 100)) (clampUnit (ofNat l / 100))))
    (htop : Within v v (top (clampUnit (ofNat s / 100)) (clampUnit (ofNat l / 100)))) :
    ((ofWhole h s l).toRgba a).toHsl.toWhole.2.1 = 0 := by
  have hsame := same_of_flat (c := ofWhole h s l) hv rfl rfl (not_same_percent hs0 hs1)
    (within_wholeTurn hh) hbottom htop a
  rw [Rgba.toHsl_of_same hsame, toWhole_of_gray]

theorem saturation_lost_of_black : ((ofWhole h s 0).toRgba a).toHsl.toWhole.2.1 = 0 := by
  have hv0 : (ofNat 0 : Binary64).value = 0 := by exact_mod_cast value_ofNat (n := 0) (by norm_num)
  have hdark : (ofNat 0 : Binary64) < 1 / 2 :=
    (lt_iff (isFinite_ofNat (by norm_num)) near_half.isFinite).mpr (by
      rw [hv0, value_half]
      norm_num)
  have hw : Within 0 0 (ofNat 0 : Binary64) :=
    within_ofNat (by norm_num) (by norm_num) (by norm_num)
  have htop : Within 0 0 (top (clampUnit (ofNat s / 100)) (clampUnit (ofNat 0 / 100))) := by
    unfold top
    rw [zeroPercent.1, if_pos hdark]
    exact within_zero_mul hw (near_one.add (near_percent hs1) (by norm_num [roundoff])).isFinite
  refine saturation_lost_of_flat hh hs0 hs1 (v := 0) (by norm_num) ?_ (by exact_mod_cast htop)
  rw [Nat.cast_zero]
  have hdouble : (2 * clampUnit (ofNat 0 / 100) : Binary64) = ofNat 0 := by
    rw [zeroPercent.1, zeroPercent.2]
  unfold bottom
  rw [hdouble]
  refine within_sub hw.isFinite htop.isFinite isDouble_zero isDouble_zero ?_ ?_ <;>
    rw [hv0, htop.value_eq, sub_zero]

theorem saturation_lost_of_white (ha : a.IsNumber)
    (hl : ((ofWhole h s 100).toRgba a).toHsl.toWhole.2.2 = 100) :
    ((ofWhole h s 100).toRgba a).toHsl.toWhole.2.1 ≠ s := by
  have hbottom : ∀ s ≤ 100,
      bottom (clampUnit (ofNat s / 100)) (clampUnit (ofNat 100 / 100)) = ofNat 1 := by
    decide +kernel
  have hone : Within 1 1 (ofNat 1 : Binary64) :=
    within_ofNat (by norm_num) (by norm_num) (by norm_num)
  rcases eq_or_ne s 100 with rfl | hne
  · have htop : top (clampUnit (ofNat 100 / 100)) (clampUnit (ofNat 100 / 100)) = ofNat 1 := by
      decide +kernel
    rw [saturation_lost_of_flat hh hs0 hs1 (v := 1) le_rfl]
    · norm_num
    · rw [hbottom 100 hs1, Nat.cast_one]
      exact hone
    · rw [htop, Nat.cast_one]
      exact hone
  · have hrange := inRange_ofWhole (a := a) hh s 100 ha
    have hlargest := largest_of_bottom_one (c := ofWhole h s 100) rfl rfl
      (not_same_percent hs0 hs1) (within_wholeTurn hh) (hbottom s hs1 ▸ hone) hrange
    obtain ⟨-, hshare, -⟩ := hrange.toHsl
    have hfound : ∀ n : ℕ, n ≤ 100 →
        ((ofWhole h s 100).toRgba a).toHsl.saturation.value = n / 100 →
        ((ofWhole h s 100).toRgba a).toHsl.toWhole.2.1 = n := fun n hn hv =>
      toIntNearest_percent ⟨hshare.isFinite, (near_percent hn).size_le, by
        rw [hv, sub_self, abs_zero]; norm_num⟩
    rcases Rgba.saturation_of_full hrange hlargest (Rgba.half_lt_lightness hrange hl)
      with hsat | hsat
    · rw [hfound 0 (by norm_num) (by rw [hsat]; norm_num)]
      omega
    · rw [hfound 100 le_rfl (by rw [hsat]; norm_num)]
      omega

end

/-- **Whole degrees and percent are found again** from their color, exactly if a gray one has the
hue zero and a black or white one has the saturation zero. -/
theorem toWhole_ofWhole_iff {h s l : ℕ} (hh : h < 360) (hs : s ≤ 100) (hl : l ≤ 100) {a : Binary64}
    (ha : a.IsNumber) :
    ((ofWhole h s l).toRgba a).toHsl.toWhole = ((h : ℤ), (s : ℤ), (l : ℤ)) ↔
      (s = 0 → h = 0) ∧ (l = 0 ∨ l = 100 → s = 0) := by
  rcases Nat.eq_zero_or_pos s with rfl | hs0
  · rw [toWhole_ofWhole_gray h hl]
    simp [eq_comm]
  by_cases hl0 : l = 0
  · subst hl0
    have hlost := saturation_lost_of_black (a := a) hh hs0 hs
    refine iff_of_false (fun heq => ?_) (fun hor => by omega)
    rw [heq] at hlost
    have hzero : (s : ℤ) = 0 := hlost
    omega
  by_cases hl1 : l = 100
  · subst hl1
    refine iff_of_false (fun heq => ?_) (fun hor => by omega)
    exact saturation_lost_of_white hh hs0 hs ha (by rw [heq]; rfl) (by rw [heq])
  · exact iff_of_true (toWhole_ofWhole hh hs0 hs (by omega) (by omega) ha) ⟨by omega, by omega⟩

end Hsl

end CssColor
