import CssColor.Color.Hwb
import CssColor.Proofs.Number.Range

/-! # Colors in range

`Rgba.InRange` says that red, green and blue lie from 0 to 255 and alpha from 0 to 1, all of them
finite. Moving channels into their ranges leads there from any finite channels
(`inRange_clamped`), and so does the color of a finite hue, saturation and lightness
(`Hsl.inRange_toRgba`). In range, a hue lies from 0 to 360, and saturation and lightness are shares
of one (`Rgba.InRange.toHsl`): no conversion divides by zero. So are whiteness and blackness, which
do not add up to more than one (`Rgba.within_toHwb`). -/

namespace CssColor

open Number Number.Scalar Number.Binary64

/-- The ranges of the channels of a color. -/
structure Rgba.InRange (c : Color) : Prop where
  red : Within 0 255 c.red
  green : Within 0 255 c.green
  blue : Within 0 255 c.blue
  alpha : Within 0 1 c.alpha

namespace Rgba

theorem within_clampChannel {x : Binary64} (hx : x.IsNumber) : Within 0 255 (clamp 0 255 x) := by
  have h : Within (0 : ℕ) (255 : ℕ) (clamp (ofNat 0) (ofNat 255) x) :=
    within_clamp (by norm_num) (by norm_num) hx
  rw [Nat.cast_zero] at h
  exact_mod_cast h

theorem clampChannel_eq_self {x : Binary64} (h : Within 0 255 x) : clamp 0 255 x = x := by
  have h' : Within (0 : ℕ) (255 : ℕ) x := by exact_mod_cast h
  exact clamp_eq_self (by norm_num) (by norm_num) h'

theorem inRange_clamped {r g b a : Binary64} (hr : r.IsNumber) (hg : g.IsNumber)
    (hb : b.IsNumber) (ha : a.IsNumber) : (clamped r g b a).InRange where
  red := within_clampChannel hr
  green := within_clampChannel hg
  blue := within_clampChannel hb
  alpha := within_clampUnit ha

/-- A color in range does not change when its channels are moved into their ranges. -/
theorem InRange.clamped_eq {c : Color} (h : c.InRange) :
    clamped c.red c.green c.blue c.alpha = c := by
  rw [clamped, clampChannel_eq_self h.red, clampChannel_eq_self h.green,
    clampChannel_eq_self h.blue, clampUnit_eq_self h.alpha]

theorem within_byte (b : UInt8) : Within 0 255 (ofNat b.toNat : Binary64) := by
  have hb : b.toNat < 256 := b.toNat_lt
  refine within_ofNat (by omega) (Nat.cast_nonneg _) ?_
  exact_mod_cast (by omega : b.toNat ≤ 255)

theorem inRange_ofRgb (c : Rgb) {a : Binary64} (ha : a.IsNumber) : (ofRgb c a).InRange where
  red := within_byte c.red
  green := within_byte c.green
  blue := within_byte c.blue
  alpha := within_clampUnit ha

theorem within_one : Within 0 1 (1 : Binary64) := by
  exact_mod_cast within_ofNat (n := 1) (a := 0) (b := 1) (by norm_num) (by norm_num) (by norm_num)

theorem inRange_solid (c : Rgb) : (solid c : Color).InRange :=
  inRange_ofRgb c within_one.isNumber

/-! ### Mixing -/

theorem small_share {x : Binary64} (h : Within 0 1 x) : Small 1 x :=
  h.small (by norm_num) (by norm_num)

theorem small_toward {m : ℕ} {x y w : Binary64} (hx : Small m x) (hy : Small m y)
    (hw : Within 0 1 w) (hm : m ≤ 1000) : Small 5000 (x + (y - x) * w) := by
  refine (hx.add ((hy.sub hx ?_).mul (small_share hw) ?_) ?_).mono ?_ <;> omega

/-- The alpha of a mixture is a share, whatever the weight is, if it is a number. -/
theorem within_alpha_mix {c d : Color} (hc : Within 0 1 c.alpha) (hd : Within 0 1 d.alpha)
    {w : Binary64} (hw : w.IsNumber) : Within 0 1 (c.mix d w).alpha :=
  within_clampUnit
    (small_toward (small_share hc) (small_share hd) (within_clampUnit hw) (by norm_num)).isNumber

end Rgba

/-! ### From hue, saturation and lightness -/

namespace Hsl

theorem small_one : Small 1 (1 : Binary64) := small_ofNat (by norm_num)

/-- The reduction of a turn of the color circle that `level` begins with. -/
theorem small_turn {t : Binary64} (ht : Small 8 t) :
    Small 10 (if 1 < (if t < 0 then t + 1 else t) then (if t < 0 then t + 1 else t) - 1
      else if t < 0 then t + 1 else t) := by
  have h1 : Small 9 (if t < 0 then t + 1 else t) := by
    split_ifs
    · exact ht.add small_one (by norm_num)
    · exact ht.mono (by norm_num)
  split_ifs at h1 ⊢
  all_goals first
    | exact h1.sub small_one (by norm_num)
    | exact h1.mono (by norm_num)

theorem small_level {low high t : Binary64} (hl : Small 10 low) (hh : Small 10 high)
    (ht : Small 8 t) : Small 5000 (level low high t) := by
  have h6 : Small 6 (6 : Binary64) := small_ofNat (by norm_num)
  have h23 : Small 2 (2 / 3 : Binary64) :=
    (small_ofNat (n := 2) (by norm_num)).div_ofNat (by norm_num) (by norm_num) (by norm_num)
  have hr := hh.sub hl (by norm_num)
  have hu := small_turn ht
  unfold level
  dsimp only
  generalize (if 1 < (if t < 0 then t + 1 else t) then (if t < 0 then t + 1 else t) - 1
      else if t < 0 then t + 1 else t) = u at hu ⊢
  split_ifs
  · refine (hl.add ((hr.mul h6 ?_).mul hu ?_) ?_).mono ?_ <;> norm_num
  · exact hh.mono (by norm_num)
  · refine (hl.add ((hr.mul (h23.sub hu ?_) ?_).mul h6 ?_) ?_).mono ?_ <;> norm_num
  · exact hl.mono (by norm_num)

theorem small_half_circle {x : Binary64} (h : Within 0 1 x) :
    Small 8 (x + 1 / 3) ∧ Small 8 x ∧ Small 8 (x - 1 / 3) := by
  have hx := Rgba.small_share h
  have h3 : Small 1 (1 / 3 : Binary64) :=
    small_one.div_ofNat (by norm_num) (by norm_num) (by norm_num)
  refine ⟨(hx.add h3 ?_).mono ?_, hx.mono ?_, (hx.sub h3 ?_).mono ?_⟩ <;> norm_num

theorem alpha_toRgba (c : Hsl Binary64) (a : Binary64) : (c.toRgba a).alpha = clampUnit a := by
  unfold toRgba
  dsimp only
  split_ifs <;> rfl

/-- **A color in range** comes from every finite hue, and from every saturation and lightness that
are numbers. -/
theorem inRange_toRgba {c : Hsl Binary64} {a : Binary64} (hh : c.hue.isFinite = true)
    (hs : c.saturation.IsNumber) (hl : c.lightness.IsNumber) (ha : a.IsNumber) :
    (c.toRgba a).InRange := by
  have h255 : Small 255 (255 : Binary64) := small_ofNat (by norm_num)
  have h2 : Small 2 (2 : Binary64) := small_ofNat (by norm_num)
  have hturn : Within 0 1 (wrapDegrees c.hue / 360) := by
    refine within_share (n := 360) ?_ (by norm_num) (by norm_num)
    exact_mod_cast within_wrapDegrees hh
  obtain ⟨t1, t2, t3⟩ := small_half_circle hturn
  have hss := Rgba.small_share (within_clampUnit hs)
  have hls := Rgba.small_share (within_clampUnit hl)
  unfold toRgba
  dsimp only
  generalize clampUnit c.saturation = s at hss ⊢
  generalize clampUnit c.lightness = l at hls ⊢
  by_cases hgray : Same s 0
  · rw [if_pos hgray]
    have hc := (hls.mul h255 (by norm_num)).isNumber
    exact Rgba.inRange_clamped hc hc hc ha
  · rw [if_neg hgray]
    have hhigh : Small 3 (if l < 1 / 2 then l * (1 + s) else l + s - l * s) := by
      split_ifs
      · exact (hls.mul (small_one.add hss (by norm_num)) (by norm_num)).mono (by norm_num)
      · exact ((hls.add hss (by norm_num)).sub (hls.mul hss (by norm_num)) (by norm_num))
    generalize (if l < 1 / 2 then l * (1 + s) else l + s - l * s) = high at hhigh ⊢
    have hlow : Small 10 (2 * l - high) :=
      ((h2.mul hls (by norm_num)).sub hhigh (by norm_num)).mono (by norm_num)
    have hhigh' : Small 10 high := hhigh.mono (by norm_num)
    have hchannel : ∀ {t : Binary64}, Small 8 t → (level (2 * l - high) high t * 255).IsNumber :=
      fun ht => ((small_level hlow hhigh' ht).mul h255 (by norm_num)).isNumber
    exact Rgba.inRange_clamped (hchannel t1) (hchannel t2) (hchannel t3) ha

end Hsl

/-! ### To hue, saturation and lightness -/

namespace Rgba

theorem same_iff {x y : Binary64} (hx : x.isFinite = true) (hy : y.isFinite = true) :
    Same x y ↔ x.value = y.value := by
  unfold Same
  rw [le_iff hx hy, le_iff hy hx]
  exact le_antisymm_iff.symm

theorem within_largest {c : Color} {a b : ℚ} (hr : Within a b c.red) (hg : Within a b c.green)
    (hb : Within a b c.blue) : Within a b c.largest := (hr.larger hg).larger hb

theorem within_smallest {c : Color} {a b : ℚ} (hr : Within a b c.red) (hg : Within a b c.green)
    (hb : Within a b c.blue) : Within a b c.smallest := (hr.smaller hg).smaller hb

section

variable {c : Color} (hr : c.red.isFinite = true) (hg : c.green.isFinite = true)
  (hb : c.blue.isFinite = true)

include hr hg hb

theorem value_largest : c.largest.value = max (max c.red.value c.green.value) c.blue.value := by
  unfold largest
  rw [value_larger (isFinite_larger hr hg) hb, value_larger hr hg]

theorem value_smallest : c.smallest.value = min (min c.red.value c.green.value) c.blue.value := by
  unfold smallest
  rw [value_smaller (isFinite_smaller hr hg) hb, value_smaller hr hg]

theorem value_smallest_le : c.smallest.value ≤ c.largest.value := by
  rw [value_largest hr hg hb, value_smallest hr hg hb]
  exact (min_le_right _ _).trans (le_max_right _ _)

end

theorem value_difference {x y : Binary64} (hx : Within 0 1 x) (hy : Within 0 1 y) :
    (x - y).isFinite = true ∧ (x - y).value = nearest (x.value - y.value) := by
  have hlo : -1 ≤ x.value - y.value := by linarith [hx.lo_le, hy.le_hi]
  have hhi : x.value - y.value ≤ 1 := by linarith [hx.le_hi, hy.lo_le]
  exact ⟨(within_sub hx.isFinite hy.isFinite isDouble_one.neg isDouble_one hlo hhi).isFinite,
    value_sub hx.isFinite hy.isFinite (abs_nearest_lt_bound isDouble_one.neg isDouble_one hlo hhi)⟩

theorem value_range_pos {high low : Binary64} (hh : Within 0 1 high) (hl : Within 0 1 low)
    (hlt : low.value < high.value) : 0 < (high - low).value := by
  rw [(value_difference hh hl).2]
  exact nearest_sub_pos hl.isDouble hh.isDouble hlt

/-- The saturation of a color whose largest and smallest channels differ. -/
theorem within_saturationShare {high low : Binary64} (hh : Within 0 1 high) (hl : Within 0 1 low)
    (hlt : low.value < high.value) (light : Prop) [Decidable light] :
    Within 0 1
      (if light then (high - low) / (2 - high - low) else (high - low) / (high + low)) := by
  have h2 : (2 : Binary64).value = 2 := value_literal (by norm_num)
  have h2' : (2 : Binary64).isFinite = true := isFinite_ofNat (by norm_num)
  obtain ⟨hfinite, hrange⟩ := value_difference hh hl
  have hpos := value_range_pos hh hl hlt
  -- either divisor is at least the range, because it is so before rounding
  have hshare : ∀ d : Binary64, d.isFinite = true → (high - low).value ≤ d.value →
      Within 0 1 ((high - low) / d) :=
    fun d hd hle => within_ratio hfinite hd hpos.le hle (hpos.trans_le hle)
  split_ifs
  · have hv := within_sub (a := 1) (b := 2) h2' hh.isFinite isDouble_one isDouble_two
      (by linarith [hh.le_hi]) (by linarith [hh.lo_le])
    have hd := within_sub (a := 0) (b := 2) hv.isFinite hl.isFinite isDouble_zero isDouble_two
      (by linarith [hv.lo_le, hl.le_hi]) (by linarith [hv.le_hi, hl.lo_le])
    refine hshare _ hd.isFinite ?_
    rw [hrange, value_sub hv.isFinite hl.isFinite (abs_nearest_lt_bound isDouble_zero isDouble_two
      (by linarith [hv.lo_le, hl.le_hi]) (by linarith [hv.le_hi, hl.lo_le]))]
    exact nearest_mono (by linarith [hv.lo_le, hh.le_hi])
  · have hd := within_add (a := 0) (b := 2) hh.isFinite hl.isFinite isDouble_zero isDouble_two
      (by linarith [hh.lo_le, hl.lo_le]) (by linarith [hh.le_hi, hl.le_hi])
    refine hshare _ hd.isFinite ?_
    rw [hrange, value_add hh.isFinite hl.isFinite (abs_nearest_lt_bound isDouble_zero isDouble_two
      (by linarith [hh.lo_le, hl.lo_le]) (by linarith [hh.le_hi, hl.le_hi]))]
    exact nearest_mono (by linarith [hl.lo_le])

theorem within_lightnessShare {high low : Binary64} (hh : Within 0 1 high) (hl : Within 0 1 low) :
    Within 0 1 ((high + low) / 2) := by
  refine within_share (n := 2) ?_ (by norm_num) (by norm_num)
  push_cast
  exact within_add hh.isFinite hl.isFinite isDouble_zero isDouble_two
    (by linarith [hh.lo_le, hl.lo_le]) (by linarith [hh.le_hi, hl.le_hi])

theorem within_zero : Within 0 1 (0 : Binary64) := by
  exact_mod_cast within_ofNat (n := 0) (a := 0) (b := 1) (by norm_num) (by norm_num) (by norm_num)

section

variable {x y high low : Binary64} (hx : Within 0 1 x) (hy : Within 0 1 y) (hh : Within 0 1 high)
  (hl : Within 0 1 low) (hlt : low.value < high.value)

include hx hy hh hl hlt

/-- The difference of two channels is a share of the range of all. -/
theorem within_rangeShare (hle : y.value ≤ x.value)
    (hmax : x.value - y.value ≤ high.value - low.value) :
    Within 0 1 ((x - y) / (high - low)) := by
  obtain ⟨hfinite, hvalue⟩ := value_difference hx hy
  obtain ⟨hfinite', hvalue'⟩ := value_difference hh hl
  refine within_ratio hfinite hfinite' ?_ ?_ (value_range_pos hh hl hlt)
  · rw [hvalue]
    exact nearest_nonneg (sub_nonneg.mpr hle)
  · rw [hvalue, hvalue']
    exact nearest_mono hmax

theorem within_rangeShare_neg (hle : x.value ≤ y.value)
    (hmax : y.value - x.value ≤ high.value - low.value) :
    Within (-1) 0 ((x - y) / (high - low)) := by
  obtain ⟨hfinite, hvalue⟩ := value_difference hx hy
  obtain ⟨hfinite', hvalue'⟩ := value_difference hh hl
  have hpos := value_range_pos hh hl hlt
  have hneg : (x - y).value = -nearest (y.value - x.value) := by
    rw [hvalue, ← nearest_neg, neg_sub]
  have h0 := nearest_nonneg (sub_nonneg.mpr hle)
  have h1 := nearest_mono hmax
  rw [← hvalue'] at h1
  refine within_div hfinite hfinite' hpos.ne' isDouble_one.neg isDouble_zero ?_ ?_ <;> rw [hneg]
  · rw [le_div_iff₀ hpos]
    linarith
  · exact div_nonpos_of_nonpos_of_nonneg (neg_nonpos.mpr h0) hpos.le

theorem within_signedRangeShare (hmax : |x.value - y.value| ≤ high.value - low.value) :
    Within (-1) 1 ((x - y) / (high - low)) := by
  obtain ⟨h1, h2⟩ := abs_le.mp hmax
  rcases le_total x.value y.value with hle | hle
  · exact (within_rangeShare_neg hx hy hh hl hlt hle (by linarith)).weaken le_rfl (by norm_num)
  · exact (within_rangeShare hx hy hh hl hlt hle (by linarith)).weaken (by norm_num) le_rfl

end

/-- The position of a color on the circle, in sixths. -/
theorem within_sextant {c : Color} (hr : Within 0 1 c.red) (hg : Within 0 1 c.green)
    (hb : Within 0 1 c.blue) (hlt : c.smallest.value < c.largest.value) :
    Within 0 6 (c.sextant c.largest (c.largest - c.smallest)) := by
  have hh := within_largest hr hg hb
  have hl := within_smallest hr hg hb
  -- any two channels are no further apart than the largest and the smallest
  have hspread : |c.green.value - c.blue.value| ≤ c.largest.value - c.smallest.value ∧
      |c.blue.value - c.red.value| ≤ c.largest.value - c.smallest.value ∧
      |c.red.value - c.green.value| ≤ c.largest.value - c.smallest.value := by
    rw [value_largest hr.isFinite hg.isFinite hb.isFinite,
      value_smallest hr.isFinite hg.isFinite hb.isFinite]
    grind
  obtain ⟨hgb, hbr, hrg⟩ := hspread
  unfold sextant
  split_ifs with hred hlow hgreen
  · rw [lt_iff hg.isFinite hb.isFinite] at hlow
    have hq := within_rangeShare_neg hg hb hh hl hlt hlow.le (by linarith [(abs_le.mp hgb).1])
    have hsum := Within.add_ofNat (a := -1) (b := 0) (n := 6) (by exact_mod_cast hq)
      (by norm_num) (by norm_num) (by norm_num)
    exact hsum.weaken (by norm_num) (by norm_num)
  · rw [lt_iff hg.isFinite hb.isFinite] at hlow
    have hq := within_rangeShare hg hb hh hl hlt (not_lt.mp hlow) (by linarith [(abs_le.mp hgb).2])
    have hsum := Within.add_ofNat (a := 0) (b := 1) (n := 0) (by exact_mod_cast hq)
      (by norm_num) (by norm_num) (by norm_num)
    exact hsum.weaken (by norm_num) (by norm_num)
  · have hq := within_signedRangeShare hb hr hh hl hlt hbr
    have hsum := Within.add_ofNat (a := -1) (b := 1) (n := 2) (by exact_mod_cast hq)
      (by norm_num) (by norm_num) (by norm_num)
    exact hsum.weaken (by norm_num) (by norm_num)
  · have hq := within_signedRangeShare hr hg hh hl hlt hrg
    have hsum := Within.add_ofNat (a := -1) (b := 1) (n := 4) (by exact_mod_cast hq)
      (by norm_num) (by norm_num) (by norm_num)
    exact hsum.weaken (by norm_num) (by norm_num)

/-- The channels of a color as shares of one. -/
def unit (c : Color) : Color :=
  { c with red := c.red / 255, green := c.green / 255, blue := c.blue / 255 }

theorem within_channelShare {x : Binary64} (h : Within 0 255 x) : Within 0 1 (x / 255) :=
  within_share (n := 255) (by exact_mod_cast h) (by norm_num) (by norm_num)

theorem within_distanceShare {x : Binary64} (h : Within 0 255 x) : Within 0 1 (1 - x / 255) := by
  have hshare := within_channelShare h
  exact within_sub within_one.isFinite hshare.isFinite isDouble_zero isDouble_one
    (by linarith [hshare.le_hi, value_one]) (by linarith [hshare.lo_le, value_one])

theorem InRange.unit {c : Color} (h : c.InRange) :
    Within 0 1 c.unit.red ∧ Within 0 1 c.unit.green ∧ Within 0 1 c.unit.blue :=
  ⟨within_channelShare h.red, within_channelShare h.green, within_channelShare h.blue⟩

theorem toHsl_of_same {c : Color} (h : Same c.unit.largest c.unit.smallest) :
    c.toHsl = ⟨0, 0, (c.unit.largest + c.unit.smallest) / 2⟩ :=
  toHsl_eq_of_same rfl h

theorem toHsl_of_colored {c : Color} (h : ¬Same c.unit.largest c.unit.smallest) :
    c.toHsl =
      ⟨c.unit.sextant c.unit.largest (c.unit.largest - c.unit.smallest) / 6 * 360,
        if 1 / 2 < (c.unit.largest + c.unit.smallest) / 2 then
          (c.unit.largest - c.unit.smallest) / (2 - c.unit.largest - c.unit.smallest)
        else (c.unit.largest - c.unit.smallest) / (c.unit.largest + c.unit.smallest),
        (c.unit.largest + c.unit.smallest) / 2⟩ :=
  toHsl_eq_of_not_same rfl h

/-- **The hue is an angle, and saturation and lightness are shares** of one. -/
theorem InRange.toHsl {c : Color} (h : c.InRange) : Within 0 360 c.toHsl.hue ∧
    Within 0 1 c.toHsl.saturation ∧ Within 0 1 c.toHsl.lightness := by
  obtain ⟨hr, hg, hb⟩ := h.unit
  have hh := within_largest hr hg hb
  have hl := within_smallest hr hg hb
  by_cases hgray : Same c.unit.largest c.unit.smallest
  · rw [toHsl_of_same hgray]
    exact ⟨within_zero.weaken le_rfl (by norm_num), within_zero, within_lightnessShare hh hl⟩
  · rw [toHsl_of_colored hgray]
    rw [same_iff hh.isFinite hl.isFinite] at hgray
    have hlt := lt_of_le_of_ne (value_smallest_le hr.isFinite hg.isFinite hb.isFinite)
      (Ne.symm hgray)
    refine ⟨?_, within_saturationShare hh hl hlt _, within_lightnessShare hh hl⟩
    have hturn := within_share (n := 6) (by exact_mod_cast within_sextant hr hg hb hlt)
      (by norm_num) (by norm_num)
    have hhue := hturn.mul_ofNat (n := 360) (by norm_num)
      (by exact_mod_cast isDouble_natCast (n := 360) (by norm_num))
    exact_mod_cast hhue

/-! ### To whiteness and blackness -/

/-- A share and the distance of a larger one from the whole do not add up to more than the whole,
rounding included. -/
theorem add_distance_le {x y : Binary64} (hx : Within 0 1 x) (hy : Within 0 1 y)
    (hle : x.value ≤ y.value) : x + (1 - y) ≤ 1 := by
  have hy0 := hy.lo_le
  have hy1 := hy.le_hi
  have hd := within_sub within_one.isFinite hy.isFinite isDouble_zero isDouble_one
    (by linarith [value_one]) (by linarith [value_one])
  -- the distance is off by at most half the step from one to the next double
  have herror : |(1 - y).value - (1 - y.value)| ≤ 1 / 2 ^ 53 := by
    rw [(value_difference within_one hy).2, value_one]
    exact abs_nearest_sub_le_of_le (abs_le.mpr ⟨by linarith, by linarith⟩) le_rfl
  have hsum : x.value + (1 - y).value ≤ 1 + 1 / 2 ^ 53 := by linarith [(abs_le.mp herror).2]
  have h0 : 0 ≤ x.value + (1 - y).value := add_nonneg hx.lo_le hd.lo_le
  have h2 : x.value + (1 - y).value ≤ 2 := by linarith [hx.le_hi, hd.le_hi]
  have hfinite := (within_add hx.isFinite hd.isFinite isDouble_zero isDouble_two h0 h2).isFinite
  rw [le_iff hfinite within_one.isFinite, value_one, value_add hx.isFinite hd.isFinite
    (abs_nearest_lt_bound isDouble_zero isDouble_two h0 h2)]
  calc nearest (x.value + (1 - y).value) ≤ nearest (1 + 1 / 2 ^ 53) := nearest_mono hsum
    _ = 1 := by decide +kernel

/-- **Whiteness and blackness are shares** of one, and their sum is not above it. -/
theorem within_toHwb {c : Color} (hr : Within 0 255 c.red) (hg : Within 0 255 c.green)
    (hb : Within 0 255 c.blue) : Within 0 1 c.toHwb.whiteness ∧ Within 0 1 c.toHwb.blackness ∧
      c.toHwb.whiteness + c.toHwb.blackness ≤ 1 := by
  have hsmall := within_smallest hr hg hb
  have hlarge := within_largest hr hg hb
  have hvalue {x : Binary64} (hx : Within 0 255 x) : (x / 255).value = nearest (x.value / 255) :=
    value_share (n := 255) (by exact_mod_cast hx) (by norm_num) (by norm_num)
  have hle : (c.smallest / 255).value ≤ (c.largest / 255).value := by
    rw [hvalue hsmall, hvalue hlarge]
    exact nearest_mono (div_le_div_of_nonneg_right
      (value_smallest_le hr.isFinite hg.isFinite hb.isFinite) (by norm_num))
  exact ⟨within_channelShare hsmall, within_distanceShare hlarge,
    add_distance_le (within_channelShare hsmall) (within_channelShare hlarge) hle⟩

end Rgba

end CssColor
