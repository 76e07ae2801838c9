import CssColor.Proofs.Color.Circle
import CssColor.Proofs.Exact.Rgba

/-! # Hue, saturation and lightness without rounding

Over the rationals a color with a hue stands at one position of the color circle, between a smallest
and a largest channel (`Rgba.OnCircle`). Hue, saturation and lightness tell these three numbers
(`Hsl.onCircle_toRgba`) and are read off them again (`Rgba.toHsl_of_onCircle`). Every color that is
not a gray stands somewhere on the circle (`Rgba.exists_colored`), so both conversions undo each
other, the hue up to full turns (`Hsl.conversions_inverse`). -/

namespace CssColor

open Number Number.Scalar Number.Exact

/-! ### Positions on the circle -/

/-- The channels of a color at the position `x` of the circle in shares of 255, for a smallest one
of `w` and a largest one of `w + d`. -/
structure Rgba.OnCircle (w d x : ℚ) (c : Rgba ℚ) : Prop where
  red : c.red = (w + d * Hsl.ramp (x + 2)) * 255
  green : c.green = (w + d * Hsl.ramp x) * 255
  blue : c.blue = (w + d * Hsl.ramp (x - 2)) * 255

namespace Hsl

/-! ### The level of a channel -/

section

variable (low high : ℚ) {t x : ℚ}

theorem level_add_one (h1 : -1 ≤ t) (h2 : t < 0) : level low high t = level low high (t + 1) := by
  have hup : ¬t + 1 < 0 := by linarith
  unfold level
  rw [if_pos h2, if_neg hup]

theorem level_sub_one (h1 : 1 < t) (h2 : t ≤ 2) : level low high t = level low high (t - 1) := by
  have h0 : ¬t < 0 := by linarith
  have hdown : ¬t - 1 < 0 := by linarith
  have hone : ¬1 < t - 1 := by linarith
  unfold level
  dsimp only
  rw [if_neg h0, if_pos h1, if_neg hdown, if_neg hone]

theorem level_of_mem (h0 : 0 ≤ x) (h6 : x ≤ 6) :
    level low high (x / 6) = low + (high - low) * ramp x := by
  have hneg : ¬x / 6 < 0 := by linarith
  have hone : ¬1 < x / 6 := by linarith
  unfold level
  dsimp only
  rw [if_neg hneg, if_neg hone]
  split_ifs with hrising hhigh hfalling
  · rw [ramp_rising h0 (by linarith)]
    ring
  · rw [ramp_high (by linarith) (by linarith)]
    ring
  · rw [ramp_falling (by linarith) (by linarith)]
    ring
  · rw [ramp_low (by linarith) h6]
    ring

/-- A level follows the course of its channel, also a third of the circle beyond its ends. -/
theorem level_eq (h1 : -2 ≤ x) (h2 : x ≤ 8) :
    level low high (x / 6) = low + (high - low) * ramp x := by
  rcases lt_or_ge x 0 with h0 | h0
  · rw [level_add_one low high (by linarith) (by linarith), show x / 6 + 1 = (x + 6) / 6 by ring,
      level_of_mem low high (by linarith) (by linarith), ramp_add_six (by linarith) (by linarith)]
  rcases le_or_gt x 6 with h6 | h6
  · exact level_of_mem low high h0 h6
  · rw [level_sub_one low high (by linarith) (by linarith), show x / 6 - 1 = (x - 6) / 6 by ring,
      level_of_mem low high (by linarith) (by linarith),
      ← ramp_add_six (x := x - 6) (by linarith) (by linarith), sub_add_cancel]

end

/-! ### To the circle -/

section

variable {h s l : ℚ} (hs0 : 0 < s) (hs1 : s ≤ 1) (hl0 : 0 ≤ l) (hl1 : l ≤ 1)

/-- The largest channel, by the formula for dark colors or by that for light ones. -/
theorem top_eq (s l : ℚ) :
    (if l < 1 / 2 then l * (1 + s) else l + s - l * s) = l + spread s l / 2 := by
  split_ifs with hdark
  · rw [spread_of_dark hdark.le]
    ring
  · rw [spread_of_light (not_lt.mp hdark)]
    ring

include hs0 hs1 hl0 hl1

theorem toRgba_of_saturated (a : ℚ) : (⟨h, s, l⟩ : Hsl ℚ).toRgba a =
    Rgba.clamped
      (level (l - spread s l / 2) (l + spread s l / 2) (wrapDegrees h / 360 + 1 / 3) * 255)
      (level (l - spread s l / 2) (l + spread s l / 2) (wrapDegrees h / 360) * 255)
      (level (l - spread s l / 2) (l + spread s l / 2) (wrapDegrees h / 360 - 1 / 3) * 255) a := by
  have hcolored : ¬Same s 0 := fun hsame => hs0.ne' (Exact.same_iff.mp hsame)
  have hbottom : 2 * l - (l + spread s l / 2) = l - spread s l / 2 := by ring
  unfold toRgba
  dsimp only
  rw [clampUnit_of_mem ⟨hs0.le, hs1⟩, clampUnit_of_mem ⟨hl0, hl1⟩, if_neg hcolored, ← hbottom,
    ← top_eq]

/-- **A color stands on the circle** where its hue, saturation and lightness put it. -/
theorem onCircle_toRgba (a : ℚ) : Rgba.OnCircle (l - spread s l / 2) (spread s l)
    (wrapDegrees h / 60) ((⟨h, s, l⟩ : Hsl ℚ).toRgba a) := by
  have hd := spread_nonneg hs0.le hl0 hl1
  obtain ⟨hle1, hle2⟩ := spread_le hs1 hl0 hl1
  obtain ⟨hx0, hx6⟩ := wrapDegrees_mem h
  have hchannel : ∀ {y t : ℚ}, -2 ≤ y → y ≤ 8 → t = y / 6 →
      clamp 0 255 (level (l - spread s l / 2) (l + spread s l / 2) t * 255)
        = (l - spread s l / 2 + spread s l * ramp y) * 255 := by
    rintro y t h1 h2 rfl
    have h0 := mul_nonneg hd (ramp_nonneg y)
    have hone := mul_le_of_le_one_right hd (ramp_le_one y)
    rw [level_eq _ _ h1 h2,
      show l + spread s l / 2 - (l - spread s l / 2) = spread s l by ring]
    exact clamp_of_mem ⟨by linarith, by linarith⟩
  rw [toRgba_of_saturated hs0 hs1 hl0 hl1]
  refine ⟨hchannel ?_ ?_ ?_, hchannel ?_ ?_ ?_, hchannel ?_ ?_ ?_⟩ <;> linarith

end

end Hsl

namespace Rgba

open Hsl

variable {c : Rgba ℚ} {w d x : ℚ}

/-! ### Reading the position -/

/-- The formulas for a color that is not a gray, from the shares of 255 in it. -/
theorem toHsl_of_lt {u : Rgba ℚ} {high low : ℚ}
    (hu : { c with red := c.red / 255, green := c.green / 255, blue := c.blue / 255 } = u)
    (hhigh : u.largest = high) (hlow : u.smallest = low) (hlt : low < high) :
    c.toHsl = ⟨u.sextant high (high - low) / 6 * 360,
      if 1 / 2 < (high + low) / 2 then (high - low) / (2 - high - low)
      else (high - low) / (high + low), (high + low) / 2⟩ := by
  subst hhigh hlow
  exact toHsl_eq_of_not_same hu fun hsame => hlt.ne' (Exact.same_iff.mp hsame)

/-- The channels at a position of the circle, as shares of 255. -/
def levels (w d x alpha : ℚ) : Rgba ℚ :=
  ⟨w + d * ramp (x + 2), w + d * ramp x, w + d * ramp (x - 2), alpha⟩

theorem max_level (hd : 0 ≤ d) (p q : ℚ) : max (w + d * p) (w + d * q) = w + d * max p q := by
  rw [max_add_add_left, mul_max_of_nonneg _ _ hd]

theorem min_level (hd : 0 ≤ d) (p q : ℚ) : min (w + d * p) (w + d * q) = w + d * min p q := by
  rw [min_add_add_left, mul_min_of_nonneg _ _ hd]

section

variable (hd : 0 < d) (h0 : 0 ≤ x) (h6 : x < 6) (alpha : ℚ)

include hd h0 h6

theorem largest_levels : (levels w d x alpha).largest = w + d := by
  rw [largest, larger_eq, larger_eq, levels, max_level hd.le, max_level hd.le, max_ramps h0 h6.le,
    mul_one]

theorem smallest_levels : (levels w d x alpha).smallest = w := by
  rw [smallest, smaller_eq, smaller_eq, levels, min_level hd.le, min_level hd.le,
    min_ramps h0 h6.le, mul_zero, add_zero]

/-- The largest channel and the difference of the other two tell the position. -/
theorem sextant_levels : (levels w d x alpha).sextant (w + d) d = x := by
  have hsame {y : ℚ} : Same (w + d) (w + d * ramp y) ↔ ramp y = 1 := by
    rw [Exact.same_iff, add_right_inj, eq_comm, mul_eq_left₀ hd.ne']
  have hdiff (p q : ℚ) : (w + d * p - (w + d * q)) / d = p - q := by
    rw [add_sub_add_left_eq_sub, ← mul_sub, mul_div_cancel_left₀ _ hd.ne']
  have hlt {p q : ℚ} : w + d * p < w + d * q ↔ p < q := by
    rw [add_lt_add_iff_left, mul_lt_mul_iff_right₀ hd]
  have hmax := max_ramps h0 h6.le
  unfold sextant levels
  dsimp only
  rw [hdiff, hdiff, hdiff]
  have hle {y z : ℚ} (hy : ramp y = 1) : ramp z ≤ ramp y + 0 := by
    rw [hy, add_zero]
    exact ramp_le_one z
  split_ifs with hred hturn hgreen
  · have hr := hsame.mp hred
    have hlt' := hlt.mp hturn
    rcases position_of_red h0 h6.le le_rfl zero_lt_one (hle hr) (hle hr) with h | h <;>
      linarith [abs_nonpos_iff.mp h]
  · have hr := hsame.mp hred
    have hle' := not_lt.mp (mt hlt.mpr hturn)
    rcases position_of_red h0 h6.le le_rfl zero_lt_one (hle hr) (hle hr) with h | h <;>
      linarith [abs_nonpos_iff.mp h]
  · have hg := hsame.mp hgreen
    linarith [abs_nonpos_iff.mp (position_of_green h0 h6.le le_rfl zero_lt_one (hle hg) (hle hg))]
  · have hb : ramp (x - 2) = 1 := by
      rcases max_choice (max (ramp (x + 2)) (ramp x)) (ramp (x - 2)) with h | h
      · rcases max_choice (ramp (x + 2)) (ramp x) with h' | h'
        · exact absurd (hsame.mpr (h'.symm.trans (h.symm.trans hmax))) hred
        · exact absurd (hsame.mpr (h'.symm.trans (h.symm.trans hmax))) hgreen
      · exact h.symm.trans hmax
    linarith [abs_nonpos_iff.mp (position_of_blue h0 h6.le le_rfl zero_lt_one (hle hb) (hle hb))]

end

/-- **Hue, saturation and lightness** of a color on the circle. -/
theorem toHsl_of_onCircle (h : OnCircle w d x c) (hd : 0 < d) (h0 : 0 ≤ x) (h6 : x < 6) :
    c.toHsl = ⟨x * 60, if 1 / 2 < w + d / 2 then d / (2 - (w + d) - w) else d / (w + d + w),
      w + d / 2⟩ := by
  have hshares : { c with red := c.red / 255, green := c.green / 255, blue := c.blue / 255 }
      = levels w d x c.alpha := by
    rw [h.red, h.green, h.blue, mul_div_cancel_right₀ _ (by norm_num),
      mul_div_cancel_right₀ _ (by norm_num), mul_div_cancel_right₀ _ (by norm_num)]
    rfl
  rw [toHsl_of_lt hshares (largest_levels hd h0 h6 _) (smallest_levels hd h0 h6 _) (by linarith),
    add_sub_cancel_left, sextant_levels hd h0 h6, show (w + d + w) / 2 = w + d / 2 by ring,
    show x / 6 * 360 = x * 60 by ring]

/-! ### Colors with a hue -/

/-- A color at a position between a smallest and a largest channel that differ. -/
structure Colored (w d x : ℚ) (c : Rgba ℚ) : Prop extends OnCircle w d x c where
  nonneg : 0 ≤ w
  le_one : w + d ≤ 1
  differ : 0 < d
  start : 0 ≤ x
  stop : x < 6

/-- A color whose channels are not all equal stands somewhere on the circle. -/
theorem exists_colored (h : c.Bounded) {low d : ℚ} (hd : 0 < d) (hlow : c.smallest = low)
    (hhigh : c.largest = low + d) : ∃ x, Colored (low / 255) (d / 255) x c := by
  have hlevel (v : ℚ) : low + d * ((v - low) / d) = v := by
    rw [mul_div_cancel₀ _ hd.ne', add_sub_cancel]
  rw [largest, larger_eq, larger_eq] at hhigh
  rw [smallest, smaller_eq, smaller_eq] at hlow
  have hmax : max (max ((c.red - low) / d) ((c.green - low) / d)) ((c.blue - low) / d) = 1 := by
    refine mul_left_cancel₀ hd.ne' (add_left_cancel (a := low) ?_)
    rw [← max_level hd.le, ← max_level hd.le, hlevel, hlevel, hlevel, hhigh, mul_one]
  have hmin : min (min ((c.red - low) / d) ((c.green - low) / d)) ((c.blue - low) / d) = 0 := by
    refine mul_left_cancel₀ hd.ne' (add_left_cancel (a := low) ?_)
    rw [← min_level hd.le, ← min_level hd.le, hlevel, hlevel, hlevel, hlow, mul_zero, add_zero]
  obtain ⟨x, h0, h6, hr, hg, hb⟩ := exists_position hmax hmin
  have hshare {v y : ℚ} (hy : ramp y = (v - low) / d) :
      v = (low / 255 + d / 255 * ramp y) * 255 := by
    rw [hy, div_mul_eq_mul_div, ← add_div, hlevel, div_mul_cancel₀ _ (by norm_num)]
  refine ⟨x, ⟨hshare hr, hshare hg, hshare hb⟩, ?_, ?_, by positivity, h0, h6⟩
  · have hnonneg : 0 ≤ low := hlow ▸ le_min (le_min h.red.1 h.green.1) h.blue.1
    positivity
  · have hle : low + d ≤ 255 := hhigh ▸ max_le (max_le h.red.2 h.green.2) h.blue.2
    rw [← add_div]
    exact (div_le_one (by norm_num)).mpr hle

end Rgba

namespace Hsl

/-- **Back from a color to the hue,** saturation and lightness it was made of. -/
theorem toHsl_toRgba {h s l : ℚ} (hs0 : 0 < s) (hs1 : s ≤ 1) (hl0 : 0 < l) (hl1 : l < 1) (a : ℚ) :
    ((⟨h, s, l⟩ : Hsl ℚ).toRgba a).toHsl = ⟨wrapDegrees h, s, l⟩ := by
  have hd : 0 < spread s l := mul_pos hs0 (lt_min (by linarith) (by linarith))
  obtain ⟨hx0, hx6⟩ := wrapDegrees_mem h
  have hsaturation :
      (if 1 / 2 < l then spread s l / (2 - 2 * l) else spread s l / (2 * l)) = s := by
    split_ifs with hlight
    · rw [spread_of_light hlight.le, mul_div_cancel_right₀ _ (by linarith)]
    · rw [spread_of_dark (not_lt.mp hlight), mul_div_cancel_right₀ _ (by linarith)]
  rw [Rgba.toHsl_of_onCircle (onCircle_toRgba hs0 hs1 hl0.le hl1.le a) hd (by linarith)
    (by linarith), show l - spread s l / 2 + spread s l / 2 = l by ring,
    show 2 - (l - spread s l / 2 + spread s l) - (l - spread s l / 2) = 2 - 2 * l by ring,
    show l - spread s l / 2 + spread s l + (l - spread s l / 2) = 2 * l by ring, hsaturation,
    div_mul_cancel₀ _ (by norm_num)]

end Hsl

namespace Rgba

open Hsl

variable {c : Rgba ℚ} {w d x : ℚ}

/-- At one position between the same two channels there is one color. -/
theorem OnCircle.eq_withAlpha {c' : Rgba ℚ} {a : ℚ} (h : OnCircle w d x c)
    (h' : OnCircle w d x c') (ha : c'.alpha = clampUnit a) : c' = c.withAlpha a := by
  rw [withAlpha, h.red, h.green, h.blue, ← h'.red, ← h'.green, ← h'.blue, ← ha]

/-- The saturation of a color on the circle is made so that its two channels come back. -/
theorem Colored.exists_toHsl (h : Colored w d x c) : ∃ s, c.toHsl = ⟨x * 60, s, w + d / 2⟩ ∧
    0 < s ∧ s ≤ 1 ∧ spread s (w + d / 2) = d := by
  obtain ⟨hcircle, hw, hwd, hd, h0, h6⟩ := h
  refine ⟨_, toHsl_of_onCircle hcircle hd h0 h6, ?_⟩
  split_ifs with hlight
  · have hpos : 0 < 2 - (w + d) - w := by linarith
    refine ⟨by positivity, (div_le_one hpos).mpr (by linarith), ?_⟩
    rw [spread_of_light hlight.le, show 2 - 2 * (w + d / 2) = 2 - (w + d) - w by ring,
      div_mul_cancel₀ _ hpos.ne']
  · have hpos : 0 < w + d + w := by linarith
    refine ⟨by positivity, (div_le_one hpos).mpr (by linarith), ?_⟩
    rw [spread_of_dark (not_lt.mp hlight), show 2 * (w + d / 2) = w + d + w by ring,
      div_mul_cancel₀ _ hpos.ne']

/-- Its lightness lies between black and white. -/
theorem Colored.lightness_mem (h : Colored w d x c) : 0 ≤ w + d / 2 ∧ w + d / 2 ≤ 1 := by
  obtain ⟨-, hw, hwd, hd, -, -⟩ := h
  constructor <;> linarith

theorem Colored.toRgba_toHsl (h : Colored w d x c) (a : ℚ) : c.toHsl.toRgba a = c.withAlpha a := by
  obtain ⟨s, hs, hs0, hs1, hspread⟩ := h.exists_toHsl
  obtain ⟨hl0, hl1⟩ := h.lightness_mem
  have hback := onCircle_toRgba (h := x * 60) hs0 hs1 hl0 hl1 a
  rw [hspread, add_sub_cancel_right, wrapDegrees_of_mem (by linarith [h.start])
    (by linarith [h.stop]), mul_div_cancel_right₀ _ (by norm_num)] at hback
  rw [hs]
  refine h.eq_withAlpha hback ?_
  rw [toRgba_of_saturated hs0 hs1 hl0 hl1]
  rfl

theorem largest_of_gray (hg : c.green = c.red) (hb : c.blue = c.red) : c.largest = c.red := by
  rw [largest, larger_eq, larger_eq, hg, hb, max_self, max_self]

theorem smallest_of_gray (hg : c.green = c.red) (hb : c.blue = c.red) : c.smallest = c.red := by
  rw [smallest, smaller_eq, smaller_eq, hg, hb, min_self, min_self]

theorem toHsl_of_gray (hg : c.green = c.red) (hb : c.blue = c.red) :
    c.toHsl = ⟨0, 0, c.red / 255⟩ := by
  unfold toHsl
  dsimp only
  rw [hg, hb, largest_of_gray rfl rfl, smallest_of_gray rfl rfl, if_pos (Exact.same_iff.mpr rfl),
    add_self_div_two]

/-- Three equal channels come back from a lightness alone. -/
theorem toRgba_toHsl_of_gray (h : c.Bounded) (hg : c.green = c.red) (hb : c.blue = c.red) (a : ℚ) :
    c.toHsl.toRgba a = c.withAlpha a := by
  have hlightness : clampUnit (c.red / 255) = c.red / 255 := clampUnit_of_mem (share_mem h.red)
  have hsaturation : clampUnit (0 : ℚ) = 0 := clampUnit_of_mem ⟨le_rfl, zero_le_one⟩
  rw [toHsl_of_gray hg hb, toRgba]
  dsimp only
  rw [hsaturation, hlightness, if_pos (Exact.same_iff.mpr rfl), div_mul_cancel₀ _ (by norm_num),
    ← h.clamped_eq, hg, hb]

/-- A color is a gray, or it has a place on the circle. -/
theorem Bounded.gray_or_colored (h : c.Bounded) :
    (c.green = c.red ∧ c.blue = c.red) ∨ ∃ w d x, Colored w d x c := by
  rcases lt_or_ge c.smallest c.largest with hlt | hle
  · obtain ⟨x, hc⟩ := exists_colored h (sub_pos.mpr hlt) rfl (add_sub_cancel _ _).symm
    exact Or.inr ⟨_, _, x, hc⟩
  · rw [largest, smallest, larger_eq, larger_eq, smaller_eq, smaller_eq] at hle
    exact Or.inl ⟨by grind, by grind⟩

/-- **Back from hue, saturation and lightness to the color** they were taken from. -/
theorem Bounded.toRgba_toHsl (h : c.Bounded) (a : ℚ) : c.toHsl.toRgba a = c.withAlpha a := by
  rcases h.gray_or_colored with ⟨hg, hb⟩ | ⟨w, d, x, hc⟩
  · exact toRgba_toHsl_of_gray h hg hb a
  · exact hc.toRgba_toHsl a

end Rgba

namespace Hsl

/-- **The conversions are exact.** Without rounding a color with channels from 0 to 255 comes back
from its hue, saturation and lightness, be it a gray or not, with the alpha it is given. And a hue,
a saturation above nothing and a lightness between black and white come back from their color, the
hue as its remainder under division by a full turn. -/
theorem conversions_inverse :
    (∀ c : Rgba ℚ, c.Bounded → (∀ a, c.toHsl.toRgba a = c.withAlpha a) ∧
      (0 ≤ c.alpha ∧ c.alpha ≤ 1 → c.toHsl.toRgba c.alpha = c)) ∧
    ∀ h s l a : ℚ, 0 < s → s ≤ 1 → 0 < l → l < 1 →
      ((⟨h, s, l⟩ : Hsl ℚ).toRgba a).toHsl = ⟨h - 360 * ⌊h / 360⌋, s, l⟩ := by
  refine ⟨fun c hc => ⟨hc.toRgba_toHsl, fun ha => ?_⟩, fun h s l a hs0 hs1 hl0 hl1 => ?_⟩
  · rw [hc.toRgba_toHsl, Rgba.withAlpha_alpha ha]
  · rw [toHsl_toRgba hs0 hs1 hl0 hl1, wrapDegrees_eq]

/-- A brown, and a hue below zero. -/
theorem conversions_inverse_brown :
    (⟨153, 102, 51, 1 / 2⟩ : Rgba ℚ).toHsl.toRgba (1 / 2) = ⟨153, 102, 51, 1 / 2⟩ ∧
      ((⟨-30, 1 / 2, 1 / 4⟩ : Hsl ℚ).toRgba 1).toHsl = ⟨330, 1 / 2, 1 / 4⟩ := by
  have hbounded : Rgba.Bounded ⟨153, 102, 51, 1 / 2⟩ := by
    refine ⟨?_, ?_, ?_⟩ <;> norm_num
  have hturn : (-30 : ℚ) - 360 * ⌊(-30 : ℚ) / 360⌋ = 330 := by decide +kernel
  constructor
  · exact (conversions_inverse.1 _ hbounded).2 ⟨by norm_num, by norm_num⟩
  · rw [conversions_inverse.2 (-30) (1 / 2) (1 / 4) 1 (by norm_num) (by norm_num) (by norm_num)
      (by norm_num), hturn]

end Hsl

end CssColor
