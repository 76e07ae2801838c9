import CssColor.Color.Hwb
import CssColor.Proofs.Exact.Hsl

/-! # Hue, whiteness and blackness without rounding

Whiteness and blackness, scaled down where they add up to more than one, are the smallest channel
and the distance of the largest one from the top. So a color stands on the color circle at its hue,
between these two (`Hwb.onCircle_toRgba`), also where the two meet: whiteness and blackness that
leave no room for a color give the gray in their proportion, whatever the hue. Read off from the
circle (`Rgba.toHwb_of_onCircle`) they come back, so both conversions undo each other
(`Hwb.conversions_exact`). -/

namespace CssColor

open Number Number.Scalar Number.Exact

namespace Hwb

/-! ### Shares of white and black -/

theorem shares_of_le_one {h w b : ℚ} (hw : 0 ≤ w) (hb : 0 ≤ b) (hsum : w + b ≤ 1) :
    (⟨h, w, b⟩ : Hwb ℚ).shares = (w, b) := by
  unfold shares
  dsimp only
  rw [clampUnit_of_mem ⟨hw, by linarith⟩, clampUnit_of_mem ⟨hb, by linarith⟩]
  split_ifs with h1
  · rw [le_antisymm hsum h1, div_one, div_one]
  · rfl

theorem shares_of_one_le {h w b : ℚ} (hw : 0 ≤ w ∧ w ≤ 1) (hb : 0 ≤ b ∧ b ≤ 1)
    (hsum : 1 ≤ w + b) : (⟨h, w, b⟩ : Hwb ℚ).shares = (w / (w + b), b / (w + b)) := by
  unfold shares
  dsimp only
  rw [clampUnit_of_mem hw, clampUnit_of_mem hb, if_pos hsum]

/-- Whatever whiteness and blackness are, their shares add up to at most one. -/
theorem shares_mem (c : Hwb ℚ) : 0 ≤ c.shares.1 ∧ 0 ≤ c.shares.2 ∧
    c.shares.1 + c.shares.2 ≤ 1 := by
  have hw := (clampUnit_mem c.whiteness).1
  have hb := (clampUnit_mem c.blackness).1
  unfold shares
  dsimp only
  split_ifs with h
  · have hsum : 0 < clampUnit c.whiteness + clampUnit c.blackness := by linarith
    refine ⟨div_nonneg hw hsum.le, div_nonneg hb hsum.le, ?_⟩
    dsimp only
    rw [← add_div, div_self hsum.ne']
  · exact ⟨hw, hb, (not_le.mp h).le⟩

/-! ### To the circle -/

theorem toRgba_eq (c : Hwb ℚ) (a : ℚ) {vivid : Rgba ℚ}
    (hv : (⟨c.hue, 1, 1 / 2⟩ : Hsl ℚ).toRgba a = vivid) : c.toRgba a =
    Rgba.clamped ((vivid.red / 255 * (1 - c.shares.1 - c.shares.2) + c.shares.1) * 255)
      ((vivid.green / 255 * (1 - c.shares.1 - c.shares.2) + c.shares.1) * 255)
      ((vivid.blue / 255 * (1 - c.shares.1 - c.shares.2) + c.shares.1) * 255) a := by
  subst hv
  rfl

/-- **A color stands on the circle** at its hue, between its white and its black. -/
theorem onCircle_toRgba (c : Hwb ℚ) (a : ℚ) : Rgba.OnCircle c.shares.1
    (1 - c.shares.1 - c.shares.2) (wrapDegrees c.hue / 60) (c.toRgba a) := by
  obtain ⟨hw, hb, hsum⟩ := c.shares_mem
  -- the vivid color of the hue takes up the whole range of the channels
  have hvivid := Hsl.onCircle_toRgba (h := c.hue) (s := 1) (l := 1 / 2) one_pos le_rfl
    (by norm_num) (by norm_num) a
  have hspread : Hsl.spread 1 (1 / 2) = 1 := by rw [Hsl.spread_of_dark le_rfl]; norm_num
  rw [hspread] at hvivid
  have hchannel {v y : ℚ} (hv : v = (1 / 2 - 1 / 2 + 1 * Hsl.ramp y) * 255) :
      clamp 0 255 ((v / 255 * (1 - c.shares.1 - c.shares.2) + c.shares.1) * 255)
        = (c.shares.1 + (1 - c.shares.1 - c.shares.2) * Hsl.ramp y) * 255 := by
    have hroom : 0 ≤ 1 - c.shares.1 - c.shares.2 := by linarith
    have h0 := mul_nonneg hroom (Hsl.ramp_nonneg y)
    have h1 := mul_le_of_le_one_right hroom (Hsl.ramp_le_one y)
    have hlevel : (v / 255 * (1 - c.shares.1 - c.shares.2) + c.shares.1) * 255
        = (c.shares.1 + (1 - c.shares.1 - c.shares.2) * Hsl.ramp y) * 255 := by
      rw [hv]
      ring
    rw [hlevel]
    exact clamp_of_mem ⟨by linarith, by linarith⟩
  rw [toRgba_eq c a rfl]
  exact ⟨hchannel hvivid.red, hchannel hvivid.green, hchannel hvivid.blue⟩

theorem alpha_toRgba_eq (c : Hwb ℚ) (a : ℚ) : (c.toRgba a).alpha = clampUnit a := rfl

end Hwb

namespace Rgba

variable {c : Rgba ℚ} {w d x : ℚ}

/-! ### Reading whiteness and blackness -/

theorem OnCircle.eq_levels (h : OnCircle w d x c) : c = levels (w * 255) (d * 255) x c.alpha := by
  have hlevel (y : ℚ) : (w + d * y) * 255 = w * 255 + d * 255 * y := by ring
  obtain ⟨r, g, b, a⟩ := c
  obtain ⟨rfl, rfl, rfl⟩ := h
  rw [levels, hlevel, hlevel, hlevel]

/-- **Hue, whiteness and blackness** of a color on the circle. -/
theorem toHwb_of_onCircle (h : OnCircle w d x c) (hd : 0 < d) (h0 : 0 ≤ x) (h6 : x < 6) :
    c.toHwb = ⟨x * 60, w, 1 - (w + d)⟩ := by
  have hd' : 0 < d * 255 := by positivity
  have hlargest : c.largest = w * 255 + d * 255 := by rw [h.eq_levels, largest_levels hd' h0 h6]
  have hsmallest : c.smallest = w * 255 := by rw [h.eq_levels, smallest_levels hd' h0 h6]
  rw [toHwb, toHsl_of_onCircle h hd h0 h6, hlargest, hsmallest, ← add_mul,
    mul_div_cancel_right₀ _ (by norm_num), mul_div_cancel_right₀ _ (by norm_num)]

/-- A gray has no hue, and its white and its black leave nothing. -/
theorem toHwb_of_gray (hg : c.green = c.red) (hb : c.blue = c.red) :
    c.toHwb = ⟨0, c.red / 255, 1 - c.red / 255⟩ := by
  rw [toHwb, toHsl_of_gray hg hb, smallest_of_gray hg hb, largest_of_gray hg hb]

/-- A color comes back from whiteness and blackness with its own room between them. -/
theorem OnCircle.toRgba_eq_withAlpha (h : OnCircle w d x c) (hw : 0 ≤ w) (hd : 0 ≤ d)
    (hwd : w + d ≤ 1) (h0 : 0 ≤ x) (h6 : x < 6) (a : ℚ) :
    (⟨x * 60, w, 1 - (w + d)⟩ : Hwb ℚ).toRgba a = c.withAlpha a := by
  have hback := Hwb.onCircle_toRgba ⟨x * 60, w, 1 - (w + d)⟩ a
  have hroom : 1 - w - (1 - (w + d)) = d := by ring
  rw [Hwb.shares_of_le_one hw (by linarith) (by linarith)] at hback
  dsimp only at hback
  rw [hroom, wrapDegrees_of_mem (by linarith) (by linarith),
    mul_div_cancel_right₀ _ (by norm_num)] at hback
  exact h.eq_withAlpha hback (Hwb.alpha_toRgba_eq _ a)

/-- **Back from hue, whiteness and blackness to the color** they were taken from. -/
theorem Bounded.toRgba_toHwb (h : c.Bounded) (a : ℚ) : c.toHwb.toRgba a = c.withAlpha a := by
  rcases h.gray_or_colored with ⟨hg, hb⟩ | ⟨w, d, x, hc⟩
  · have hgray : OnCircle (c.red / 255) 0 0 c := by
      refine ⟨?_, ?_, ?_⟩
      all_goals rw [zero_mul, add_zero, div_mul_cancel₀ _ (by norm_num)]
      · exact hg
      · exact hb
    obtain ⟨hw0, hw1⟩ := share_mem h.red
    have hback := hgray.toRgba_eq_withAlpha hw0 le_rfl (by rwa [add_zero]) le_rfl (by norm_num) a
    rwa [zero_mul, add_zero, ← toHwb_of_gray hg hb] at hback
  · rw [toHwb_of_onCircle hc.toOnCircle hc.differ hc.start hc.stop]
    exact hc.toRgba_eq_withAlpha hc.nonneg hc.differ.le hc.le_one hc.start hc.stop a

end Rgba

namespace Hwb

variable {h w b : ℚ}

/-- **Back from a color to the hue,** whiteness and blackness it was made of. -/
theorem toHwb_toRgba (hw : 0 ≤ w) (hb : 0 ≤ b) (hsum : w + b < 1) (a : ℚ) :
    ((⟨h, w, b⟩ : Hwb ℚ).toRgba a).toHwb = ⟨wrapDegrees h, w, b⟩ := by
  obtain ⟨hx0, hx6⟩ := wrapDegrees_mem h
  have hcircle := onCircle_toRgba ⟨h, w, b⟩ a
  rw [shares_of_le_one hw hb hsum.le] at hcircle
  dsimp only at hcircle
  rw [Rgba.toHwb_of_onCircle hcircle (by linarith) (by linarith) (by linarith),
    div_mul_cancel₀ _ (by norm_num)]
  congr 1
  ring

/-- **Whiteness and blackness that leave no room** give the gray in their proportion. -/
theorem toRgba_of_one_le (hw : 0 ≤ w ∧ w ≤ 1) (hb : 0 ≤ b ∧ b ≤ 1) (hsum : 1 ≤ w + b) (a : ℚ) :
    (⟨h, w, b⟩ : Hwb ℚ).toRgba a
      = ⟨255 * w / (w + b), 255 * w / (w + b), 255 * w / (w + b), clampUnit a⟩ := by
  have hroom : 1 - w / (w + b) - b / (w + b) = 0 := by
    rw [sub_sub, ← add_div, div_self (by linarith), sub_self]
  have hcircle := onCircle_toRgba ⟨h, w, b⟩ a
  rw [shares_of_one_le hw hb hsum] at hcircle
  dsimp only at hcircle
  rw [hroom] at hcircle
  have hgray (y : ℚ) : (w / (w + b) + 0 * Hsl.ramp y) * 255 = 255 * w / (w + b) := by ring
  have halpha := alpha_toRgba_eq ⟨h, w, b⟩ a
  obtain ⟨hred, hgreen, hblue⟩ := hcircle
  rw [hgray] at hred hgreen hblue
  generalize (⟨h, w, b⟩ : Hwb ℚ).toRgba a = c at hred hgreen hblue halpha ⊢
  obtain ⟨r, g, b', t⟩ := c
  rw [Rgba.mk.injEq]
  exact ⟨hred, hgreen, hblue, halpha⟩

/-- **The conversions are exact.** Without rounding a color with channels from 0 to 255 comes back
from its hue, whiteness and blackness, be it a gray or not, with the alpha it is given. A hue, a
whiteness and a blackness that leave room for a color come back from it, the hue as its remainder
under division by a full turn. And where they leave none, the color is the gray in their proportion,
whatever the hue. -/
theorem conversions_exact :
    (∀ c : Rgba ℚ, c.Bounded → (∀ a, c.toHwb.toRgba a = c.withAlpha a) ∧
      (0 ≤ c.alpha ∧ c.alpha ≤ 1 → c.toHwb.toRgba c.alpha = c)) ∧
    (∀ h w b a : ℚ, 0 ≤ w → 0 ≤ b → w + b < 1 →
      ((⟨h, w, b⟩ : Hwb ℚ).toRgba a).toHwb = ⟨h - 360 * ⌊h / 360⌋, w, b⟩) ∧
    ∀ h w b a : ℚ, 0 ≤ w ∧ w ≤ 1 → 0 ≤ b ∧ b ≤ 1 → 1 ≤ w + b →
      (⟨h, w, b⟩ : Hwb ℚ).toRgba a
        = ⟨255 * w / (w + b), 255 * w / (w + b), 255 * w / (w + b), clampUnit a⟩ := by
  refine ⟨fun c hc => ⟨hc.toRgba_toHwb, fun ha => ?_⟩, fun h w b a hw hb hsum => ?_,
    fun h w b a hw hb hsum => toRgba_of_one_le hw hb hsum a⟩
  · rw [hc.toRgba_toHwb, Rgba.withAlpha_alpha ha]
  · rw [toHwb_toRgba hw hb hsum, wrapDegrees_eq]

/-- A teal, a hue of more than a turn, and white and black in excess. -/
theorem conversions_exact_teal :
    (⟨51, 153, 153, 1 / 2⟩ : Rgba ℚ).toHwb.toRgba (1 / 2) = ⟨51, 153, 153, 1 / 2⟩ ∧
      ((⟨390, 1 / 5, 2 / 5⟩ : Hwb ℚ).toRgba 1).toHwb = ⟨30, 1 / 5, 2 / 5⟩ ∧
      (⟨120, 1, 2 / 3⟩ : Hwb ℚ).toRgba 1 = ⟨153, 153, 153, 1⟩ := by
  have hbounded : Rgba.Bounded ⟨51, 153, 153, 1 / 2⟩ := by
    refine ⟨?_, ?_, ?_⟩ <;> norm_num
  have hturn : (390 : ℚ) - 360 * ⌊(390 : ℚ) / 360⌋ = 30 := by decide +kernel
  refine ⟨?_, ?_, ?_⟩
  · exact (conversions_exact.1 _ hbounded).2 ⟨by norm_num, by norm_num⟩
  · rw [conversions_exact.2.1 390 (1 / 5) (2 / 5) 1 (by norm_num) (by norm_num) (by norm_num),
      hturn]
  · rw [conversions_exact.2.2 120 1 (2 / 3) 1 (by norm_num) (by norm_num) (by norm_num)]
    decide +kernel

end Hwb

end CssColor
