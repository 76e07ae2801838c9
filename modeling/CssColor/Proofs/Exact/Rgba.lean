import CssColor.Color.Rgba
import CssColor.Proofs.Exact.Scalar

/-! # Colors without rounding

Colors of rational channels. `Rgba.Regular` says that the channels and alpha lie in their ranges;
what moves them there leaves such a color alone (`Rgba.Regular.clamped_eq`). Going from one color
toward another begins at the first (`Rgba.Regular.mix_zero`) and ends at the second
(`Rgba.Regular.mix_of_one_le`). -/

namespace CssColor

open Number Number.Scalar Number.Exact

namespace Rgba

/-- Red, green and blue from 0 to 255. -/
structure Bounded (c : Rgba ℚ) : Prop where
  red : 0 ≤ c.red ∧ c.red ≤ 255
  green : 0 ≤ c.green ∧ c.green ≤ 255
  blue : 0 ≤ c.blue ∧ c.blue ≤ 255

/-- Red, green and blue from 0 to 255, and alpha from 0 to 1. -/
structure Regular (c : Rgba ℚ) : Prop extends Bounded c where
  alpha : 0 ≤ c.alpha ∧ c.alpha ≤ 1

/-- A channel as its share of 255. -/
theorem share_mem {x : ℚ} (h : 0 ≤ x ∧ x ≤ 255) : 0 ≤ x / 255 ∧ x / 255 ≤ 1 :=
  ⟨div_nonneg h.1 (by norm_num), (div_le_one (by norm_num)).mpr h.2⟩

/-! ### Moving channels into their ranges -/

theorem regular_clamped (r g b a : ℚ) : (clamped r g b a).Regular where
  red := clamp_mem (by norm_num) r
  green := clamp_mem (by norm_num) g
  blue := clamp_mem (by norm_num) b
  alpha := clampUnit_mem a

variable {c d : Rgba ℚ}

/-- Bounded channels stay, and alpha is moved into its range. -/
theorem Bounded.clamped_eq (h : c.Bounded) (a : ℚ) :
    clamped c.red c.green c.blue a = c.withAlpha a := by
  have hred : clamp 0 255 c.red = c.red := clamp_of_mem h.red
  have hgreen : clamp 0 255 c.green = c.green := clamp_of_mem h.green
  have hblue : clamp 0 255 c.blue = c.blue := clamp_of_mem h.blue
  show Rgba.mk (clamp 0 255 c.red) (clamp 0 255 c.green) (clamp 0 255 c.blue) (clampUnit a) = _
  rw [hred, hgreen, hblue]
  rfl

theorem withAlpha_alpha (h : 0 ≤ c.alpha ∧ c.alpha ≤ 1) : c.withAlpha c.alpha = c := by
  rw [withAlpha, clampUnit_of_mem h]

theorem Regular.clamped_eq (h : c.Regular) : clamped c.red c.green c.blue c.alpha = c := by
  rw [h.toBounded.clamped_eq, withAlpha_alpha h.alpha]

theorem Regular.withAlpha (h : c.Regular) (a : ℚ) : (c.withAlpha a).Regular :=
  ⟨⟨h.red, h.green, h.blue⟩, clampUnit_mem a⟩

theorem regular_solid (c : Rgb) : (solid c : Rgba ℚ).Regular := by
  have hbyte (b : UInt8) : (0 : ℚ) ≤ b.toNat ∧ (b.toNat : ℚ) ≤ 255 :=
    ⟨b.toNat.cast_nonneg, by exact_mod_cast Nat.le_of_lt_succ b.toNat_lt⟩
  exact ⟨⟨hbyte c.red, hbyte c.green, hbyte c.blue⟩, clampUnit_mem 1⟩

/-! ### Mixing -/

theorem regular_mix (c d : Rgba ℚ) (w : ℚ) : (c.mix d w).Regular := regular_clamped _ _ _ _

theorem mix_eq (c d : Rgba ℚ) {v w : ℚ} (hw : clampUnit w = v) :
    c.mix d w = clamped (c.red + (d.red - c.red) * v) (c.green + (d.green - c.green) * v)
      (c.blue + (d.blue - c.blue) * v) (c.alpha + (d.alpha - c.alpha) * v) := by
  rw [← hw]
  rfl

theorem Regular.mix_zero (h : c.Regular) (d : Rgba ℚ) : c.mix d 0 = c := by
  rw [mix_eq c d (clampUnit_of_mem ⟨le_rfl, zero_le_one⟩)]
  simpa using h.clamped_eq

theorem Regular.mix_of_one_le (h : d.Regular) (c : Rgba ℚ) {w : ℚ} (hw : 1 ≤ w) :
    c.mix d w = d := by
  rw [mix_eq c d (clampUnit_of_one_le hw)]
  simpa using h.clamped_eq

theorem Regular.mix_self (h : c.Regular) (w : ℚ) : c.mix c w = c := by
  rw [mix_eq c c rfl]
  simpa using h.clamped_eq

end Rgba

end CssColor
