import CssColor.Proofs.Color.Level
import CssColor.Proofs.Color.Opacity
import CssColor.Proofs.Number.Power

/-! # Luminance and the far end

The luminance of a color in range is a share (`within_luminance`), so comparing it with a half tells
dark colors from light ones. A mixture of colors in range lies in range (`Rgba.InRange.mix`), and
with the whole of the other color its bytes are those of the other (`rounded_mix_one`), though its
channels may be off by a rounding. So at the end of its way a legible shade is white or black
(`rounded_legible_one`), whatever the luminance is taken to be. -/

namespace CssColor

open Number Number.Scalar Number.Binary64

/-! ### Luminance -/

theorem within_linearIntensity {x : Binary64} (h : Within 0 1 x) :
    Within 0 1 (linearIntensity x) := by
  have hone : Within 0 (1 : Binary64).value x := by rwa [value_one]
  unfold linearIntensity
  split_ifs
  · have hfinite : (1292 / 100 : Binary64).isFinite = true := by decide +kernel
    have hdivisor : (1 : ℚ) ≤ (1292 / 100 : Binary64).value := by decide +kernel
    exact within_ratio h.isFinite hfinite h.lo_le (h.le_hi.trans hdivisor)
      (zero_lt_one.trans_le hdivisor)
  · have hoffset : Within 0 1 (55 / 1000 : Binary64) :=
      within_literalShare (n := 55) (d := 1000) (by norm_num) (by norm_num) (by norm_num)
    have hsum := within_add_mono Rgba.within_one.isFinite hoffset.isFinite (by decide +kernel) hone
      hoffset.to_value
    -- the share one is brought to the divisor by the rounding of the sum
    have hdivisor : (1 + 55 / 1000 : Binary64).value ≤ (1055 / 1000 : Binary64).value := by
      decide +kernel
    exact within_pow (within_ratio hsum.isFinite (by decide +kernel) hsum.lo_le
      (hsum.le_hi.trans hdivisor) (by decide +kernel)) _

/-- **The luminance of a color in range** is a share: it does not pass that of white. -/
theorem within_luminance {c : Color} (h : c.InRange) : Within 0 1 c.luminance := by
  have hterm {n : ℕ} (hn : n ≤ 10000) {x : Binary64} (hx : Within 0 255 x) :
      Within 0 (ofNat n / ofNat 10000 : Binary64).value
        (ofNat n / ofNat 10000 * linearIntensity (x / 255)) := by
    exact (within_literalShare hn (by norm_num) (by norm_num)).mul_share
      (within_linearIntensity (Rgba.within_channelShare hx))
  have hred := hterm (n := 2126) (by norm_num) h.red
  have hgreen := hterm (n := 7152) (by norm_num) h.green
  have hblue := hterm (n := 722) (by norm_num) h.blue
  have htwo := within_add_mono (by decide +kernel) (by decide +kernel) (by decide +kernel) hred
    hgreen
  have hthree := within_add_mono (by decide +kernel) (by decide +kernel) (by decide +kernel) htwo
    hblue
  have hwhite : (2126 / 10000 + 7152 / 10000 + 722 / 10000 : Binary64).value = 1 := by
    decide +kernel
  exact hthree.weaken le_rfl hwhite.le

/-! ### Mixtures in range -/

namespace Rgba

variable {c d : Color}

theorem small_channel {x : Binary64} (h : Within 0 255 x) : Small 255 x :=
  h.small (by norm_num) (by norm_num)

theorem InRange.mix (hc : c.InRange) (hd : d.InRange) {w : Binary64} (hw : w.IsNumber) :
    (c.mix d w).InRange := by
  have hshare := within_clampUnit hw
  have htoward {x y : Binary64} (hx : Within 0 255 x) (hy : Within 0 255 y) :
      (x + (y - x) * clampUnit w).IsNumber :=
    (small_toward (small_channel hx) (small_channel hy) hshare (by norm_num)).isNumber
  have halpha := small_toward (small_share hc.alpha) (small_share hd.alpha) hshare (by norm_num)
  exact inRange_clamped (htoward hc.red hd.red) (htoward hc.green hd.green)
    (htoward hc.blue hd.blue) halpha.isNumber

theorem near_of_within {x : Binary64} (h : Within 0 255 x) : Near 255 0 x.value x :=
  near_of_value_eq h.isFinite rfl (small_channel h).abs_value_le

theorem toByte_of_near {a : ℚ} {b : UInt8} {x : Binary64} (h : Near a (1 / 10) b.toNat x) :
    toByte x = b :=
  toByte_of_toIntNearest (toIntNearest_of_near (by exact_mod_cast h))

/-- All the way from a channel to a byte. -/
theorem toByte_toward_one {x : Binary64} (hx : Within 0 255 x) (b : UInt8) :
    toByte (clamp 0 255 (x + ((ofNat b.toNat : Binary64) - x) * clampUnit 1)) = b := by
  have hb := within_byte b
  have hvalue : (ofNat b.toNat : Binary64).value = b.toNat :=
    value_ofNat (by have := b.toNat_lt; omega)
  have hnear := near_of_within hx
  have hstep := ((near_of_within hb).sub hnear (by norm_num)).mul near_one (by norm_num [roundoff])
  have hsum := hnear.add hstep (by norm_num [roundoff])
  rw [hvalue, mul_one ((b.toNat : ℚ) - x.value), add_sub_cancel] at hsum
  have hsize : |(b.toNat : ℚ)| ≤ 255 := by
    rw [← hvalue]
    exact (near_of_within hb).size_le
  have hend : Near 255 (1 / 10) b.toNat (x + ((ofNat b.toNat : Binary64) - x) * 1) :=
    ⟨hsum.isFinite, hsize, hsum.error_le.trans (by norm_num [roundoff])⟩
  rw [clampUnit_one]
  exact toByte_of_near (Hsl.near_clampChannel hend (Nat.cast_nonneg _))

/-- **A mixture with the whole of a color** of three bytes has these bytes. -/
theorem rounded_mix_one (hc : c.InRange) (b : Rgb) (a : Binary64) :
    (c.mix ((solid b).withAlpha a) 1).rounded = b := by
  show Rgb.mk (toByte (clamp 0 255 (c.red + (ofNat b.red.toNat - c.red) * clampUnit 1)))
    (toByte (clamp 0 255 (c.green + (ofNat b.green.toNat - c.green) * clampUnit 1)))
    (toByte (clamp 0 255 (c.blue + (ofNat b.blue.toNat - c.blue) * clampUnit 1))) = b
  rw [toByte_toward_one hc.red, toByte_toward_one hc.green, toByte_toward_one hc.blue]

end Rgba

/-! ### The far end -/

section

variable {luminance : Color → Binary64} {c : Color}

theorem farEnd_eq (c : Color) : farEnd luminance c = (Rgba.solid
    (if luminance c < 1 / 2 then ⟨255, 255, 255⟩ else ⟨0, 0, 0⟩ : Rgb)).withAlpha c.alpha := by
  unfold farEnd
  split_ifs <;> rfl

theorem inRange_farEnd (h : Within 0 1 c.alpha) : (farEnd luminance c).InRange := by
  rw [farEnd_eq]
  obtain ⟨hr, hg, hb, -⟩ := Rgba.inRange_solid
    (if luminance c < 1 / 2 then ⟨255, 255, 255⟩ else ⟨0, 0, 0⟩ : Rgb)
  exact ⟨hr, hg, hb, within_clampUnit h.isNumber⟩

theorem inRange_nearestLegible (h : c.InRange) : (nearestLegible luminance c).InRange := by
  have hfar : (farEnd luminance c).InRange := inRange_farEnd h.alpha
  unfold nearestLegible
  dsimp only
  split_ifs
  · exact h.mix hfar (within_bisect bisectSteps Rgba.within_zero Rgba.within_one).2.isNumber
  · exact hfar

/-- **At the end of its way** a legible shade is white on a dark color and black on a light one. -/
theorem rounded_legible_one (h : c.InRange) : (legible luminance c 1).rounded
    = if luminance c < 1 / 2 then ⟨255, 255, 255⟩ else ⟨0, 0, 0⟩ := by
  rw [legible, farEnd_eq]
  exact Rgba.rounded_mix_one (inRange_nearestLegible h) _ _

end

/-- Red gets there without a rounding. -/
theorem legible_red_one : legible Color.luminance (.solid ⟨255, 0, 0⟩ : Color) 1
    = .solid ⟨255, 255, 255⟩ := by
  decide +kernel

end CssColor
