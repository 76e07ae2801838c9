import CssColor.Proofs.Color.Functional
import CssColor.Proofs.Exact.Checked
import CssColor.Proofs.Exact.Hwb

/-! # The ranges of hue, saturation and lightness

Without rounding, a color with channels from 0 to 255 has a hue below a full turn, and a saturation,
a lightness, a whiteness and a blackness between zero and one (`Rgba.Bounded.regular_toHsl`,
`Rgba.Bounded.regular_toHwb`). Its formulas divide by zero nowhere: over numbers that keep a record
of such divisions they give the same (`Rgba.Bounded.toHsl_checked`). A hue that is rounded up to 360
is a hue of 0 again, so the whole degrees stay below 360 (`Hsl.Regular.exists_whole`). In double
precision a hue may come out as 360 itself, but the whole numbers a text shows have the same ranges
(`Rgba.exists_hslText`). -/

namespace CssColor

open Number Number.Scalar Number.Exact Number.Checked

/-! ### Ranges -/

/-- A hue below a full turn, and shares of one for saturation and lightness. -/
structure Hsl.Regular (c : Hsl ℚ) : Prop where
  hue : 0 ≤ c.hue ∧ c.hue < 360
  saturation : 0 ≤ c.saturation ∧ c.saturation ≤ 1
  lightness : 0 ≤ c.lightness ∧ c.lightness ≤ 1

/-- A hue below a full turn, and shares of one for whiteness and blackness that do not add up to
more than one. -/
structure Hwb.Regular (c : Hwb ℚ) : Prop where
  hue : 0 ≤ c.hue ∧ c.hue < 360
  whiteness : 0 ≤ c.whiteness ∧ c.whiteness ≤ 1
  blackness : 0 ≤ c.blackness ∧ c.blackness ≤ 1
  sum_le : c.whiteness + c.blackness ≤ 1

namespace Rgba

variable {c : Rgba ℚ}

theorem Colored.hue_mem {w d x : ℚ} (h : Colored w d x c) : 0 ≤ x * 60 ∧ x * 60 < 360 := by
  have h0 := h.start
  have h6 := h.stop
  constructor <;> linarith

/-- **Hue, saturation and lightness are in range.** -/
theorem Bounded.regular_toHsl (h : c.Bounded) : c.toHsl.Regular := by
  rcases h.gray_or_colored with ⟨hg, hb⟩ | ⟨w, d, x, hc⟩
  · rw [toHsl_of_gray hg hb]
    exact ⟨⟨le_rfl, by norm_num⟩, ⟨le_rfl, zero_le_one⟩, share_mem h.red⟩
  · obtain ⟨s, hs, hs0, hs1, -⟩ := hc.exists_toHsl
    rw [hs]
    exact ⟨hc.hue_mem, ⟨hs0.le, hs1⟩, hc.lightness_mem⟩

/-- **Hue, whiteness and blackness are in range.** -/
theorem Bounded.regular_toHwb (h : c.Bounded) : c.toHwb.Regular := by
  rcases h.gray_or_colored with ⟨hg, hb⟩ | ⟨w, d, x, hc⟩
  · obtain ⟨h0, h1⟩ := share_mem h.red
    rw [toHwb_of_gray hg hb]
    exact ⟨⟨le_rfl, by norm_num⟩, ⟨h0, h1⟩, ⟨sub_nonneg.mpr h1, sub_le_self 1 h0⟩,
      (add_sub_cancel _ _).le⟩
  · have hw := hc.nonneg
    have hd := hc.differ
    have hwd := hc.le_one
    rw [toHwb_of_onCircle hc.toOnCircle hd hc.start hc.stop]
    refine ⟨hc.hue_mem, ⟨hw, ?_⟩, ⟨sub_nonneg.mpr hwd, ?_⟩, ?_⟩ <;> dsimp only <;> linarith

/-! ### Divisors -/

/-- The channels of a color as shares of 255. -/
def shares (c : Rgba ℚ) : Rgba ℚ :=
  { c with red := c.red / 255, green := c.green / 255, blue := c.blue / 255 }

theorem shares_checked : { c.checked with
    red := c.checked.red / 255, green := c.checked.green / 255, blue := c.checked.blue / 255 }
      = c.shares.checked := by
  simp only [checked, shares, div_literal _ 255]

/-- The largest and the smallest share are shares, too. -/
theorem Bounded.ends_mem (h : c.Bounded) :
    0 ≤ c.shares.smallest ∧ c.shares.smallest ≤ c.shares.largest ∧ c.shares.largest ≤ 1 := by
  obtain ⟨hr0, hr1⟩ := share_mem h.red
  obtain ⟨hg0, hg1⟩ := share_mem h.green
  obtain ⟨hb0, hb1⟩ := share_mem h.blue
  rw [largest, smallest, larger_eq, larger_eq, smaller_eq, smaller_eq]
  exact ⟨le_min (le_min hr0 hg0) hb0, (min_le_right _ _).trans (le_max_right _ _),
    max_le (max_le hr1 hg1) hb1⟩

/-- **No divisor is zero** for a color that is not a gray. -/
theorem Bounded.divisors_ne_zero (h : c.Bounded) (hne : c.shares.largest ≠ c.shares.smallest) :
    c.shares.largest - c.shares.smallest ≠ 0 ∧ c.shares.largest + c.shares.smallest ≠ 0 ∧
      2 - c.shares.largest - c.shares.smallest ≠ 0 := by
  obtain ⟨h0, hle, h1⟩ := h.ends_mem
  have hlt := lt_of_le_of_ne hle hne.symm
  refine ⟨sub_ne_zero_of_ne hne, ?_, ?_⟩ <;> intro hzero <;> linarith

/-- **Hue, saturation and lightness without a division by zero.** -/
theorem Bounded.toHsl_checked (h : c.Bounded) : c.checked.toHsl = c.toHsl.checked := by
  have hsame : Same c.shares.checked.largest c.shares.checked.smallest ↔
      Same c.shares.largest c.shares.smallest := by
    rw [largest_checked, smallest_checked, same_rational]
  by_cases hgray : Same c.shares.largest c.shares.smallest
  · rw [toHsl_eq_of_same shares_checked (hsame.mpr hgray), toHsl_eq_of_same rfl hgray,
      largest_checked, smallest_checked, add_rational, div_literal]
    rfl
  · obtain ⟨hrange, hdark, hlight⟩ := h.divisors_ne_zero (mt Exact.same_iff.mpr hgray)
    have hhalf : (1 : Checked) / 2 = rational (1 / 2) := div_literal 1 2
    have htwo : (2 : Checked) - rational c.shares.largest - rational c.shares.smallest =
        rational (2 - c.shares.largest - c.shares.smallest) := rfl
    rw [toHsl_eq_of_not_same shares_checked (mt hsame.mp hgray), toHsl_eq_of_not_same rfl hgray,
      largest_checked, smallest_checked, sub_rational, sextant_checked _ _ hrange, add_rational,
      div_literal, div_literal, div_rational hdark, htwo, div_rational hlight, hhalf]
    simp only [rational_lt, ← apply_ite rational]
    rfl

/-- **Hue, whiteness and blackness without a division by zero.** -/
theorem Bounded.toHwb_checked (h : c.Bounded) : c.checked.toHwb = c.toHwb.checked := by
  rw [toHwb, h.toHsl_checked, largest_checked, smallest_checked, div_literal, div_literal]
  rfl

end Rgba

/-! ### Whole numbers -/

/-- **Rounded, hue, saturation and lightness are in range.** -/
theorem Hsl.Regular.exists_whole {c : Hsl ℚ} (h : c.Regular) : ∃ n s l : ℕ,
    n ≤ 359 ∧ s ≤ 100 ∧ l ≤ 100 ∧ c.toWhole = ((n : ℤ), (s : ℤ), (l : ℤ)) := by
  have hpercent {x : ℚ} (hx : 0 ≤ x ∧ x ≤ 1) : ∃ m : ℕ, m ≤ 100 ∧ roundHalfAway (x * 100) = m := by
    obtain ⟨h0, h1⟩ := hx
    obtain ⟨hr0, hr1⟩ := roundHalfAway_mem (q := x * 100) (n := 100) (by linarith)
      (by push_cast; linarith)
    exact ⟨_, Int.toNat_le.mpr hr1, (Int.toNat_of_nonneg hr0).symm⟩
  obtain ⟨hr0, -⟩ := roundHalfAway_mem (n := 360) h.hue.1 (by exact_mod_cast h.hue.2.le)
  obtain ⟨n, hn⟩ := Int.eq_ofNat_of_zero_le hr0
  obtain ⟨s, hs, hsat⟩ := hpercent h.saturation
  obtain ⟨l, hl, hlight⟩ := hpercent h.lightness
  -- the remainder takes a hue of 360 back to 0
  have hwrap : n % 360 < 360 := Nat.mod_lt n (by norm_num)
  refine ⟨n % 360, s, l, Nat.le_of_lt_succ hwrap, hs, hl, Prod.ext ?_ (Prod.ext hsat hlight)⟩
  show (roundHalfAway c.hue).tmod 360 = ((n % 360 : ℕ) : ℤ)
  rw [hn]
  rfl

/-! ### In double precision -/

namespace Rgba

open Binary64

/-- **The numbers of an `hsl` text are in range,** whatever the alpha. -/
theorem exists_hslText {c : Color} (hr : Within 0 255 c.red) (hg : Within 0 255 c.green)
    (hb : Within 0 255 c.blue) : ∃ n s l : ℕ, n ≤ 359 ∧ s ≤ 100 ∧ l ≤ 100 ∧
      c.hslText = if c.isSolid then s!"hsl({n}, {s}%, {l}%)"
        else s!"hsla({n}, {s}%, {l}%, {alphaText c.alpha})" := by
  -- hue, saturation and lightness do not depend on the alpha
  have hrange : InRange { c with alpha := 1 } := ⟨hr, hg, hb, within_one⟩
  obtain ⟨n, s, l, hn, hs, hl, hw⟩ := hrange.exists_whole
  have hwhole : c.toHsl.toWhole = ((n : ℤ), (s : ℤ), (l : ℤ)) := hw
  refine ⟨n, s, l, Nat.le_of_lt_succ hn, hs, hl, ?_⟩
  unfold Color.hslText
  rw [hwhole, ← String.toList_inj]
  split_ifs
  all_goals
    simp only [String.toList_append, List.append_assoc]
    rfl

/-- **Hue, saturation and lightness stay in range.** Without rounding, no divisor is zero for a
color with channels from 0 to 255 that is not a gray, so that nothing is divided by zero for any.
The hue lies below a full turn, all other components are shares of one, and whiteness and blackness
together are no more than the whole. Rounded, the hue is a number of degrees up to 359, the others
are percent. The same holds in double precision for what is written and for whiteness and
blackness. -/
theorem components_in_range :
    (∀ c : Rgba ℚ, c.Bounded →
      (c.shares.largest ≠ c.shares.smallest →
        c.shares.largest - c.shares.smallest ≠ 0 ∧ c.shares.largest + c.shares.smallest ≠ 0 ∧
          2 - c.shares.largest - c.shares.smallest ≠ 0) ∧
      c.checked.toHsl = c.toHsl.checked ∧ c.checked.toHwb = c.toHwb.checked ∧
      c.toHsl.Regular ∧ c.toHwb.Regular ∧
      ∃ n s l : ℕ, n ≤ 359 ∧ s ≤ 100 ∧ l ≤ 100 ∧ c.toHsl.toWhole = ((n : ℤ), (s : ℤ), (l : ℤ))) ∧
    ∀ c : Color, Within 0 255 c.red → Within 0 255 c.green → Within 0 255 c.blue →
      (∃ n s l : ℕ, n ≤ 359 ∧ s ≤ 100 ∧ l ≤ 100 ∧
        c.hslText = if c.isSolid then s!"hsl({n}, {s}%, {l}%)"
          else s!"hsla({n}, {s}%, {l}%, {alphaText c.alpha})") ∧
      Within 0 1 c.toHwb.whiteness ∧ Within 0 1 c.toHwb.blackness ∧
        c.toHwb.whiteness + c.toHwb.blackness ≤ 1 := by
  refine ⟨fun c hc => ?_, fun c hr hg hb => ⟨exists_hslText hr hg hb, within_toHwb hr hg hb⟩⟩
  have hregular := hc.regular_toHsl
  exact ⟨hc.divisors_ne_zero, hc.toHsl_checked, hc.toHwb_checked, hregular, hc.regular_toHwb,
    hregular.exists_whole⟩

/-- A red with a little blue: its hue is rounded up to a full turn and shown as 0. -/
theorem components_in_range_red :
    (⟨255, 0, 1, 1⟩ : Rgba ℚ).checked.toHsl = (⟨6116 / 17, 1, 1 / 2⟩ : Hsl ℚ).checked ∧
      (⟨6116 / 17, 1, 1 / 2⟩ : Hsl ℚ).Regular ∧
      Color.hslText (solid ⟨255, 0, 1⟩) = "hsl(0, 100%, 50%)" ∧
      ∃ n s l : ℕ, n ≤ 359 ∧ s ≤ 100 ∧ l ≤ 100 ∧
        Color.hslText (solid ⟨255, 0, 1⟩) = s!"hsl({n}, {s}%, {l}%)" := by
  have hbounded : Rgba.Bounded ⟨255, 0, 1, 1⟩ := by
    refine ⟨?_, ?_, ?_⟩ <;> norm_num
  have hhsl : (⟨255, 0, 1, 1⟩ : Rgba ℚ).toHsl = ⟨6116 / 17, 1, 1 / 2⟩ := by decide +kernel
  have hrange := inRange_solid ⟨255, 0, 1⟩
  obtain ⟨-, hchecked, -, hregular, -, -⟩ := components_in_range.1 _ hbounded
  obtain ⟨⟨n, s, l, hn, hs, hl, htext⟩, -⟩ :=
    components_in_range.2 _ hrange.red hrange.green hrange.blue
  rw [hhsl] at hchecked hregular
  rw [if_pos (isSolid_solid _)] at htext
  exact ⟨hchecked, hregular, by decide +kernel, n, s, l, hn, hs, hl, htext⟩

end Rgba

end CssColor
