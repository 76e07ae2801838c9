import CssColor.Proofs.Color.Level

/-! # Colors with a channel at an end

What happens at the ends of a range has to be known exactly, not only nearly. Of the three channels
of a color one always has the level of the smallest (`Hsl.exists_level_eq_low`); and if the smallest
and the largest are equal, all three are (`Hsl.same_of_flat`). A light color with a channel of
exactly one is gray or fully saturated (`Rgba.saturation_of_full`), because its range and the
divisor of its saturation are the same double. -/

namespace CssColor

open Number Number.Scalar Number.Binary64

namespace Hsl

theorem value_two_thirds : (2 / 3 : Binary64).value = 2 * (1 / 3 : Binary64).value := by
  decide +kernel

theorem value_third_le : 3 * (1 / 3 : Binary64).value ≤ 1 := by decide +kernel

/-! ### The channel at the bottom -/

section

variable {low high t : Binary64}

theorem selected_eq_low {u : Binary64} (hu : u.isFinite = true)
    (h : (2 / 3 : Binary64).value ≤ u.value) :
    (if u < 1 / 6 then low + (high - low) * 6 * u
    else if u < 1 / 2 then high
    else if u < 2 / 3 then low + (high - low) * (2 / 3 - u) * 6
    else low) = low := by
  have hthird := near_two_thirds.bounds.1
  have hhalf := near_half.bounds.2
  have hsixth := near_sixth.bounds.2
  norm_num [roundoff] at hthird hhalf hsixth
  rw [if_neg, if_neg, if_neg] <;> rw [lt_iff hu, not_lt]
  · exact h
  · exact near_two_thirds.isFinite
  · linarith
  · exact near_half.isFinite
  · linarith
  · exact near_sixth.isFinite

theorem level_eq_low (ht : t.isFinite = true) (h0 : 0 ≤ t.value) (h1 : t.value ≤ 1)
    (h : (2 / 3 : Binary64).value ≤ t.value) : level low high t = low := by
  have hneg : ¬t < 0 := mt (lt_iff ht near_zero.isFinite).mp (not_lt.mpr h0)
  have hbig : ¬1 < t := by
    refine mt (lt_iff near_one.isFinite ht).mp (not_lt.mpr ?_)
    exact h1.trans value_one.ge
  unfold level
  dsimp only
  rw [if_neg hneg, if_neg hbig]
  exact selected_eq_low ht h

theorem level_eq_low_of_neg (ht : t.isFinite = true) (h0 : t.value < 0)
    (hu : Within (2 / 3 : Binary64).value 1 (t + 1)) : level low high t = low := by
  have hneg : t < 0 := (lt_iff ht near_zero.isFinite).mpr h0
  have hbig : ¬1 < t + 1 := by
    refine mt (lt_iff near_one.isFinite hu.isFinite).mp (not_lt.mpr ?_)
    exact hu.le_hi.trans value_one.ge
  unfold level
  dsimp only
  rw [if_pos hneg, if_neg hbig]
  exact selected_eq_low hu.isFinite hu.lo_le

/-- **One channel is at the bottom,** and it has exactly that level. -/
theorem exists_level_eq_low {turn : Binary64} (h : Within 0 1 turn) :
    level low high (turn + 1 / 3) = low ∨ level low high turn = low ∨
      level low high (turn - 1 / 3) = low := by
  have hthird : Within 0 1 (1 / 3 : Binary64) :=
    within_share (n := 3) (within_ofNat (n := 1) (by norm_num) (by norm_num) (by norm_num))
      (by norm_num) (by norm_num)
  have hthirds : Within 0 1 (2 / 3 : Binary64) :=
    within_share (n := 3) (within_ofNat (n := 2) (by norm_num) (by norm_num) (by norm_num))
      (by norm_num) (by norm_num)
  have htwo := value_two_thirds
  have hthree := value_third_le
  have h1 := h.lo_le
  have h2 := h.le_hi
  rcases le_or_gt (2 / 3 : Binary64).value turn.value with hhi | hhi
  · exact Or.inr (Or.inl (level_eq_low h.isFinite h1 h2 hhi))
  rcases le_or_gt (1 / 3 : Binary64).value turn.value with hlo | hlo
  · have hsum := within_add h.isFinite hthird.isFinite hthirds.isDouble isDouble_one
      (by linarith) (by linarith)
    exact Or.inl (level_eq_low hsum.isFinite (hthirds.lo_le.trans hsum.lo_le) hsum.le_hi hsum.lo_le)
  · have hdiff := within_sub h.isFinite hthird.isFinite hthird.isDouble.neg isDouble_zero
      (by linarith) (by linarith)
    have hneg : (turn - 1 / 3).value < 0 := by
      rw [(Rgba.value_difference h hthird).2, ← neg_pos, ← nearest_neg, neg_sub]
      exact nearest_sub_pos h.isDouble hthird.isDouble hlo
    have hsum := within_add hdiff.isFinite near_one.isFinite hthirds.isDouble isDouble_one
      (by rw [value_one]; linarith [hdiff.lo_le]) (by rw [value_one]; linarith [hdiff.le_hi])
    exact Or.inr (Or.inr (level_eq_low_of_neg hdiff.isFinite hneg hsum))

/-! ### Levels without a range -/

theorem within_zero_mul {x y : Binary64} (hx : Within 0 0 x) (hy : y.isFinite = true) :
    Within 0 0 (x * y) := by
  have h0 : x.value = 0 := hx.value_eq
  refine within_mul hx.isFinite hy isDouble_zero isDouble_zero ?_ ?_ <;> rw [h0, zero_mul]

/-- Where the largest and the smallest channel are equal, all are. -/
theorem within_level_of_flat {v : ℚ} (hl : Within v v low) (hh : Within v v high)
    (ht : Small 8 t) : Within v v (level low high t) := by
  have hlv : low.value = v := hl.value_eq
  have hhv : high.value = v := hh.value_eq
  have hzero : Within 0 0 (high - low) := by
    refine within_sub hh.isFinite hl.isFinite isDouble_zero isDouble_zero ?_ ?_ <;>
      rw [hlv, hhv, sub_self]
  have hsum : ∀ {z : Binary64}, Within 0 0 z → Within v v (low + z) := by
    intro z hz
    have hzv : z.value = 0 := hz.value_eq
    have hd : IsDouble v := hlv ▸ hl.isDouble
    refine within_add hl.isFinite hz.isFinite hd hd ?_ ?_ <;> rw [hlv, hzv, add_zero]
  have hu := small_turn ht
  unfold level
  dsimp only
  generalize (if 1 < (if t < 0 then t + 1 else t) then (if t < 0 then t + 1 else t) - 1
      else if t < 0 then t + 1 else t) = u at hu ⊢
  split_ifs
  · exact hsum (within_zero_mul (within_zero_mul hzero near_six.isFinite) hu.isFinite)
  · exact hh
  · refine hsum (within_zero_mul (within_zero_mul hzero ?_) near_six.isFinite)
    have hthirds : Small 2 (2 / 3 : Binary64) :=
      (small_ofNat (n := 2) (by norm_num)).div_ofNat (by norm_num) (by norm_num) (by norm_num)
    exact (hthirds.sub hu (by norm_num)).isFinite
  · exact hl

end

/-! ### Channels of exactly zero or one -/

/-- A level of exactly zero or one is found again in a channel. -/
theorem within_channel_of_end {v : ℕ} (hv : v ≤ 1) {x : Binary64} (h : Within v v x) :
    Within v v (clamp 0 255 (x * 255) / 255) := by
  have hxv : x.value = v := h.value_eq
  have hv1 : (v : ℚ) ≤ 1 := by exact_mod_cast hv
  have hv0 : (0 : ℚ) ≤ v := v.cast_nonneg
  have h255 : (255 : Binary64).value = 255 := value_literal (by norm_num)
  have hfinite : (255 : Binary64).isFinite = true := isFinite_ofNat (by norm_num)
  have hd : IsDouble (v * 255) := by exact_mod_cast isDouble_natCast (n := v * 255) (by omega)
  have hm : Within (v * 255) (v * 255) (x * 255) := by
    refine within_mul h.isFinite hfinite hd hd ?_ ?_ <;> rw [hxv, h255]
  have hmv : (x * 255).value = v * 255 := hm.value_eq
  rw [Rgba.clampChannel_eq_self (hm.weaken (by linarith) (by linarith))]
  refine within_div hm.isFinite hfinite (by rw [h255]; norm_num) (isDouble_natCast (by omega))
    (isDouble_natCast (by omega)) ?_ ?_ <;>
    rw [hmv, h255, mul_div_cancel_right₀ _ (by norm_num)]

/-- Without a range between its channels a color is gray. -/
theorem same_of_flat {c : Hsl Binary64} {s l : Binary64} {v : ℕ} (hv : v ≤ 1)
    (hs : clampUnit c.saturation = s) (hl : clampUnit c.lightness = l) (h : ¬Same s 0)
    (ht : Within 0 1 (wrapDegrees c.hue / 360)) (hbottom : Within v v (bottom s l))
    (htop : Within v v (top s l)) (a : Binary64) :
    Same (c.toRgba a).unit.largest (c.toRgba a).unit.smallest := by
  rw [toRgba_of_colored hs hl rfl h]
  obtain ⟨h1, h2, h3⟩ := small_half_circle ht
  have hchannel : ∀ {t : Binary64}, Small 8 t →
      Within v v (clamp 0 255 (level (bottom s l) (top s l) t * 255) / 255) :=
    fun hsmall => within_channel_of_end hv (within_level_of_flat hbottom htop hsmall)
  have hlargest := Rgba.within_largest (c := (Rgba.clamped _ _ _ a).unit) (hchannel h1)
    (hchannel h2) (hchannel h3)
  have hsmallest := Rgba.within_smallest (c := (Rgba.clamped _ _ _ a).unit) (hchannel h1)
    (hchannel h2) (hchannel h3)
  rw [Rgba.same_iff hlargest.isFinite hsmallest.isFinite]
  exact hlargest.value_eq.trans hsmallest.value_eq.symm

/-- In a color whose smallest channel should be one, some channel is. -/
theorem largest_of_bottom_one {c : Hsl Binary64} {s l : Binary64} {a : Binary64}
    (hs : clampUnit c.saturation = s) (hl : clampUnit c.lightness = l) (h : ¬Same s 0)
    (ht : Within 0 1 (wrapDegrees c.hue / 360)) (hbottom : Within 1 1 (bottom s l))
    (hrange : (c.toRgba a).InRange) : (c.toRgba a).unit.largest.value = 1 := by
  obtain ⟨hr, hg, hb⟩ := hrange.unit
  have hfull : ∀ {t : Binary64}, level (bottom s l) (top s l) t = bottom s l →
      (clamp 0 255 (level (bottom s l) (top s l) t * 255) / 255).value = 1 := by
    intro t hlevel
    rw [hlevel]
    have hw := within_channel_of_end (v := 1) le_rfl (by exact_mod_cast hbottom)
    rw [Nat.cast_one] at hw
    exact hw.value_eq
  have hsome : (c.toRgba a).unit.red.value = 1 ∨ (c.toRgba a).unit.green.value = 1 ∨
      (c.toRgba a).unit.blue.value = 1 := by
    rw [toRgba_of_colored hs hl rfl h]
    exact (exists_level_eq_low ht).imp hfull (Or.imp hfull hfull)
  have h1 := hr.le_hi
  have h2 := hg.le_hi
  have h3 := hb.le_hi
  rw [Rgba.value_largest hr.isFinite hg.isFinite hb.isFinite]
  grind

end Hsl

namespace Rgba

open Hsl

/-! ### Colors with a full channel -/

/-- A light color with a full channel is fully saturated, if it is not gray. -/
theorem saturation_of_full {c : Color} (h : c.InRange) (hmax : c.unit.largest.value = 1)
    (hl : 1 / 2 < c.toHsl.lightness) :
    c.toHsl.saturation.value = 0 ∨ c.toHsl.saturation.value = 1 := by
  obtain ⟨hr, hg, hb⟩ := h.unit
  have hh := within_largest hr hg hb
  have hlow := within_smallest hr hg hb
  by_cases hgray : Same c.unit.largest c.unit.smallest
  · rw [toHsl_of_same hgray]
    exact Or.inl rfl
  · rw [toHsl_of_colored hgray] at hl ⊢
    dsimp only at hl ⊢
    rw [if_pos hl]
    rw [same_iff hh.isFinite hlow.isFinite, hmax] at hgray
    have hlt : c.unit.smallest.value < c.unit.largest.value := by
      rw [hmax]
      exact lt_of_le_of_ne hlow.le_hi (Ne.symm hgray)
    have hpos := value_range_pos hh hlow hlt
    obtain ⟨hfinite, hrange⟩ := value_difference hh hlow
    have hv2 : (2 : Binary64).value = 2 := value_literal (by norm_num)
    have htwo : Within 1 1 (2 - c.unit.largest) := by
      refine within_sub near_two.isFinite hh.isFinite isDouble_one isDouble_one ?_ ?_ <;>
        rw [hv2, hmax] <;> norm_num
    have htwov : (2 - c.unit.largest).value = 1 := htwo.value_eq
    -- both parts of the quotient are what rounding makes of one less the smallest channel
    obtain ⟨hfinite', hrange'⟩ := value_difference (htwo.weaken zero_le_one le_rfl) hlow
    rw [htwov, ← hmax, ← hrange] at hrange'
    have hdiv := within_div (a := 1) (b := 1) hfinite hfinite' (hrange' ▸ hpos.ne') isDouble_one
      isDouble_one (by rw [hrange', div_self hpos.ne']) (by rw [hrange', div_self hpos.ne'])
    exact Or.inr hdiv.value_eq

/-- A color of 100 percent is a light one. -/
theorem half_lt_lightness {c : Color} (h : c.InRange) (hl : c.toHsl.toWhole.2.2 = 100) :
    1 / 2 < c.toHsl.lightness := by
  obtain ⟨-, -, hw⟩ := h.toHsl
  by_contra hdark
  rw [lt_iff near_half.isFinite hw.isFinite, not_lt, value_half] at hdark
  have hm := Within.mul_ofNat (q := 1 / 2) ⟨hw.isFinite, hw.isDouble, hw.lo_le, hdark⟩ (n := 100)
    (by norm_num) (by norm_num; exact_mod_cast isDouble_natCast (n := 50) (by norm_num))
  have hle := hm.toIntNearest_mem.2
  rw [show (1 / 2 * ((100 : ℕ) : ℚ)) = ((50 : ℤ) : ℚ) by norm_num, roundHalfAway_intCast] at hle
  have h100 : Scalar.toIntNearest (c.toHsl.lightness * ofNat 100) = 100 := hl
  omega

end Rgba

end CssColor
