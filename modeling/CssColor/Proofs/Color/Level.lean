import CssColor.Proofs.Color.Circle
import CssColor.Proofs.Color.Range
import CssColor.Proofs.Number.Near

/-! # From hue, saturation and lightness in double precision

A color with a hue has a smallest and a largest channel that the saturation and the lightness tell
(`Hsl.bottom`, `Hsl.top`), and each channel has a level between the two that its place on the circle
tells (`Hsl.level`). Every step of this is near the exact one (`Hsl.near_level`): where a comparison
of doubles selects another formula than the exact one would, both formulas agree but for a small
error, because the course of a channel has no jumps. The channels of the color are near those of its
position in the end (`Rgba.nearCircle_toRgba`). -/

namespace CssColor

open Number Number.Scalar Number.Binary64

namespace Hsl

/-! ### The level of a channel -/

section

variable {x : ℚ} {t : Binary64} (ht : Near 2 (4 * roundoff) (x / 6) t) (h1 : -2 ≤ x) (h2 : x ≤ 8)

include ht h1 h2

/-- A turn below zero is completed. -/
theorem near_turn_up : ∃ y, ramp y = ramp x ∧ -1 / 10 ^ 10 ≤ y ∧ y ≤ 8 ∧
    Near 3 (5 * roundoff) (y / 6) (if t < 0 then t + 1 else t) := by
  split_ifs with hneg
  · have hx := ht.lt_of_lt near_zero hneg
    norm_num [roundoff] at hx
    refine ⟨x + 6, ramp_add_six (by linarith) (by linarith), by linarith, by linarith, ?_⟩
    rw [add_div, div_self (by norm_num)]
    exact (ht.add near_one (by norm_num [roundoff])).weaken (by norm_num) (by norm_num [roundoff])
  · have hx := ht.le_of_not_lt near_zero hneg
    norm_num [roundoff] at hx
    exact ⟨x, rfl, by linarith, h2, ht.weaken (by norm_num) (by norm_num [roundoff])⟩

/-- The reduction of a turn keeps the level of its channel. -/
theorem near_turn : ∃ y, ramp y = ramp x ∧ -1 / 10 ^ 10 ≤ y ∧ y ≤ 6 + 1 / 10 ^ 10 ∧
    Near 4 (6 * roundoff) (y / 6)
      (if 1 < (if t < 0 then t + 1 else t) then (if t < 0 then t + 1 else t) - 1
        else if t < 0 then t + 1 else t) := by
  obtain ⟨y, hy, hy1, hy2, hu⟩ := near_turn_up ht h1 h2
  generalize (if t < 0 then t + 1 else t) = u at hu ⊢
  split_ifs with hbig
  · have hx := near_one.lt_of_lt hu hbig
    norm_num [roundoff] at hx
    refine ⟨y - 6, ?_, by linarith, by linarith, ?_⟩
    · rw [← hy, ← ramp_add_six (x := y - 6) (by linarith) (by linarith), sub_add_cancel]
    · rw [sub_div, div_self (by norm_num)]
      exact (hu.sub near_one (by norm_num [roundoff])).weaken (by norm_num) (by norm_num [roundoff])
  · have hx := near_one.le_of_not_lt hu hbig
    norm_num [roundoff] at hx
    exact ⟨y, hy, hy1, by linarith, hu.weaken (by norm_num) (by norm_num [roundoff])⟩

end

section

variable {w d : ℚ} {low high : Binary64} (hw : 0 ≤ w) (hd : 0 ≤ d) (hwd : w + d ≤ 1)
  (hl : Near 1 (16 * roundoff) w low) (hh : Near 1 (16 * roundoff) (w + d) high)

include hl hh

/-- The level that the tests select is near the one at the position `p`, for a `p` that is near the
course. -/
theorem near_selected {y : ℚ} {u : Binary64} (hu : Near 4 (6 * roundoff) (y / 6) u)
    (h1 : -1 / 10 ^ 10 ≤ y) (h2 : y ≤ 6 + 1 / 10 ^ 10) : ∃ a p, |ramp y - p| ≤ 1 / 10 ^ 10 ∧
      Near a (1400 * roundoff) (w + d * p)
        (if u < 1 / 6 then low + (high - low) * 6 * u
        else if u < 1 / 2 then high
        else if u < 2 / 3 then low + (high - low) * (2 / 3 - u) * 6
        else low) := by
  have hrange : Near 2 (33 * roundoff) d (high - low) := by
    have h := hh.sub hl (by norm_num [roundoff])
    rw [add_sub_cancel_left] at h
    exact h.weaken (by norm_num) (by norm_num [roundoff])
  split_ifs with hrising hhigh hfalling
  · have hx := hu.lt_of_lt near_sixth hrising
    norm_num [roundoff] at hx
    have h := hl.add ((hrange.mul near_six (by norm_num [roundoff])).mul hu
      (by norm_num [roundoff])) (by norm_num [roundoff])
    rw [show w + d * 6 * (y / 6) = w + d * y by ring] at h
    refine ⟨_, y, abs_ramp_sub_rising ?_ ?_ ?_ ?_, h.weaken le_rfl (by norm_num [roundoff])⟩ <;>
      linarith
  · have hx := hu.le_of_not_lt near_sixth hrising
    have hx' := hu.lt_of_lt near_half hhigh
    norm_num [roundoff] at hx hx'
    rw [← mul_one d] at hh
    refine ⟨_, 1, abs_ramp_sub_high ?_ ?_ ?_ ?_, hh.weaken le_rfl (by norm_num [roundoff])⟩ <;>
      linarith
  · have hx := hu.le_of_not_lt near_half hhigh
    have hx' := hu.lt_of_lt near_two_thirds hfalling
    norm_num [roundoff] at hx hx'
    have h := hl.add ((hrange.mul (near_two_thirds.sub hu (by norm_num [roundoff]))
      (by norm_num [roundoff])).mul near_six (by norm_num [roundoff])) (by norm_num [roundoff])
    rw [show w + d * (2 / 3 - y / 6) * 6 = w + d * (4 - y) by ring] at h
    refine ⟨_, 4 - y, abs_ramp_sub_falling ?_ ?_ ?_ ?_,
      h.weaken le_rfl (by norm_num [roundoff])⟩ <;> linarith
  · have hx := hu.le_of_not_lt near_two_thirds hfalling
    norm_num [roundoff] at hx
    rw [← add_zero w, ← mul_zero d] at hl
    refine ⟨_, 0, ?_, hl.weaken le_rfl (by norm_num [roundoff])⟩
    rw [sub_zero]
    refine abs_ramp_low ?_ ?_ ?_ ?_ <;> linarith

include hw hd hwd

/-- The level of a channel is near the one its course has there. -/
theorem near_level {x : ℚ} {t : Binary64} (ht : Near 2 (4 * roundoff) (x / 6) t) (h1 : -2 ≤ x)
    (h2 : x ≤ 8) : Near 1 (1500 * roundoff) (w + d * ramp x) (level low high t) := by
  obtain ⟨y, hy, hy1, hy2, hu⟩ := near_turn ht h1 h2
  obtain ⟨a, p, hp, hz⟩ := near_selected hl hh hu hy1 hy2
  have hr0 := mul_nonneg hd (ramp_nonneg x)
  have hr1 := mul_le_of_le_one_right hd (ramp_le_one x)
  refine (hz.shift (b := 1) (f := 1 / 10 ^ 10) (abs_le.mpr ⟨by linarith, by linarith⟩)
    ?_).weaken le_rfl (by norm_num [roundoff])
  rw [← hy, add_sub_add_left_eq_sub, ← mul_sub, abs_mul, abs_sub_comm, abs_of_nonneg hd]
  exact (mul_le_of_le_one_left (abs_nonneg _) (by linarith)).trans hp

end

/-! ### The smallest and the largest channel -/

/-- The largest channel of a color with a hue. -/
def top (s l : Binary64) : Binary64 := if l < 1 / 2 then l * (1 + s) else l + s - l * s

/-- The smallest channel of a color with a hue. -/
def bottom (s l : Binary64) : Binary64 := 2 * l - top s l

section

variable {s l : ℚ} (hs0 : 0 ≤ s) (hs1 : s ≤ 1)

include hs0 hs1

/-- In the middle the formulas for dark and for light colors agree. -/
theorem abs_dark_sub_le (h : l ≤ 1 / 2 + 2 * roundoff) :
    |l * (1 + s) - (l + spread s l / 2)| ≤ 4 * roundoff := by
  rcases le_total l (1 / 2) with hl | hl
  · rw [spread_of_dark hl, show l * (1 + s) - (l + s * (2 * l) / 2) = 0 by ring, abs_zero]
    norm_num [roundoff]
  · rw [spread_of_light hl, show l * (1 + s) - (l + s * (2 - 2 * l) / 2) = s * (2 * l - 1) by ring,
      abs_of_nonneg (mul_nonneg hs0 (by linarith))]
    exact (mul_le_of_le_one_left (by linarith) hs1).trans (by linarith)

theorem abs_light_sub_le (h : 1 / 2 - 2 * roundoff ≤ l) :
    |l + s - l * s - (l + spread s l / 2)| ≤ 4 * roundoff := by
  rcases le_total l (1 / 2) with hl | hl
  · rw [spread_of_dark hl, show l + s - l * s - (l + s * (2 * l) / 2) = s * (1 - 2 * l) by ring,
      abs_of_nonneg (mul_nonneg hs0 (by linarith))]
    exact (mul_le_of_le_one_left (by linarith) hs1).trans (by linarith)
  · rw [spread_of_light hl, show l + s - l * s - (l + s * (2 - 2 * l) / 2) = 0 by ring, abs_zero]
    norm_num [roundoff]

variable (hl0 : 0 ≤ l) (hl1 : l ≤ 1) {x y : Binary64} (hx : Near 1 roundoff s x)
  (hy : Near 1 roundoff l y)

include hl0 hl1 hx hy

theorem near_top : Near 1 (12 * roundoff) (l + spread s l / 2) (top x y) := by
  have h0 := spread_nonneg hs0 hl0 hl1
  have h1 := (spread_le hs1 hl0 hl1).2
  have hsize : |l + spread s l / 2| ≤ 1 := abs_le.mpr ⟨by linarith, by linarith⟩
  unfold top
  split_ifs with hdark
  · have hle := hy.lt_of_lt near_half hdark
    have h := hy.mul (near_one.add hx (by norm_num [roundoff])) (by norm_num [roundoff])
    exact (h.shift hsize (abs_dark_sub_le hs0 hs1 (by linarith))).weaken le_rfl
      (by norm_num [roundoff])
  · have hle := hy.le_of_not_lt near_half hdark
    have h := (hy.add hx (by norm_num [roundoff])).sub (hy.mul hx (by norm_num [roundoff]))
      (by norm_num [roundoff])
    exact (h.shift hsize (abs_light_sub_le hs0 hs1 (by linarith))).weaken le_rfl
      (by norm_num [roundoff])

theorem near_bottom : Near 1 (16 * roundoff) (l - spread s l / 2) (bottom x y) := by
  have h0 := spread_nonneg hs0 hl0 hl1
  have h1 := (spread_le hs1 hl0 hl1).1
  have hsize : |l - spread s l / 2| ≤ 1 := abs_le.mpr ⟨by linarith, by linarith⟩
  have h := (near_two.mul hy (by norm_num [roundoff])).sub (near_top hs0 hs1 hl0 hl1 hx hy)
    (by norm_num [roundoff])
  rw [show 2 * l - (l + spread s l / 2) = l - spread s l / 2 by ring] at h
  exact ⟨h.isFinite, hsize, h.error_le.trans (by norm_num [roundoff])⟩

end

/-! ### The channels of a color -/

section

variable {v : ℚ} {x : Binary64}

theorem near_clampChannel {e : ℚ} (h : Near 255 e v x) (hv : 0 ≤ v) :
    Near 255 e v (clamp 0 255 x) := by
  have hv' := (abs_le.mp h.size_le).2
  have he := abs_le.mp h.error_le
  have h0 : (0 : Binary64).value = 0 := by exact_mod_cast value_ofNat (n := 0) (by norm_num)
  have h255 : (255 : Binary64).value = 255 := value_literal (by norm_num)
  have hf0 : (0 : Binary64).isFinite = true := isFinite_ofNat (by norm_num)
  have hf255 : (255 : Binary64).isFinite = true := isFinite_ofNat (by norm_num)
  unfold clamp
  split_ifs with hlow hhigh
  · rw [lt_iff h.isFinite hf0, h0] at hlow
    exact ⟨hf0, h.size_le, by rw [h0]; exact abs_le.mpr ⟨by linarith, by linarith⟩⟩
  · rw [lt_iff hf255 h.isFinite, h255] at hhigh
    exact ⟨hf255, h.size_le, by rw [h255]; exact abs_le.mpr ⟨by linarith, by linarith⟩⟩
  · exact h

/-- A level is found again in a channel of 255 steps. -/
theorem near_channel (h : Near 1 (1500 * roundoff) v x) (hv : 0 ≤ v) :
    Near 1 (1502 * roundoff) v (clamp 0 255 (x * 255) / 255) := by
  have hm := (h.mul_ofNat (n := 255) (by norm_num) (by norm_num [roundoff])).weaken (b := 255)
    (by norm_num) le_rfl
  have hd := (near_clampChannel hm (by positivity)).div_ofNat (n := 255) (by norm_num) (by norm_num)
    (by norm_num [roundoff])
  rw [mul_div_assoc, div_self (by norm_num), mul_one] at hd
  exact hd.weaken (by norm_num) (by norm_num [roundoff])

end

theorem not_same_zero_of_near {s : ℚ} {x : Binary64} (hs : 1 / 100 ≤ s) (hx : Near 1 roundoff s x) :
    ¬Same x 0 := by
  rw [Rgba.same_iff hx.isFinite near_zero.isFinite]
  have h1 := hx.bounds.1
  have h2 := near_zero.bounds.2
  norm_num [roundoff] at h1 h2
  linarith

theorem toRgba_of_colored {c : Hsl Binary64} {s l turn : Binary64} (hs : clampUnit c.saturation = s)
    (hl : clampUnit c.lightness = l) (ht : wrapDegrees c.hue / 360 = turn) (h : ¬Same s 0)
    (a : Binary64) :
    c.toRgba a = Rgba.clamped (level (bottom s l) (top s l) (turn + 1 / 3) * 255)
      (level (bottom s l) (top s l) turn * 255) (level (bottom s l) (top s l) (turn - 1 / 3) * 255)
      a := by
  subst hs hl ht
  unfold toRgba
  dsimp only
  rw [if_neg h]
  rfl

end Hsl

namespace Rgba

open Hsl

/-- Channels near those at the position `x` of the circle, for a smallest one of `w` and a largest
one of `w + d`. -/
structure NearCircle (w d x : ℚ) (c : Color) : Prop where
  red : Near 1 (1502 * roundoff) (w + d * ramp (x + 2)) c.red
  green : Near 1 (1502 * roundoff) (w + d * ramp x) c.green
  blue : Near 1 (1502 * roundoff) (w + d * ramp (x - 2)) c.blue

/-- The color of a hue, saturation and lightness has channels near those of its position. -/
theorem nearCircle_toRgba {c : Hsl Binary64} {s l x : ℚ} (hs0 : 1 / 100 ≤ s) (hs1 : s ≤ 1)
    (hl0 : 0 ≤ l) (hl1 : l ≤ 1) (h0 : 0 ≤ x) (h6 : x ≤ 6)
    (hs : Near 1 roundoff s (clampUnit c.saturation))
    (hl : Near 1 roundoff l (clampUnit c.lightness))
    (ht : Near 1 (2 * roundoff) (x / 6) (wrapDegrees c.hue / 360)) (a : Binary64) :
    NearCircle (l - spread s l / 2) (spread s l) x (c.toRgba a).unit := by
  have hs0' : 0 ≤ s := by linarith
  have hd := spread_nonneg hs0' hl0 hl1
  obtain ⟨hle1, hle2⟩ := spread_le hs1 hl0 hl1
  have htop := near_top hs0' hs1 hl0 hl1 hs hl
  rw [show l + spread s l / 2 = l - spread s l / 2 + spread s l by ring] at htop
  rw [toRgba_of_colored rfl rfl rfl (not_same_zero_of_near hs0 hs)]
  have hchannel : ∀ {y : ℚ} {t : Binary64}, -2 ≤ y → y ≤ 8 → Near 2 (4 * roundoff) (y / 6) t →
      Near 1 (1502 * roundoff) (l - spread s l / 2 + spread s l * ramp y)
        (clamp 0 255 (level (bottom (clampUnit c.saturation) (clampUnit c.lightness))
          (top (clampUnit c.saturation) (clampUnit c.lightness)) t * 255) / 255) := by
    intro y t h1 h2 hy
    have hbottom := near_bottom hs0' hs1 hl0 hl1 hs hl
    refine near_channel (near_level (by linarith) hd (by linarith) hbottom
      (htop.weaken le_rfl (by norm_num [roundoff])) hy h1 h2) ?_
    exact add_nonneg (by linarith) (mul_nonneg hd (ramp_nonneg y))
  refine ⟨hchannel (by linarith) (by linarith) ?_, hchannel (by linarith) (by linarith) ?_,
    hchannel (by linarith) (by linarith) ?_⟩
  · rw [show (x + 2) / 6 = x / 6 + 1 / 3 by ring]
    exact (ht.add near_third (by norm_num [roundoff])).weaken (by norm_num) (by norm_num [roundoff])
  · exact ht.weaken (by norm_num) (by norm_num [roundoff])
  · rw [show (x - 2) / 6 = x / 6 - 1 / 3 by ring]
    exact (ht.sub near_third (by norm_num [roundoff])).weaken (by norm_num) (by norm_num [roundoff])

end Rgba

end CssColor
