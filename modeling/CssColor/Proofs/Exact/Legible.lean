import CssColor.Color.Legible
import CssColor.Proofs.Exact.Rgba
import Mathlib.Tactic.FieldSimp

/-! # The limit of legibility without rounding

The bisection for the nearest legible shade keeps an interval of shares of the target whose lower
end is not legible and whose upper end is (`Brackets`). A halving keeps this and halves the width
(`Brackets.halve`), so after all halvings the ends are `2 ^ (-24)` apart (`Brackets.bisect`). It
holds at the start: the share nothing is the color itself, with a contrast ratio of 1, and the share
of the whole is the target. Where the target is not legible either, the shade is the target at every
position, and so it is at the end of the way (`legible_brackets`).

Nothing is asked of the luminance but that it is not negative. -/

namespace CssColor

open Number Number.Scalar Number.Exact

variable {luminance : Rgba ℚ → ℚ} {c target : Rgba ℚ}

/-! ### Contrast ratios -/

theorem contrastRatio_self (h : 0 ≤ luminance c) : contrastRatio luminance c c = 1 := by
  have hratio : contrastRatio luminance c c
      = if luminance c < luminance c then (luminance c + 5 / 100) / (luminance c + 5 / 100)
        else (luminance c + 5 / 100) / (luminance c + 5 / 100) := rfl
  rw [hratio, ite_self, div_self (by positivity)]

theorem isLegible_iff {share : ℚ} : IsLegible luminance c target share ↔
    9 / 2 ≤ contrastRatio luminance c (c.mix target share) := Iff.rfl

/-! ### Halving -/

/-- An interval of shares of the target, of a given width, from a share that is not legible to one
that is. -/
structure Brackets (luminance : Rgba ℚ → ℚ) (c target : Rgba ℚ) (width : ℚ) (ends : ℚ × ℚ) :
    Prop where
  nonneg : 0 ≤ ends.1
  le_one : ends.2 ≤ 1
  width_eq : ends.2 - ends.1 = width
  illegible : ¬IsLegible luminance c target ends.1
  legible : IsLegible luminance c target ends.2

/-- One half of an interval: the lower one if its upper end is legible. -/
def halved (luminance : Rgba ℚ → ℚ) (c target : Rgba ℚ) (ends : ℚ × ℚ) : ℚ × ℚ :=
  let mid := (ends.1 + ends.2) / 2
  if IsLegible luminance c target mid then (ends.1, mid) else (mid, ends.2)

theorem bisect_succ (n : ℕ) (ends : ℚ × ℚ) : bisect luminance c target (n + 1) ends
    = bisect luminance c target n (halved luminance c target ends) := rfl

variable {width : ℚ} {ends : ℚ × ℚ}

theorem Brackets.halve (h : Brackets luminance c target width ends) (hw : 0 ≤ width) :
    Brackets luminance c target (width / 2) (halved luminance c target ends) := by
  obtain ⟨h0, h1, hwidth, hlo, hhi⟩ := h
  unfold halved
  dsimp only
  split_ifs with hmid
  · refine ⟨h0, ?_, ?_, hlo, hmid⟩ <;> dsimp only <;> linarith
  · refine ⟨?_, h1, ?_, hmid, hhi⟩ <;> dsimp only <;> linarith

/-- **Halving again and again** keeps the limit of legibility between the ends. -/
theorem Brackets.bisect (n : ℕ) (h : Brackets luminance c target width ends) (hw : 0 ≤ width) :
    Brackets luminance c target (width / 2 ^ n) (bisect luminance c target n ends) := by
  induction n generalizing width ends with
  | zero =>
    rw [pow_zero, div_one]
    exact h
  | succ n ih =>
    have hstep := ih (h.halve hw) (by positivity)
    rw [div_div, ← pow_succ'] at hstep
    rw [bisect_succ]
    exact hstep

/-! ### The nearest legible shade -/

theorem regular_farEnd (luminance : Rgba ℚ → ℚ) (c : Rgba ℚ) : (farEnd luminance c).Regular := by
  unfold farEnd
  split_ifs
  · exact (Rgba.regular_solid ⟨255, 255, 255⟩).withAlpha c.alpha
  · exact (Rgba.regular_solid ⟨0, 0, 0⟩).withAlpha c.alpha

/-- The color itself is not legible on it, and the target is. -/
theorem brackets_start (hl : 0 ≤ luminance c) (hc : c.Regular) (ht : target.Regular)
    (h : 9 / 2 < contrastRatio luminance c target) :
    Brackets luminance c target 1 (0, 1) := by
  refine ⟨le_rfl, le_rfl, sub_zero 1, ?_, ?_⟩
  · rw [isLegible_iff, hc.mix_zero, contrastRatio_self hl]
    norm_num
  · rw [isLegible_iff, ht.mix_of_one_le c le_rfl]
    exact h.le

theorem nearestLegible_of_lt (h : 9 / 2 < contrastRatio luminance c (farEnd luminance c)) :
    nearestLegible luminance c
      = c.mix (farEnd luminance c) (bisect luminance c (farEnd luminance c) bisectSteps (0, 1)).2 :=
  if_pos h

theorem nearestLegible_of_le (h : contrastRatio luminance c (farEnd luminance c) ≤ 9 / 2) :
    nearestLegible luminance c = farEnd luminance c :=
  if_neg (not_lt.mpr h)

/-- **The limit of legibility is bracketed.** If the far end stands out by a contrast ratio of more
than 4.5, the bisection ends with two shares of it that are `2 ^ (-24)` apart, the greater one
legible on the color and the smaller one not, and the legible shade at the position zero is the one
of the greater share. If the far end does not stand out, it is the legible shade at every position,
and it is so from the position one on in any case. -/
theorem legible_brackets (hl : ∀ d, 0 ≤ luminance d) (hc : c.Regular) :
    (9 / 2 < contrastRatio luminance c (farEnd luminance c) →
      ∃ lo hi, bisect luminance c (farEnd luminance c) bisectSteps (0, 1) = (lo, hi) ∧
        0 ≤ lo ∧ hi ≤ 1 ∧ hi - lo = 1 / 2 ^ 24 ∧
        9 / 2 ≤ contrastRatio luminance c (c.mix (farEnd luminance c) hi) ∧
        contrastRatio luminance c (c.mix (farEnd luminance c) lo) < 9 / 2 ∧
        legible luminance c 0 = c.mix (farEnd luminance c) hi) ∧
    (contrastRatio luminance c (farEnd luminance c) ≤ 9 / 2 →
      ∀ p, legible luminance c p = farEnd luminance c) ∧
    ∀ p, 1 ≤ p → legible luminance c p = farEnd luminance c := by
  have hfar : (farEnd luminance c).Regular := regular_farEnd luminance c
  refine ⟨fun h => ?_, fun h p => ?_, fun p hp => hfar.mix_of_one_le _ hp⟩
  · have hends := (brackets_start (hl c) hc hfar h).bisect 24 zero_le_one
    have hnear : nearestLegible luminance c = c.mix (farEnd luminance c) _ := nearestLegible_of_lt h
    have hsteps : bisectSteps = 24 := rfl
    rw [hsteps] at hnear ⊢
    generalize bisect luminance c (farEnd luminance c) 24 (0, 1) = ends at hends hnear ⊢
    have hregular : (nearestLegible luminance c).Regular := hnear ▸ Rgba.regular_mix _ _ _
    refine ⟨ends.1, ends.2, rfl, hends.nonneg, hends.le_one, hends.width_eq, hends.legible,
      not_le.mp hends.illegible, ?_⟩
    rw [legible, hregular.mix_zero, hnear]
  · rw [legible, nearestLegible_of_le h]
    exact hfar.mix_self p

/-- A luminance that adds up the channels by their weights as they are. -/
def plainLuminance (d : Rgba ℚ) : ℚ :=
  max 0 ((2126 * d.red + 7152 * d.green + 722 * d.blue) / 2550000)

/-- A dark blue, and a gray on which white does not stand out. -/
theorem legible_brackets_two :
    (∃ lo hi : ℚ, hi - lo = 1 / 2 ^ 24 ∧
      9 / 2 ≤ contrastRatio plainLuminance ⟨20, 40, 80, 1⟩ (legible plainLuminance ⟨20, 40, 80, 1⟩ 0) ∧
      legible plainLuminance ⟨20, 40, 80, 1⟩ 0 = Rgba.mix ⟨20, 40, 80, 1⟩ Rgba.white hi ∧
      contrastRatio plainLuminance ⟨20, 40, 80, 1⟩ (Rgba.mix ⟨20, 40, 80, 1⟩ Rgba.white lo) < 9 / 2) ∧
    legible plainLuminance ⟨119, 119, 119, 1⟩ 0 = Rgba.white := by
  have hl (d : Rgba ℚ) : 0 ≤ plainLuminance d := le_max_left _ _
  have hblue : Rgba.Regular ⟨20, 40, 80, 1⟩ := by
    refine ⟨⟨?_, ?_, ?_⟩, ?_⟩ <;> norm_num
  have hgray : Rgba.Regular ⟨119, 119, 119, 1⟩ := by
    refine ⟨⟨?_, ?_, ?_⟩, ?_⟩ <;> norm_num
  have hwhite : farEnd plainLuminance ⟨20, 40, 80, 1⟩ = Rgba.white := by decide +kernel
  have hwhite' : farEnd plainLuminance ⟨119, 119, 119, 1⟩ = Rgba.white := by decide +kernel
  constructor
  · obtain ⟨lo, hi, -, -, -, hwidth, hhi, hlo, hshade⟩ :=
      (legible_brackets hl hblue).1 (by decide +kernel)
    rw [hwhite] at hhi hlo hshade
    exact ⟨lo, hi, hwidth, hshade ▸ hhi, hshade, hlo⟩
  · rw [← hwhite']
    exact (legible_brackets hl hgray).2.1 (by decide +kernel) 0

end CssColor
