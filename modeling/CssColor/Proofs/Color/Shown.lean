import CssColor.Proofs.Color.ReadBack

/-! # The texts of colors as they are shown

A functional form tells whether a color is solid, the three numbers in front, and the alpha behind
them if the color is not solid, and nothing else (`Rgba.rgbText_eq_iff`, `Rgba.hslText_eq_iff`). So
a color with the alpha that is shown of another has the same text exactly if the three numbers agree
and alpha is not rounded up to 1: an alpha that is shown as 1 without being 1 is read as solid, and
then it is not shown at all (`Rgba.rgbText_eq_of_alpha_iff`, `Rgba.hslText_eq_of_alpha_iff`). -/

namespace CssColor

open Number Number.Scalar Number.Binary64 Text

/-! ### Functional forms -/

theorem callText_inj {n m : List Char} {args brgs : List (List Char)} (h : IsCall n args)
    (h' : IsCall m brgs) (heq : callText n args = callText m brgs) : n = m ∧ args = brgs := by
  have hopen : ∀ {w : List Char}, (∀ c ∈ w, c.isLower = true) → '(' ∉ w := fun hw hp =>
    (isLower_spec (hw _ hp)).2.2.1 rfl
  have hname : n = m := by
    have hsplit := congrArg (splitFirst? '(') heq
    rw [callText, callText, splitFirst?_run (hopen h.isLower), splitFirst?_run (hopen h'.isLower)]
      at hsplit
    exact congrArg Prod.fst (Option.some.inj hsplit)
  subst hname
  have hargs := functionArguments_callText h (List.mem_singleton_self (String.ofList n))
  rw [heq, functionArguments_callText h' (List.mem_singleton_self _)] at hargs
  exact ⟨rfl, (Except.ok.inj hargs).symm⟩

namespace Rgba

variable {c d : Color}

theorem formName_injective {model : List Char} (h : c.formName model = d.formName model) :
    c.isSolid = d.isSolid := by
  unfold formName at h
  cases hc : c.isSolid <;> cases hd : d.isSolid <;> simp_all

/-- A form tells its parts, and the alpha of a color that is not solid. -/
theorem callText_form_eq_iff {model : List Char} {ps qs : List (List Char)}
    (hc : IsCall (c.formName model) (c.formArgs ps))
    (hd : IsCall (d.formName model) (d.formArgs qs)) :
    callText (c.formName model) (c.formArgs ps) = callText (d.formName model) (d.formArgs qs) ↔
      c.isSolid = d.isSolid ∧ ps = qs ∧
        (c.isSolid = false → alphaDigits c.alpha = alphaDigits d.alpha) := by
  constructor
  · intro h
    obtain ⟨hname, hargs⟩ := callText_inj hc hd h
    have hs := formName_injective hname
    unfold formArgs at hargs
    rw [← hs] at hargs
    cases hsolid : c.isSolid with
    | true =>
      rw [hsolid] at hargs hs
      exact ⟨hs, hargs, fun hno => nomatch hno⟩
    | false =>
      rw [hsolid] at hargs hs
      obtain ⟨hparts, halpha⟩ := List.append_inj' hargs rfl
      exact ⟨hs, hparts, fun _ => (List.cons.inj halpha).1⟩
  · rintro ⟨hs, rfl, ha⟩
    unfold formName formArgs
    rw [← hs]
    cases hsolid : c.isSolid with
    | true => rfl
    | false => rw [ha hsolid]

theorem rgbParts_eq_iff : c.rgbParts = d.rgbParts ↔ c.rounded = d.rounded := by
  have hbyte : ∀ {b e : UInt8}, Nat.toDigits 10 b.toNat = Nat.toDigits 10 e.toNat → b = e :=
    fun h => UInt8.toNat_inj.mp (Decimal.toDigits_injective h)
  constructor
  · intro h
    simp only [rgbParts, List.cons.injEq] at h
    obtain ⟨hr, hg, hb, -⟩ := h
    have := hbyte hr
    have := hbyte hg
    have := hbyte hb
    cases hc : c.rounded
    cases hd : d.rounded
    simp_all
  · intro h
    rw [rgbParts, h, rgbParts]

theorem hslParts_eq_iff : c.hslParts = d.hslParts ↔ c.toHsl.toWhole = d.toHsl.toWhole := by
  constructor
  · intro h
    simp only [hslParts, List.cons.injEq, List.append_left_inj] at h
    obtain ⟨hh, hs, hl, -⟩ := h
    exact Prod.ext (Decimal.toString_injective hh)
      (Prod.ext (Decimal.toString_injective hs) (Decimal.toString_injective hl))
  · intro h
    rw [hslParts, h, hslParts]

section

variable (hc : Within 0 1 c.alpha) (hd : Within 0 1 d.alpha)

include hc hd

/-- **What an `rgb` text tells:** the bytes, whether the color is solid, and the alpha if not. -/
theorem rgbText_eq_iff : c.rgbText = d.rgbText ↔ c.isSolid = d.isSolid ∧ c.rounded = d.rounded ∧
    (c.isSolid = false → alphaDigits c.alpha = alphaDigits d.alpha) := by
  rw [← String.toList_inj, toList_rgbText hc.isNumber.isNaN, toList_rgbText hd.isNumber.isNaN,
    callText_form_eq_iff isCall_rgb isCall_rgb, rgbParts_eq_iff]

/-- **What an `hsl` text tells:** whole degrees and percent, whether the color is solid, and the
alpha if not. -/
theorem hslText_eq_iff : c.hslText = d.hslText ↔
    c.isSolid = d.isSolid ∧ c.toHsl.toWhole = d.toHsl.toWhole ∧
      (c.isSolid = false → alphaDigits c.alpha = alphaDigits d.alpha) := by
  rw [← String.toList_inj, toList_hslText hc.isNumber.isNaN, toList_hslText hd.isNumber.isNaN,
    callText_form_eq_iff isCall_hsl isCall_hsl, hslParts_eq_iff]

end

/-! ### Colors as they are shown -/

/-- Whether an alpha that is not 1 is written otherwise than 1. -/
def AlphaKept (c : Color) : Prop := c.isSolid = true ∨ hundredths c.alpha ≠ 100

instance (c : Color) : Decidable c.AlphaKept := inferInstanceAs (Decidable (_ ∨ _))

theorem alpha_restored (h : Within 0 1 c.alpha) (f : Format) :
    (c.restored f).alpha = c.shownOpacity := by
  have hself := clampUnit_eq_self (within_shownOpacity h)
  by_cases hf : f = .hsl
  · rw [hf, restored_hsl, shownHsl, Hsl.alpha_toRgba, hself]
  · rw [restored_of_ne c hf]
    exact hself

/-- Bytes do not depend on alpha. -/
theorem rounded_toRgba (c : Hsl Binary64) (a b : Binary64) :
    (c.toRgba a).rounded = (c.toRgba b).rounded := by
  unfold Hsl.toRgba
  dsimp only
  split_ifs <;> rfl

section

variable (h : Within 0 1 c.alpha) (hd : d.alpha = c.shownOpacity)

include h hd

theorem isSolid_of_alpha_eq : d.isSolid = true ↔ c.isSolid = true ∨ hundredths c.alpha = 100 := by
  have h1 : (1 : Binary64) ≤ 1 := by decide +kernel
  unfold isSolid
  rw [hd, decide_eq_true_iff, shownOpacity]
  split_ifs with hs
  · exact ⟨fun _ => Or.inl hs, fun _ => h1⟩
  · rw [one_le_shownAlpha_iff h]
    exact ⟨Or.inr, fun hor => hor.resolve_left hs⟩

/-- Alpha as it is shown is shown as itself. -/
theorem shownOpacity_of_alpha_eq : d.shownOpacity = c.shownOpacity := by
  have hiff := isSolid_of_alpha_eq h hd
  by_cases hc : c.isSolid = true
  · rw [shownOpacity, if_pos (hiff.mpr (Or.inl hc)), shownOpacity, if_pos hc]
  · have hcs : c.shownOpacity = shownAlpha c.alpha := if_neg hc
    by_cases h100 : hundredths c.alpha = 100
    · rw [shownOpacity, if_pos (hiff.mpr (Or.inr h100)), hcs]
      rcases shownAlpha_cases h with ⟨ha, -⟩ | ⟨-, hs⟩
      · rw [ha] at h100
        exact absurd h100 (by decide +kernel)
      · rw [hs, h100]
        decide +kernel
    · have hds : ¬d.isSolid = true := fun hs => (hiff.mp hs).elim hc h100
      rw [shownOpacity, if_neg hds, hd, hcs, shownAlpha, isNegative_shownAlpha h,
        hundredths_shownAlpha h, shownAlpha]

/-- The alpha of a form is written again, unless it is rounded up to 1. -/
theorem alpha_written_iff : (d.isSolid = c.isSolid ∧
    (d.isSolid = false → alphaDigits d.alpha = alphaDigits c.alpha)) ↔ c.AlphaKept := by
  have hsolid := isSolid_of_alpha_eq h hd
  constructor
  · rintro ⟨hs, -⟩
    by_cases h100 : hundredths c.alpha = 100
    · exact Or.inl (hs ▸ hsolid.mpr (Or.inr h100))
    · exact Or.inr h100
  · intro hor
    have hs : d.isSolid = c.isSolid := by
      rw [Bool.eq_iff_iff, hsolid]
      exact ⟨fun hs => hs.elim id fun h100 => hor.resolve_right (not_not_intro h100), Or.inl⟩
    refine ⟨hs, fun hno => ?_⟩
    have hc : ¬c.isSolid = true := by rw [← hs, hno]; decide
    rw [hd, shownOpacity, if_neg hc]
    exact alphaDigits_shownAlpha h

theorem rgbText_eq_of_alpha_iff :
    d.rgbText = c.rgbText ↔ c.AlphaKept ∧ d.rounded = c.rounded := by
  have hw : Within 0 1 d.alpha := hd ▸ within_shownOpacity h
  rw [rgbText_eq_iff hw h, ← alpha_written_iff h hd]
  tauto

theorem hslText_eq_of_alpha_iff :
    d.hslText = c.hslText ↔ c.AlphaKept ∧ d.toHsl.toWhole = c.toHsl.toWhole := by
  have hw : Within 0 1 d.alpha := hd ▸ within_shownOpacity h
  rw [hslText_eq_iff hw h, ← alpha_written_iff h hd]
  tauto

end

/-- What a form shows of a color has the `rgb` text of the color exactly if alpha is not rounded up
to 1 and the bytes stay. -/
theorem rgbText_shown_restored_iff (h : Within 0 1 c.alpha) (f : Format) :
    (c.restored f).shown.rgbText = c.rgbText ↔
      c.AlphaKept ∧ (c.restored f).rounded = c.rounded := by
  have halpha : (c.restored f).shown.alpha = c.shownOpacity := by
    show clampUnit (c.restored f).shownOpacity = _
    rw [shownOpacity_of_alpha_eq h (alpha_restored h f), clampUnit_eq_self (within_shownOpacity h)]
  rw [rgbText_eq_of_alpha_iff h halpha]
  exact and_congr_right fun _ => by rw [shown, rounded_ofRgb]

end Rgba

end CssColor
