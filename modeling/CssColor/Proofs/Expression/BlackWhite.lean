import CssColor.Proofs.Expression.TextColor

/-! # Black or white

With the amount it has unless another is asked for, a text color is black or white. The base is
taken as the solid color of its bytes, the contrast goes all the way to the far end
(`value_adjust_contrast`), and what it comes to there is solid and has the bytes of black or white
(`rgbText_legible_one`). So a base gets black exactly if it shines through too much or is not dark
(`textColor_black_or_white`). -/

namespace CssColor

open Number Number.Scalar Number.Binary64 Text Expression

/-! ### All the way to the far end -/

/-- A contrast of a hundred percent. -/
theorem value_adjust_contrast (c : Color) :
    (adjust c [(ControlKind.contrast.wholeCall 100 false).adjustment]).value
      = .ok (legible Color.luminance c 1) :=
  value_adjust_of_ok [] (apply_contrast c)

/-- Nothing shines through the far end of a solid color. -/
theorem isSolid_legible (b : Rgb) {position : Binary64} (hp : position.IsNumber) :
    (legible Color.luminance (Rgba.solid b) position).isSolid = true := by
  have hrange : Within 0 1 (Rgba.solid b : Color).alpha := (Rgba.inRange_solid b).alpha
  have halike :
      Alike (legible Color.luminance (Rgba.solid b) position).alpha (Rgba.solid b).alpha :=
    alike_alpha_legible (Or.inl hrange) hp
  rw [Rgba.isSolid_iff, halike.one_le_iff, ← Rgba.isSolid_iff]
  exact Rgba.isSolid_solid b

/-- **The far end of a solid color:** black, or white if the color is dark. -/
theorem rgbText_legible_one (b : Rgb) :
    Color.rgbText (legible Color.luminance (Rgba.solid b) 1)
      = if 1 / 2 ≤ Color.luminance (Rgba.solid b) then "rgb(0, 0, 0)" else "rgb(255, 255, 255)" := by
  have hrange := Rgba.inRange_solid b
  have hdark :
      Color.luminance (Rgba.solid b) < 1 / 2 ↔ ¬1 / 2 ≤ Color.luminance (Rgba.solid b) := by
    have hfinite := (within_luminance hrange).isFinite
    rw [lt_iff hfinite near_half.isFinite, le_iff near_half.isFinite hfinite, not_le]
  rw [rgbText_eq, if_pos (isSolid_legible b Rgba.within_one.isNumber), rounded_legible_one hrange]
  by_cases hlight : 1 / 2 ≤ Color.luminance (Rgba.solid b)
  · rw [if_neg fun h => hdark.mp h hlight, if_pos hlight]
    decide
  · rw [if_pos (hdark.mpr hlight), if_neg hlight]
    decide

/-! ### Text colors -/

theorem alpha_of_read {text : String} {k : Components} {c : Color} {f : Format}
    (hk : Components.read text = .ok k) (hc : Color.read text = .ok (c, f)) :
    k.alpha = Scalar.toIntNearest (c.alpha * 100) := by
  unfold Components.read at hk
  rw [hc] at hk
  obtain rfl := Except.ok.inj hk
  rfl

/-- **A text color is black or white:** black if the alpha of the base in percent, rounded, is below
50 or the luminance of its bytes is a half or more, and else white. -/
theorem textColor_black_or_white {base : String} {c : Color} {f : Format}
    (h : Color.read base = .ok (c, f)) :
    (Evaluator.standard.textColor defaultContrast base).value
      = .ok (if Scalar.toIntNearest (c.alpha * 100) < 50 ∨ 1 / 2 ≤ Color.luminance (Rgba.solid c.rounded)
          then "rgb(0, 0, 0)" else "rgb(255, 255, 255)") := by
  obtain ⟨k, hk⟩ := exists_components_read h
  have halpha := alpha_of_read hk h
  by_cases hlow : k.alpha < 50
  · rw [value_textColor _ _ hk h, if_pos hlow, if_pos (Or.inl (halpha ▸ hlow))]
  · rw [value_textColor_default hk h (not_lt.mp hlow), value_adjust_contrast]
    show Except.ok (Color.rgbText _) = _
    rw [rgbText_legible_one, ← halpha]
    simp only [hlow, false_or]

/-- A light color, a dark one, and one that shines through. -/
theorem textColor_black_or_white_three :
    (Evaluator.standard.textColor defaultContrast "yellow").value = .ok "rgb(0, 0, 0)" ∧
      (Evaluator.standard.textColor defaultContrast "#4b0707cc").value = .ok "rgb(255, 255, 255)" ∧
      (Evaluator.standard.textColor defaultContrast "#0000007d").value = .ok "rgb(0, 0, 0)" := by
  have hlight : Color.read "yellow" = .ok (.solid ⟨255, 255, 0⟩, .keyword) := by decide +kernel
  have hdark : Color.read "#4b0707cc" = .ok (.ofRgb ⟨75, 7, 7⟩ (Color.alphaOfByte 204), .hex8) := by
    decide +kernel
  have hthin : Color.read "#0000007d" = .ok (.ofRgb ⟨0, 0, 0⟩ (Color.alphaOfByte 125), .hex8) := by
    decide +kernel
  exact ⟨(textColor_black_or_white hlight).trans (by decide +kernel),
    (textColor_black_or_white hdark).trans (by decide +kernel),
    (textColor_black_or_white hthin).trans (by decide +kernel)⟩

end CssColor
