import CssColor.Color.Rgba
import CssColor.Number.Power

/-! # Colors: luminance and contrast

The relative luminance of a color in the sRGB space and the contrast ratio of two luminances, from 1
for equal ones to 21 for black and white. -/

namespace CssColor

open Number Number.Scalar

/-- The linear intensity of an sRGB channel between zero and one. -/
def linearIntensity (x : Binary64) : Binary64 :=
  if x ≤ 4045 / 100000 then x / (1292 / 100)
  else Binary64.pow ((x + 55 / 1000) / (1055 / 1000)) (24 / 10)

/-- The relative luminance, from 0 for black to 1 for white. -/
def Color.luminance (c : Color) : Binary64 :=
  2126 / 10000 * linearIntensity (c.red / 255) + 7152 / 10000 * linearIntensity (c.green / 255)
    + 722 / 10000 * linearIntensity (c.blue / 255)

/-- The contrast ratio of two luminances. -/
def luminanceRatio {α : Type} [Scalar α] (l m : α) : α :=
  if m < l then (l + 5 / 100) / (m + 5 / 100) else (m + 5 / 100) / (l + 5 / 100)

/-- The contrast ratio of two colors, for a given measure of luminance. -/
def contrastRatio {α : Type} [Scalar α] (luminance : Rgba α → α) (c d : Rgba α) : α :=
  luminanceRatio (luminance c) (luminance d)

end CssColor
