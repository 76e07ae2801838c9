import CssColor.Color.Rgba

/-! # Colors: hue, saturation and lightness

The conversions between `Rgba` and `Hsl`, with the hue in degrees and the other two as shares of
one. A gray has hue and saturation zero. -/

namespace CssColor

open Number Number.Scalar

/-- A color by hue, saturation and lightness. -/
structure Hsl (α : Type) where
  hue : α
  saturation : α
  lightness : α
deriving DecidableEq, Repr

variable {α : Type} [Scalar α]

namespace Rgba

/-- The largest of the three channels. -/
def largest (c : Rgba α) : α := larger (larger c.red c.green) c.blue

/-- The smallest of the three channels. -/
def smallest (c : Rgba α) : α := smaller (smaller c.red c.green) c.blue

/-- The position on the color circle in sixths, for channels between zero and one whose largest is
`high` and whose largest and smallest differ by `range`. -/
def sextant (c : Rgba α) (high range : α) : α :=
  if Same high c.red then (c.green - c.blue) / range + (if c.green < c.blue then 6 else 0)
  else if Same high c.green then (c.blue - c.red) / range + 2
  else (c.red - c.green) / range + 4

/-- The color by hue, saturation and lightness. -/
def toHsl (c : Rgba α) : Hsl α :=
  let unit : Rgba α := { c with red := c.red / 255, green := c.green / 255, blue := c.blue / 255 }
  let high := unit.largest
  let low := unit.smallest
  let lightness := (high + low) / 2
  if Same high low then ⟨0, 0, lightness⟩
  else
    let range := high - low
    let saturation := if 1 / 2 < lightness then range / (2 - high - low) else range / (high + low)
    ⟨unit.sextant high range / 6 * 360, saturation, lightness⟩

section

variable {c u : Rgba α}
  (hu : { c with red := c.red / 255, green := c.green / 255, blue := c.blue / 255 } = u)

include hu

/-- The formulas for a gray, from the shares of 255 in it. -/
theorem toHsl_eq_of_same (h : Same u.largest u.smallest) :
    c.toHsl = ⟨0, 0, (u.largest + u.smallest) / 2⟩ := by
  subst hu
  exact if_pos h

/-- The formulas for a color that is not a gray. -/
theorem toHsl_eq_of_not_same (h : ¬Same u.largest u.smallest) :
    c.toHsl = ⟨u.sextant u.largest (u.largest - u.smallest) / 6 * 360,
      if 1 / 2 < (u.largest + u.smallest) / 2 then
        (u.largest - u.smallest) / (2 - u.largest - u.smallest)
      else (u.largest - u.smallest) / (u.largest + u.smallest),
      (u.largest + u.smallest) / 2⟩ := by
  subst hu
  exact if_neg h

end

end Rgba

namespace Hsl

/-- The level of one channel between `low` and `high`, at the turn `t` of the color circle. -/
def level (low high t : α) : α :=
  let t := if t < 0 then t + 1 else t
  let t := if 1 < t then t - 1 else t
  if t < 1 / 6 then low + (high - low) * 6 * t
  else if t < 1 / 2 then high
  else if t < 2 / 3 then low + (high - low) * (2 / 3 - t) * 6
  else low

/-- The color of a hue, saturation and lightness. -/
def toRgba (c : Hsl α) (alpha : α) : Rgba α :=
  let turn := wrapDegrees c.hue / 360
  let s := clampUnit c.saturation
  let l := clampUnit c.lightness
  if Same s 0 then Rgba.clamped (l * 255) (l * 255) (l * 255) alpha
  else
    let high := if l < 1 / 2 then l * (1 + s) else l + s - l * s
    let low := 2 * l - high
    Rgba.clamped (level low high (turn + 1 / 3) * 255) (level low high turn * 255)
      (level low high (turn - 1 / 3) * 255) alpha

/-- Hue in whole degrees below 360, saturation and lightness in whole percent. -/
def toWhole (c : Hsl α) : Int × Int × Int :=
  ((toIntNearest c.hue).tmod 360, toIntNearest (c.saturation * 100),
    toIntNearest (c.lightness * 100))

end Hsl

end CssColor
