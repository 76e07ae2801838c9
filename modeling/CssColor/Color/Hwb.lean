import CssColor.Color.Hsl

/-! # Colors: hue, whiteness and blackness

The conversions between `Rgba` and `Hwb`, with the hue in degrees and the other two as shares of
one. Whiteness and blackness that add up to more than one stand for a gray in their proportion. -/

namespace CssColor

open Number Number.Scalar

/-- A color by hue, whiteness and blackness. -/
structure Hwb (α : Type) where
  hue : α
  whiteness : α
  blackness : α
deriving DecidableEq, Repr

variable {α : Type} [Scalar α]

/-- The color by hue, whiteness and blackness. -/
def Rgba.toHwb (c : Rgba α) : Hwb α :=
  ⟨c.toHsl.hue, c.smallest / 255, 1 - c.largest / 255⟩

namespace Hwb

/-- Whiteness and blackness scaled down to add up to at most one. -/
def shares (c : Hwb α) : α × α :=
  let w := clampUnit c.whiteness
  let b := clampUnit c.blackness
  let sum := w + b
  if 1 ≤ sum then (w / sum, b / sum) else (w, b)

/-- The color of a hue, whiteness and blackness. -/
def toRgba (c : Hwb α) (alpha : α) : Rgba α :=
  let (w, b) := c.shares
  let vivid := Hsl.toRgba ⟨c.hue, 1, 1 / 2⟩ alpha
  let scale := 1 - w - b
  let channel (x : α) : α := (x / 255 * scale + w) * 255
  Rgba.clamped (channel vivid.red) (channel vivid.green) (channel vivid.blue) alpha

end Hwb

end CssColor
