import CssColor.Number.Scalar

/-! # Colors: red, green, blue and alpha

An `Rgba` holds unrounded channels: red, green and blue up to 255, alpha up to 1. `Rgba.clamped`
builds one from any numbers, `Rgba.mix` goes from one color toward another, and `Rgba.rounded` is
the triple of bytes that renderings show. -/

namespace CssColor

open Number Number.Scalar

/-- A color of three bytes. -/
structure Rgb where
  red : UInt8
  green : UInt8
  blue : UInt8
deriving DecidableEq, Repr

/-- A color of unrounded channels, with the share of its own color as alpha. -/
structure Rgba (α : Type) where
  red : α
  green : α
  blue : α
  alpha : α
deriving DecidableEq, Repr

/-- A color in double precision. -/
abbrev Color := Rgba Binary64

namespace Rgba

variable {α : Type} [Scalar α]

/-! ### Building colors -/

/-- The color of the given channels, each moved into its range. -/
def clamped (red green blue alpha : α) : Rgba α where
  red := clamp 0 255 red
  green := clamp 0 255 green
  blue := clamp 0 255 blue
  alpha := clampUnit alpha

/-- The color of three bytes, with an alpha moved into its range. -/
def ofRgb (c : Rgb) (alpha : α) : Rgba α where
  red := ofNat c.red.toNat
  green := ofNat c.green.toNat
  blue := ofNat c.blue.toNat
  alpha := clampUnit alpha

/-- The color of three bytes without transparency. -/
def solid (c : Rgb) : Rgba α := ofRgb c 1

def white : Rgba α := solid ⟨255, 255, 255⟩

def black : Rgba α := solid ⟨0, 0, 0⟩

/-- The same color with another alpha. -/
def withAlpha (c : Rgba α) (alpha : α) : Rgba α := { c with alpha := clampUnit alpha }

/-- The color on the line from `c` to `d` at the share `weight` of `d`. -/
def mix (c d : Rgba α) (weight : α) : Rgba α :=
  let w := clampUnit weight
  clamped (c.red + (d.red - c.red) * w) (c.green + (d.green - c.green) * w)
    (c.blue + (d.blue - c.blue) * w) (c.alpha + (d.alpha - c.alpha) * w)

/-! ### Bytes -/

/-- The byte nearest to a number. -/
def toByte (x : α) : UInt8 := UInt8.ofNat (min 255 (toIntNearest x).toNat)

/-- The channels rounded to bytes. -/
def rounded (c : Rgba α) : Rgb := ⟨toByte c.red, toByte c.green, toByte c.blue⟩

/-- The alpha as a byte, 255 where nothing shines through. -/
def alphaByte (c : Rgba α) : UInt8 := toByte (c.alpha * 255)

/-- Whether nothing shines through. -/
def isSolid (c : Rgba α) : Bool := 1 ≤ c.alpha

end Rgba

end CssColor
