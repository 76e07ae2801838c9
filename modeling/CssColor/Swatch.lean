import CssColor.Color.Reader
import CssColor.Color.Render

/-! # Swatches: a color with its source

A `Swatch` is a color together with the text it was read from and the form of that text. It can be
written in every form its color has; `Swatch.display` keeps to the form of the source. -/

namespace CssColor

/-- A color read from a text. -/
structure Swatch where
  /-- The text as it was given. -/
  source : String
  /-- The form of the text. -/
  format : Format
  color : Color
deriving DecidableEq, Repr

namespace Swatch

/-- The swatch of a text that stands for a color. -/
def read (source : String) : Except ColorFault Swatch := do
  let (color, format) ← Color.read source
  return ⟨source, format, color⟩

/-- Whether a text stands for a color. -/
def isReadable (source : String) : Bool := (Color.read source).isOk

/-- The color in a form, if it can be written in it. -/
def rendering? (s : Swatch) (f : Format) : Option String := s.color.render? f

/-- All forms the color can be written in, in the order of their keys. -/
def renderings (s : Swatch) : List (Format × String) :=
  Format.all.filterMap fun f => (s.rendering? f).map (f, ·)

/-- The color in the form of its source. -/
def display (s : Swatch) : String := (s.rendering? s.format).getD s.source

/-- The color as `rgb` or `rgba`. -/
def rgbText (s : Swatch) : String := s.color.rgbText

/-- The forms the color can be written in, in the order they are listed to a reader. -/
def available (s : Swatch) : List Format :=
  Format.displayOrder.filter fun f => (s.rendering? f).isSome

/-- The forms the color cannot be written in, in the order they are listed to a reader. -/
def unavailable (s : Swatch) : List Format :=
  Format.displayOrder.filter fun f => (s.rendering? f).isNone

end Swatch

end CssColor
