import CssColor.Color.Format
import CssColor.Color.Hsl
import CssColor.Color.Keyword

/-! # Colors: writing

The text of a color in each form. Channels are written as bytes, hue, saturation and lightness as
whole numbers, alpha with at most two decimals. `Color.render?` is the text in a given form, if the
color can be written in it: a short hexadecimal form has to come out short, the forms without alpha
need a solid color. -/

namespace CssColor

open Number Number.Scalar

/-! ### Alpha -/

/-- An alpha in whole hundredths. -/
def hundredths (a : Binary64) : Nat := (toIntNearest (a * 100)).natAbs

/-- Hundredths as a decimal without zeros at its end. -/
def hundredthsDigits (n : Nat) : List Char :=
  let whole := Nat.toDigits 10 (n / 100)
  let tenth := Nat.digitChar (n / 10 % 10)
  let hundredth := Nat.digitChar (n % 10)
  if n % 100 = 0 then whole
  else if n % 10 = 0 then whole ++ ['.', tenth]
  else whole ++ ['.', tenth, hundredth]

/-- Alpha with at most two decimals. -/
def alphaText (a : Binary64) : String :=
  let digits := hundredthsDigits (hundredths a)
  if a.isNaN then "NaN" else String.ofList (if a.isNegative then '-' :: digits else digits)

namespace Color

/-! ### Bytes -/

/-- The bytes of red, green and blue. -/
def bytes (c : Color) : List UInt8 := [c.rounded.red, c.rounded.green, c.rounded.blue]

/-- The bytes of red, green, blue and alpha. -/
def alphaBytes (c : Color) : List UInt8 := c.bytes ++ [c.alphaByte]

/-! ### Functional forms and keywords -/

/-- The form `rgb(r, g, b)`, or `rgba(r, g, b, a)` for a color that is not solid. -/
def rgbText (c : Color) : String :=
  let channels := s!"{c.rounded.red.toNat}, {c.rounded.green.toNat}, {c.rounded.blue.toNat}"
  if c.isSolid then "rgb(" ++ channels ++ ")"
  else "rgba(" ++ channels ++ ", " ++ alphaText c.alpha ++ ")"

/-- The form `hsl(h, s%, l%)`, or `hsla(h, s%, l%, a)` for a color that is not solid. -/
def hslText (c : Color) : String :=
  let (h, s, l) := c.toHsl.toWhole
  let parts := s!"{h}, {s}%, {l}%"
  if c.isSolid then "hsl(" ++ parts ++ ")"
  else "hsla(" ++ parts ++ ", " ++ alphaText c.alpha ++ ")"

/-- The keyword of the third level for a color, if nothing shines through. -/
def level3Keyword? (c : Color) : Option String :=
  if c.alpha < 1 then none else Keyword.level3Name? c.rounded

/-- The keyword of a color. The one name of the fourth level is told by its digits. -/
def keyword? (c : Color) : Option String :=
  match c.level3Keyword? with
  | some name => some name
  | none => if longHex c.bytes = "#663399" then some "rebeccapurple" else none

/-! ### All forms -/

/-- **The text of a color in a form,** if the color can be written in it. -/
def render? (c : Color) : Format → Option String
  | .hex => if c.isSolid then some (longHex c.bytes) else none
  | .hex3 =>
    if c.isSolid && (briefHex c.bytes).utf8ByteSize = 4 then some (briefHex c.bytes) else none
  | .hex4 => if (briefHex c.alphaBytes).utf8ByteSize = 5 then some (briefHex c.alphaBytes) else none
  | .hex8 => some (longHex c.alphaBytes)
  | .hsl => some c.hslText
  | .keyword => if c.isSolid then c.keyword? else none
  | .rgb => some c.rgbText

end Color

end CssColor
