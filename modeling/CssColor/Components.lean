import CssColor.Channel
import CssColor.Swatch

/-! # Components: the channels of a color as whole numbers

`Components.read` gives every channel of a color text as an integer, its fraction dropped. A text in
the form `hsl` states hue, saturation and lightness itself, so these are read from it (`hslTokens?`)
and come back as they were written; whiteness and blackness are those of the bytes. -/

namespace CssColor

open Number Number.Scalar Text

/-! ### Integers at the front of a text -/

/-- The largest integer `leadingInt?` reads. -/
def maxLeading : Nat := 2147483647

/-- **The integer a text begins with,** after white space, with an optional sign. -/
def leadingInt? (cs : List Char) : Option Int :=
  let (negative, rest) := Decimal.splitSign (trim cs)
  let digits := rest.takeWhile Char.isDigit
  let m := Decimal.natOfDigits digits
  if digits.isEmpty || maxLeading < m then none
  else some (if negative then -m else m)

/-- The integers at the front of the first three readable arguments of an `hsl` or `hsla` text,
without regard to white space and percent signs. -/
def hslTokens? (text : String) : Option (Int × Int × Int) :=
  let cs := lower (trim text.toList)
  match (afterStart? "hsla(".toList cs).or (afterStart? "hsl(".toList cs) with
  | none => none
  | some body =>
    let inner := (beforeEnd? [')'] body).getD body
    let cleaned := inner.filter fun c => !isSpace c && c ≠ '%'
    match (cleaned.splitOn ',').filterMap leadingInt? with
    | h :: s :: l :: _ => some (h, s, l)
    | _ => none

/-! ### Components -/

/-- The channels of a color as integers: bytes for red, green and blue, degrees for the hue, else
percent. -/
structure Components where
  alpha : Int := 0
  hue : Int := 0
  saturation : Int := 0
  lightness : Int := 0
  whiteness : Int := 0
  blackness : Int := 0
  red : Int := 0
  green : Int := 0
  blue : Int := 0
deriving DecidableEq, Repr, Inhabited

namespace Components

/-- The integer part of a number, where a number just below an integer counts as that integer. -/
def whole (x : Binary64) : Int := toIntTruncated (x + 1 / 1000000000)

/-- Hue, saturation and lightness of a color as integers. -/
def hslOf (c : Color) : Int × Int × Int :=
  let hsl := c.toHsl
  (whole hsl.hue, whole (hsl.saturation * 100), whole (hsl.lightness * 100))

/-- The components of a color text. -/
def read (text : String) : Except ColorFault Components := do
  let (c, format) ← Color.read text
  let tokens := if format = .hsl then hslTokens? text else none
  let (hue, saturation, lightness) := tokens.getD (hslOf c)
  let hwb := (Rgba.solid c.rounded : Color).toHwb
  return {
    alpha := toIntNearest (c.alpha * 100)
    hue, saturation, lightness
    whiteness := whole (hwb.whiteness * 100)
    blackness := whole (hwb.blackness * 100)
    red := whole c.red
    green := whole c.green
    blue := whole c.blue }

/-- The component of a channel. -/
def get (k : Components) : Channel → Int
  | .alpha => k.alpha
  | .red => k.red
  | .green => k.green
  | .blue => k.blue
  | .hue => k.hue
  | .saturation => k.saturation
  | .lightness => k.lightness
  | .whiteness => k.whiteness
  | .blackness => k.blackness

/-- The component of the channel of a name. -/
def get? (k : Components) (name : String) : Option Int := (Channel.ofName? name).map k.get

end Components

end CssColor
