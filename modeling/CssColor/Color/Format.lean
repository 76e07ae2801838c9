/-! # Colors: written forms

The seven forms a color can be written in, with the keys they are chosen by and the labels they are
shown under. -/

namespace CssColor

/-- A written form of a color. -/
inductive Format where
  /-- The form `#rrggbb`. -/
  | hex
  /-- The form `#rgb`. -/
  | hex3
  /-- The form `#rgba`. -/
  | hex4
  /-- The form `#rrggbbaa`. -/
  | hex8
  /-- The form `hsl(h, s%, l%)`, or `hsla` with an alpha. -/
  | hsl
  /-- A CSS color keyword. -/
  | keyword
  /-- The form `rgb(r, g, b)`, or `rgba` with an alpha. -/
  | rgb
deriving DecidableEq, Repr

namespace Format

/-- All forms, in the order of their keys. -/
def all : List Format := [hex, hex3, hex4, hex8, hsl, keyword, rgb]

/-- All forms, in the order they are listed to a reader. -/
def displayOrder : List Format := [hex, hex3, hex8, hex4, rgb, hsl, keyword]

/-- The name a form is chosen by. -/
def key : Format → String
  | hex => "hex"
  | hex3 => "hex3"
  | hex4 => "hex4"
  | hex8 => "hex8"
  | hsl => "hsl"
  | keyword => "keyword"
  | rgb => "rgb"

/-- The name a form is shown under. -/
def label : Format → String
  | hex3 => "hex (short)"
  | hex4 => "rrggbbaa (short)"
  | hex8 => "rrggbbaa"
  | rgb => "rgb(a)"
  | hsl => "hsl(a)"
  | f => f.key

/-- The form chosen by a key. -/
def ofKey? (key : String) : Option Format := all.find? (·.key = key)

/-- Whether a form is hexadecimal. -/
def isHex : Format → Bool
  | hex | hex3 | hex4 | hex8 => true
  | _ => false

/-- Whether a form is hexadecimal with alpha digits. -/
def isAlphaHex : Format → Bool
  | hex4 | hex8 => true
  | _ => false

end Format

end CssColor
