import CssColor.Color.Hwb

/-! # Channels: the adjustable parts of a color

A `Channel` is a part of a color that can be read and replaced by itself: alpha, a channel of red,
green and blue, or a coordinate of `Hsl` or `Hwb`. Replacing a coordinate goes to its space and
back. -/

namespace CssColor

open Number

/-- A part of a color. -/
inductive Channel where
  | alpha | red | green | blue | hue | saturation | lightness | whiteness | blackness
deriving DecidableEq, Repr

namespace Channel

def all : List Channel :=
  [alpha, red, green, blue, hue, saturation, lightness, whiteness, blackness]

def name : Channel → String
  | alpha => "alpha"
  | red => "red"
  | green => "green"
  | blue => "blue"
  | hue => "hue"
  | saturation => "saturation"
  | lightness => "lightness"
  | whiteness => "whiteness"
  | blackness => "blackness"

def ofName? (name : String) : Option Channel := all.find? (·.name = name)

/-- The letter a channel may be called by. -/
def letter? : Channel → Option String
  | alpha => some "a"
  | hue => some "h"
  | saturation => some "s"
  | lightness => some "l"
  | whiteness => some "w"
  | blackness => some "b"
  | red | green | blue => none

variable {α : Type} [Scalar α]

/-- The channel of a color: bytes for red, green and blue, degrees for the hue, else a share of
one. -/
def get (c : Rgba α) : Channel → α
  | alpha => c.alpha
  | red => c.red
  | green => c.green
  | blue => c.blue
  | hue => c.toHsl.hue
  | saturation => c.toHsl.saturation
  | lightness => c.toHsl.lightness
  | whiteness => c.toHwb.whiteness
  | blackness => c.toHwb.blackness

/-- The color with a channel replaced. -/
def set (c : Rgba α) (x : α) : Channel → Rgba α
  | alpha => c.withAlpha x
  | red => .clamped x c.green c.blue c.alpha
  | green => .clamped c.red x c.blue c.alpha
  | blue => .clamped c.red c.green x c.alpha
  | hue => { c.toHsl with hue := x }.toRgba c.alpha
  | saturation => { c.toHsl with saturation := x }.toRgba c.alpha
  | lightness => { c.toHsl with lightness := x }.toRgba c.alpha
  | whiteness => { c.toHwb with whiteness := x }.toRgba c.alpha
  | blackness => { c.toHwb with blackness := x }.toRgba c.alpha

end Channel

end CssColor
