import CssColor.Color.Rgba

/-! # Colors: hexadecimal digits

Bytes as hexadecimal digits without capital letters, and the texts of bytes behind a number sign. -/

namespace CssColor

namespace Color

/-- The two digits of a byte. -/
def byteDigits (b : UInt8) : List Char :=
  [Nat.digitChar (b.toNat / 16), Nat.digitChar (b.toNat % 16)]

/-- Whether both digits of a byte are the same. -/
def isDouble (b : UInt8) : Bool := b.toNat / 16 = b.toNat % 16

/-- Bytes behind a number sign, two digits each. -/
def longHex (bytes : List UInt8) : String := String.ofList ('#' :: bytes.flatMap byteDigits)

/-- Bytes behind a number sign, one digit each if that loses nothing. -/
def briefHex (bytes : List UInt8) : String :=
  if bytes.all isDouble then
    String.ofList ('#' :: bytes.map fun b => Nat.digitChar (b.toNat % 16))
  else longHex bytes

end Color

/-- The six digits of a color. -/
def Rgb.digits (c : Rgb) : String :=
  String.ofList ([c.red, c.green, c.blue].flatMap Color.byteDigits)

end CssColor
