import CssColor.Color.Fault
import CssColor.Color.Format
import CssColor.Color.Hsl
import CssColor.Color.Keyword
import CssColor.Number.Decimal
import CssColor.Text.Lowercase
import CssColor.Text.Space

/-! # Colors: reading

`Color.read` takes a text in any of the seven forms, without regard to case and to white space
around it, and reports which form it was. A keyword comes first, then digits behind a number sign,
then digits alone, then the functional forms. -/

namespace CssColor

open Number Number.Scalar Text

/-! ### Hexadecimal forms -/

/-- The value of a hexadecimal digit. -/
def hexValue? (c : Char) : Option Nat :=
  if '0' ≤ c ∧ c ≤ '9' then some (c.toNat - '0'.toNat)
  else if 'a' ≤ c ∧ c ≤ 'f' then some (c.toNat - 'a'.toNat + 10)
  else if 'A' ≤ c ∧ c ≤ 'F' then some (c.toNat - 'A'.toNat + 10)
  else none

/-- Whether a character is a hexadecimal digit. -/
def isHexDigit (c : Char) : Bool := (hexValue? c).isSome

namespace Color

/-- The byte of two hexadecimal digits. -/
def readByte (high low : Char) : Except ColorFault UInt8 :=
  match hexValue? high, hexValue? low with
  | some h, some l => .ok (UInt8.ofNat (16 * h + l))
  | none, _ => .error (.hexDigit high)
  | _, none => .error (.hexDigit low)

/-- The alpha a byte stands for. -/
def alphaOfByte (b : UInt8) : Binary64 := ofNat b.toNat / 255

/-- A color of 3, 4, 6 or 8 hexadecimal digits; a single digit stands for two of its kind. -/
def readHex : List Char → Except ColorFault (Color × Format)
  | [r, g, b] => do
    return (.solid ⟨← readByte r r, ← readByte g g, ← readByte b b⟩, .hex3)
  | [r, g, b, a] => do
    let rgb : Rgb := ⟨← readByte r r, ← readByte g g, ← readByte b b⟩
    return (.ofRgb rgb (alphaOfByte (← readByte a a)), .hex4)
  | [r, r', g, g', b, b'] => do
    return (.solid ⟨← readByte r r', ← readByte g g', ← readByte b b'⟩, .hex)
  | [r, r', g, g', b, b', a, a'] => do
    let rgb : Rgb := ⟨← readByte r r', ← readByte g g', ← readByte b b'⟩
    return (.ofRgb rgb (alphaOfByte (← readByte a a')), .hex8)
  | cs => .error (.hexLength cs.length)

/-! ### Functional forms -/

/-- The arguments of a functional form whose name is one of `names`. -/
def functionArguments (names : List String) (cs : List Char) :
    Except ColorFault (List (List Char)) :=
  match splitFirst? '(' cs with
  | none => .error (.notOpened (String.ofList cs))
  | some (before, content) =>
    let name := String.ofList (trim before)
    if name ∈ names then
      match beforeEnd? [')'] content with
      | none => .error (.notClosed (String.ofList cs))
      | some content => .ok ((content.splitOn ',').map trim)
    else .error (.unknownFunction name)

/-- A finite number, with white space around it. -/
def readNumber (cs : List Char) : Except ColorFault Binary64 :=
  match Decimal.readFinite? (trim cs) with
  | some x => .ok x
  | none => .error (.number (String.ofList cs))

/-- A number from zero to `top`, or a percentage of it; what is outside is moved inside. -/
def readShare (top : Binary64) (cs : List Char) : Except ColorFault Binary64 :=
  match beforeEnd? ['%'] cs with
  | some percent => do return clamp 0 top ((← readNumber percent) / 100 * top)
  | none => do return clamp 0 top (← readNumber cs)

/-- A percentage as a share of one; the sign for percent may be left out. -/
def readPercentage (cs : List Char) : Except ColorFault Binary64 := do
  return clampUnit ((← readNumber (beforeAll '%' cs)) / 100)

/-- The fourth argument if there is one. -/
def readAlpha : List (List Char) → Except ColorFault Binary64
  | [] => .ok 1
  | cs :: _ => readShare 1 cs

/-- The text without the unit `deg` at its end, written once or more, for a reversed text. -/
def dropDegrees : List Char → List Char
  | 'g' :: 'e' :: 'd' :: cs => dropDegrees cs
  | cs => cs

/-- A hue in degrees. -/
def readHue (cs : List Char) : Except ColorFault Binary64 :=
  readNumber (dropDegrees cs.reverse).reverse

/-- The form `rgb(r, g, b)` or `rgba(r, g, b, a)`; either name takes three or four arguments. -/
def readRgb (cs : List Char) : Except ColorFault Color := do
  match ← functionArguments ["rgb", "rgba"] cs with
  | r :: g :: b :: rest =>
    if rest.length ≤ 1 then
      return .clamped (← readShare 255 r) (← readShare 255 g) (← readShare 255 b)
        (← readAlpha rest)
    else throw (.arity "rgb")
  | _ => throw (.arity "rgb")

/-- The form `hsl(h, s%, l%)` or `hsla(h, s%, l%, a)`; either name takes three or four
arguments. -/
def readHsl (cs : List Char) : Except ColorFault Color := do
  match ← functionArguments ["hsl", "hsla"] cs with
  | h :: s :: l :: rest =>
    if rest.length ≤ 1 then
      let hsl : Hsl Binary64 := ⟨← readHue h, ← readPercentage s, ← readPercentage l⟩
      return hsl.toRgba (← readAlpha rest)
    else throw (.arity "hsl")
  | _ => throw (.arity "hsl")

/-! ### All forms -/

/-- Whether a text consists of as many hexadecimal digits as a color has. -/
def isBareHex (cs : List Char) : Bool := cs.length ∈ [3, 4, 6, 8] && cs.all isHexDigit

/-- **The color a text stands for,** with the form it is written in. -/
def read (text : String) : Except ColorFault (Color × Format) :=
  let cs := trim text.toList
  let small := lower cs
  match small with
  | [] => .error .empty
  | first :: rest =>
    match Keyword.rgb? (String.ofList small) with
    | some c => .ok (.solid c, .keyword)
    | none =>
      if first = '#' then readHex rest
      else if isBareHex small then readHex small
      else if (afterStart? "rgb".toList small).isSome then (readRgb small).map (·, .rgb)
      else if (afterStart? "hsl".toList small).isSome then (readHsl small).map (·, .hsl)
      else .error (.unknown (String.ofList cs))

end Color

end CssColor
