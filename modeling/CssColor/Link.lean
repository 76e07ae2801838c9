import CssColor.Fault
import CssColor.Record
import CssColor.Swatch
import CssColor.Text.Quoted

/-! # Links: a base color in a query

A link carries a color as the value of a parameter in its query. `Link.parameter?` finds the value,
`Link.decode` undoes percent encoding, strictly, and `Link.color?` makes of a value a text that
stands for a color: in lower case, decoded if it can be, and with a number sign in front of
hexadecimal digits. -/

namespace CssColor.Link

open Text

/-! ### Percent encoding -/

/-- The byte of two hexadecimal digits, given as bytes. -/
def escapedByte? (high low : UInt8) : Option UInt8 :=
  match hexValue? (Char.ofNat high.toNat), hexValue? (Char.ofNat low.toNat) with
  | some h, some l => some (UInt8.ofNat (16 * h + l))
  | _, _ => none

/-- The percent sign as a byte. -/
def percentSign : UInt8 := 37

/-- The bytes with each escape replaced by its byte; every percent sign has to begin an escape. -/
def unescape : List UInt8 → Option (List UInt8)
  | [] => some []
  | b :: rest =>
    if b = percentSign then
      match rest with
      | high :: low :: rest => do return (← escapedByte? high low) :: (← unescape rest)
      | _ => none
    else (unescape rest).map (b :: ·)

/-- **The text behind a percent encoding.** -/
def decode (value : String) : Except Fault String :=
  match (unescape value.toUTF8.data.toList).bind fun bytes => String.fromUTF8? ⟨bytes.toArray⟩ with
  | some text => .ok text
  | none => .error (.percentEncoding value)

/-! ### Parameters -/

/-- The value of a part of a query, if the part has the given name. -/
def valueOf? (name : String) (part : List Char) : Option String :=
  match splitFirst? '=' part with
  | some (key, value) => if String.ofList key = name then some (String.ofList value) else none
  | none => if String.ofList part = name then some "" else none

/-- The value of the first parameter of a name, still encoded; empty if it has none. -/
def parameter? (query name : String) : Option String :=
  ((afterAll '?' query.toList).splitOn '&').findSome? (valueOf? name)

/-! ### Colors -/

/-- The part of the program that reports about links. -/
def source : String := "colorfn::query"

/-- The decoded value in lower case, or the value itself if it is no percent encoding. -/
def decodeLeniently (raw : String) : Logged String :=
  let small := String.ofList (lower raw.toList)
  match decode small with
  | .ok text => pure text
  | .error f => do
    Logged.report .debug source (f.message ++ "; using the raw query value")
    return small

/-- **The color text a value stands for;** the fragment of the link takes the place of an empty
value. -/
def color? (raw : String) (fragment : Option String) : Logged (Option String) := do
  let decoded ← decodeLeniently raw
  let candidate := if decoded.isEmpty then fragment.getD decoded else decoded
  match Color.read candidate with
  | .ok (_, format) =>
    if format.isHex && candidate.toList.head? ≠ some '#' then return some ("#" ++ candidate)
    else return some candidate
  | .error _ =>
    Logged.report .warn source ("Invalid color provided in URL: " ++ quote raw
      ++ ", using default base color.")
    return none

end CssColor.Link
