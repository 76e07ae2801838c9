import CssColor.Expression.Basic
import CssColor.Number.Shortest
import CssColor.Text.Quoted

/-! # Expressions: adjustments in records

The text an adjustment has in a record: all its parts by name, absent parts as `None`. Numbers keep
a decimal place, and have an exponent below `10 ^ (-4)` and from `10 ^ 16` on. -/

namespace CssColor

open Number

/-- Whether a positive number is written with an exponent in a record. -/
def hasExponent (q : Rat) : Bool := q < 1 / 10000 || (10 : Rat) ^ (16 : Nat) ≤ q

/-- The text of a positive number in a record. -/
def recordedDigits (q : Rat) : List Char :=
  let f := Figures.ofValue q
  if hasExponent q then f.scientific
  else if f.isWhole then f.positional ++ ['.', '0'] else f.positional

/-- The text of a number in a record. -/
def recordedNumber : Binary64 → String
  | .nan => "NaN"
  | .infinity negative => if negative then "-inf" else "inf"
  | x =>
    let digits := if x.isZero then ['0', '.', '0'] else recordedDigits x.value.abs
    String.ofList (if x.isNegative then '-' :: digits else digits)

/-- The name of a unit in a record. -/
def AmountUnit.recorded : AmountUnit → String
  | number => "Number"
  | percent => "Percent"
  | degrees => "Degrees"

/-- The name of a modifier in a record. -/
def Modifier.recorded : Modifier → String
  | add => "Add"
  | subtract => "Subtract"
  | multiply => "Multiply"

/-- The text of an amount in a record. -/
def Amount.recorded (a : Amount Binary64) : String :=
  "Amount \x7b value: " ++ recordedNumber a.value ++ ", unit: " ++ a.unit.recorded ++ " \x7d"

/-- The text of a part that may be absent. -/
def recordedOption (part : Option String) : String :=
  match part with
  | some text => "Some(" ++ text ++ ")"
  | none => "None"

/-- The text of an adjustment in a record. -/
def Adjustment.recorded (a : Adjustment Binary64) : String :=
  "AdjusterCall \x7b name: " ++ Text.quote a.name
    ++ ", modifier: " ++ recordedOption (a.modifier.map Modifier.recorded)
    ++ ", amount: " ++ recordedOption (a.amount.map Amount.recorded) ++ " \x7d"

end CssColor
