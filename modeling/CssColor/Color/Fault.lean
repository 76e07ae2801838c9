/-! # Colors: why a text is no color

The causes a color text is refused for, and their wording. -/

namespace CssColor

/-- A cause for refusing a color text. -/
inductive ColorFault where
  | empty
  | unknown (text : String)
  | hexLength (length : Nat)
  | hexDigit (c : Char)
  /-- A functional form without an opening parenthesis. -/
  | notOpened (text : String)
  | unknownFunction (name : String)
  /-- A functional form that does not end with a closing parenthesis. -/
  | notClosed (text : String)
  /-- A functional form with less than three or more than four arguments. -/
  | arity (model : String)
  | number (text : String)
deriving DecidableEq, Repr

/-- The wording of a cause. -/
def ColorFault.message : ColorFault → String
  | empty => "empty color string"
  | unknown text => "unknown color: " ++ text
  | hexLength n => "invalid hex color length: " ++ toString n
  | hexDigit c => "invalid hex digit: " ++ String.singleton c
  | notOpened text => "missing '(' in " ++ text
  | unknownFunction name => "unknown color function: " ++ name
  | notClosed text => "missing ')' in " ++ text
  | arity model => model ++ " requires 3 or 4 components"
  | number text => "invalid number: " ++ text

end CssColor
