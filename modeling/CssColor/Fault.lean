import CssColor.Color.Fault
import CssColor.Expression.Reader

/-! # Faults: why a text has no value

The causes that reading and evaluating may fail for. A message is a general part, the same for all
causes of one kind, and the wording of the cause. -/

namespace CssColor

/-- A cause for refusing an expression. -/
inductive ExpressionFault where
  | misread (m : Expression.Misread)
  /-- More text after the end of the expression. -/
  | trailing (rest : String)
  | missingAmount (adjuster : String)
  /-- A modifier in an adjustment that only takes an amount. -/
  | modified (adjuster : String)
  /-- A refusal by an evaluator of another kind, in its own words. -/
  | refused (text : String)
deriving DecidableEq, Repr

/-- The wording of a cause. -/
def ExpressionFault.message : ExpressionFault → String
  | misread m => m.message
  | trailing rest => "Unexpected tokens after expression: " ++ rest
  | missingAmount adjuster => adjuster ++ "() requires an amount"
  | modified adjuster => adjuster ++ "() does not take a modifier"
  | refused text => text

/-- A cause for refusing a text. -/
inductive Fault where
  | color (f : ColorFault)
  | expression (f : ExpressionFault)
  | unknownAdjuster (name : String)
  /-- A value for an adjuster that does not begin with an integer. -/
  | adjusterValue (text : String)
  /-- A base with alpha digits, which expressions do not take. -/
  | unsupportedBase (text : String)
  | percentEncoding (text : String)
deriving DecidableEq, Repr

/-- The wording of a cause. -/
def Fault.message : Fault → String
  | color f => "invalid color: " ++ f.message
  | expression f => "color function syntax error: " ++ f.message
  | unknownAdjuster name => "unknown adjuster: " ++ name
  | adjusterValue text => "invalid adjuster value: " ++ text
  | unsupportedBase text => "unsupported base color for color(): " ++ text
  | percentEncoding text => "malformed percent encoding: " ++ text

/-- A result whose color fault is a fault in general. -/
def Fault.ofColor {α : Type} (r : Except ColorFault α) : Except Fault α := r.mapError .color

end CssColor
