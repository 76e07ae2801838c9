import CssColor.Components
import CssColor.Expression.Evaluation

/-! # Text colors: what reads well on a base color

The text color for a base is what an evaluator makes of the base, taken as solid, by the adjuster
`contrast`. With the amount `defaultContrast` this is black or white. A base that shines through too
much says nothing about what is seen, and gets black. -/

namespace CssColor

open Number

/-- The amount by which a text color stands out unless another is asked for. -/
def defaultContrast : String := "100%"

/-- The alpha in percent from which a base counts as a backdrop. -/
def minBackdropAlpha : Int := 50

/-- **The text color for a base,** as the evaluator writes it. -/
def Evaluator.textColor (evaluate : Evaluator) (amount base : String) :
    Logged (Except Fault String) :=
  match Components.read base, Color.read base with
  | .ok components, .ok (c, _) =>
    if components.alpha < minBackdropAlpha then pure (.ok (Color.rgbText .black))
    else evaluate (Expression.wrap (Color.rgbText (c.withAlpha 1)) (" contrast(" ++ amount ++ ")"))
  | .error f, _ => pure (.error (.color f))
  | _, .error f => pure (.error (.color f))

end CssColor
