import CssColor.Adjuster
import CssColor.Color.Reader
import CssColor.Color.Render
import CssColor.Expression.Trace
import CssColor.Record

/-! # Expressions: evaluation

`Expression.read` reads a whole text, `Expression.evaluate` gives the color of an expression. The
adjustments of an expression are made to its base from left to right, and the evaluation stops at
the first that fails; each is recorded before it is made. An `Evaluator` takes an expression text to
the text of a color, and `standard` is the one of this language. -/

namespace CssColor

open Text

/-- Something that takes an expression text to a color text. -/
abbrev Evaluator := String → Logged (Except Fault String)

namespace Expression

/-! ### Reading -/

/-- **The expression a text stands for,** without regard to white space around it. -/
def read (text : String) : Except Fault (Expression Number.Binary64) :=
  match readFront (trim text.toList) with
  | .error m => .error (.expression (.misread m))
  | .ok (e, rest) =>
    if (trim rest).isEmpty then .ok e
    else .error (.expression (.trailing (String.ofList (trim rest))))

/-! ### Evaluating -/

/-- The color of a base text; forms with alpha digits are refused. -/
def evaluateLiteral (text : String) : Except Fault Color :=
  match Color.read text with
  | .error f => .error (.color f)
  | .ok (c, format) => if format.isAlphaHex then .error (.unsupportedBase text) else .ok c

/-- The color after some adjustments. -/
def adjust (c : Color) : List (Adjustment Number.Binary64) → Logged (Except Fault Color)
  | [] => pure (.ok c)
  | a :: rest => do
    Logged.report .trace "colorfn::evaluator"
      ("color(): applying " ++ a.recorded ++ " to " ++ c.rgbText)
    match a.apply Color.luminance c with
    | .ok c => adjust c rest
    | .error f => pure (.error f)

/-- The color after some adjustments to a base that may have failed. -/
def adjustResult (base : Except Fault Color) (adjustments : List (Adjustment Number.Binary64)) :
    Logged (Except Fault Color) :=
  match base with
  | .ok c => adjust c adjustments
  | .error f => pure (.error f)

/-- **The color of an expression.** -/
def evaluate : Expression Number.Binary64 → Logged (Except Fault Color)
  | literal text adjustments => adjustResult (evaluateLiteral text) adjustments
  | nested base adjustments => do adjustResult (← base.evaluate) adjustments

end Expression

/-- The evaluator of this language; it answers with the `rgb` or `rgba` form. -/
def Evaluator.standard : Evaluator := fun text =>
  match Expression.read text with
  | .error f => pure (.error f)
  | .ok e => do return (← e.evaluate).map Color.rgbText

end CssColor
