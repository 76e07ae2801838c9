import CssColor.Adjuster
import CssColor.Channel
import CssColor.Color.Fault
import CssColor.Color.Format
import CssColor.Color.Hsl
import CssColor.Color.Hwb
import CssColor.Color.Keyword
import CssColor.Color.Legible
import CssColor.Color.Luminance
import CssColor.Color.Reader
import CssColor.Color.Render
import CssColor.Color.Rgba
import CssColor.Components
import CssColor.Expression.Basic
import CssColor.Expression.Evaluation
import CssColor.Expression.Reader
import CssColor.Expression.Trace
import CssColor.Fault
import CssColor.Link
import CssColor.Log
import CssColor.Number.Binary64
import CssColor.Number.Decimal
import CssColor.Number.Power
import CssColor.Number.Rounding
import CssColor.Number.Scalar
import CssColor.Number.Shortest
import CssColor.Panel
import CssColor.Preferences
import CssColor.Proofs.Color.Alpha
import CssColor.Proofs.Color.Call
import CssColor.Proofs.Color.Keyword
import CssColor.Proofs.Color.Opacity
import CssColor.Proofs.Color.Range
import CssColor.Proofs.Color.ReadBack
import CssColor.Proofs.Color.ReadRange
import CssColor.Proofs.Color.Spelling
import CssColor.Proofs.Expression.Evaluation
import CssColor.Proofs.Expression.Reader
import CssColor.Proofs.Number.Arithmetic
import CssColor.Proofs.Number.Decimal
import CssColor.Proofs.Number.Nearest
import CssColor.Proofs.Number.Range
import CssColor.Proofs.Number.Rounding
import CssColor.Proofs.Session.Derived
import CssColor.Proofs.Session.Identity
import CssColor.Proofs.Session.Run
import CssColor.Proofs.Session.Standard
import CssColor.Proofs.Session.Summary
import CssColor.Proofs.Text.Lowercase
import CssColor.Proofs.Text.Parts
import CssColor.Proofs.Text.Runs
import CssColor.Record
import CssColor.Session
import CssColor.Swatch
import CssColor.Text.Affix
import CssColor.Text.Alphanumeric
import CssColor.Text.Cased
import CssColor.Text.CharSet
import CssColor.Text.Lowercase
import CssColor.Text.Quoted
import CssColor.Text.Space
import CssColor.Text.Visible
import CssColor.TextColor
import CssColor.Proofs.Link.Percent
import CssColor.Proofs.Link.Resolve
import CssColor.Proofs.Link.Parameter
import CssColor.Proofs.Session.Link
import CssColor.Proofs.Expression.Panel
import CssColor.Proofs.Expression.Grammar
import CssColor.Proofs.Expression.Chain
import CssColor.Proofs.Expression.Outcome
import CssColor.Proofs.Color.Grammar
import CssColor.Proofs.Number.Numeral
import CssColor.Proofs.Components.Range
import CssColor.Proofs.Components.Leading
import CssColor.Proofs.Components.Tokens
import CssColor.Proofs.Number.Near
import CssColor.Proofs.Color.Circle
import CssColor.Proofs.Color.Level
import CssColor.Proofs.Color.Ends
import CssColor.Proofs.Color.RoundTrip
import CssColor.Proofs.Color.Shown
import CssColor.Proofs.Color.Functional
import CssColor.Proofs.Expression.Names
import CssColor.Proofs.Session.Preferences
import CssColor.Proofs.Number.Alike
import CssColor.Proofs.Expression.Alpha
import CssColor.Proofs.Expression.TextColor
import CssColor.Proofs.Color.Legible
import CssColor.Proofs.Expression.BlackWhite
import CssColor.Proofs.Expression.Shape
import CssColor.Proofs.Panel.Edits
import CssColor.Proofs.Session.Contrast
import CssColor.Proofs.Exact.Legible
import CssColor.Proofs.Expression.Frame
import CssColor.Proofs.Exact.Hsl
import CssColor.Proofs.Exact.Hwb
import CssColor.Proofs.Exact.Neutral
import CssColor.Proofs.Exact.Checked
import CssColor.Proofs.Exact.Range
import CssColor.Proofs.Log.Run
import CssColor.Proofs.Link.Decoding
import CssColor.Proofs.Text.AnyCase
import CssColor.Proofs.Color.AnyCase
import CssColor.Proofs.Expression.AnyCase
