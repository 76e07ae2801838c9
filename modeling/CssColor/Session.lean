import CssColor.Link
import CssColor.Panel
import CssColor.Preferences
import CssColor.TextColor

/-! # Sessions: building a color from a base

A `Session` holds what a builder of colors shows: the base as typed and as last understood, the
panel, and what follows from them, the two expressions, the output color and the text colors for
base and output. Every command leaves these in agreement (`Session.refresh`); a base that cannot be
read only changes the typed text. -/

namespace CssColor

/-! ### Settings and faults -/

/-- What a session starts from. -/
structure Settings where
  /-- The base if no other is given. -/
  defaultBase : String := "#2ac20d"
  /-- The parameter of a query that holds a base. -/
  parameter : String := "color"
  /-- The key the choice of names is kept under. -/
  shortNamesKey : String := "useShortNames"
deriving DecidableEq, Repr

/-- Why a command of a session failed. -/
inductive SessionFault where
  | color (f : Fault)
  | store (f : StoreFault)
deriving DecidableEq, Repr

/-- The wording of a cause. -/
def SessionFault.message : SessionFault → String
  | color f => "Color error: " ++ f.message
  | store f => "Preference store error: " ++ f.text

/-! ### Sessions -/

/-- The state of a builder of colors. -/
structure Session (σ : Type) where
  settings : Settings
  store : σ
  evaluator : Evaluator
  /-- The base as it was last typed. -/
  baseInput : String
  /-- The base as it was last understood. -/
  base : Swatch
  baseContrast : String
  panel : Panel
  /-- The expression with long names. -/
  expression : String
  /-- The expression with short names. -/
  shortExpression : String
  output : Swatch
  outputContrast : String
  useShortNames : Bool
  selectedFormat : Option Format

namespace Session

/-- The part of the program that reports about sessions. -/
def source : String := "colorme::session"

/-! ### What follows from base and panel -/

/-- A base as expressions take it: in the `rgba` form if it is written with alpha digits. -/
def expressionBase (base : Swatch) : String :=
  if base.format.isAlphaHex then base.rgbText else base.display

/-- The text color for a color, black if there is none. -/
def contrastFor (evaluate : Evaluator) (s : Swatch) : Logged String := do
  match ← evaluate.textColor defaultContrast s.rgbText with
  | .ok text => return text
  | .error f =>
    Logged.report .warn source ("Could not compute contrast for " ++ s.display ++ ": " ++ f.message)
    return Color.rgbText .black

/-- The color of what an evaluator answers. -/
def evaluated (evaluate : Evaluator) (expression : String) : Logged (Except Fault Swatch) := do
  return (← evaluate expression).bind fun text => Fault.ofColor (Swatch.read text)

/-- The color of an expression, the base if it has none. -/
def outputFor (evaluate : Evaluator) (expression : String) (base : Swatch) : Logged Swatch := do
  match ← evaluated evaluate expression with
  | .ok s => return s
  | .error f =>
    Logged.report .warn source ("Could not evaluate " ++ expression ++ ": " ++ f.message
      ++ "; showing the base color")
    return base

variable {σ : Type}

/-- The session with expressions, output and its text color following from base and panel. -/
def refresh (s : Session σ) : Logged (Session σ) := do
  let base := expressionBase s.base
  let expression := Expression.wrap base (s.panel.adjustmentsText false)
  let shortExpression := Expression.wrap base (s.panel.adjustmentsText true)
  let output ← outputFor s.evaluator expression s.base
  let outputContrast ← contrastFor s.evaluator output
  return { s with expression, shortExpression, output, outputContrast }

/-- The session on another base, with a panel for it. -/
def withBase (s : Session σ) (base : Swatch) (panel : Panel) : Logged (Session σ) := do
  let baseContrast ← contrastFor s.evaluator base
  refresh { s with base, baseContrast, panel }

/-- A base text as a color, with the panel seeded from it. -/
def readBase (text : String) : Except ColorFault (Swatch × Panel) := do
  return (← Swatch.read text, ← Panel.seeded {} text)

/-! ### Starting -/

variable [PreferenceStore σ]

/-- The choice of names kept in a store, long names if it cannot be read. -/
def keptShortNames (settings : Settings) (store : σ) : Logged Bool :=
  match PreferenceStore.readFlag store settings.shortNamesKey with
  | .ok flag => pure flag
  | .error f => do
    Logged.report .warn source ("Could not read " ++ settings.shortNamesKey ++ ": "
      ++ (SessionFault.store f).message)
    return false

/-- A session on a base. -/
def startOn (settings : Settings) (store : σ) (evaluator : Evaluator) (text : String) :
    Logged (Except SessionFault (Session σ)) :=
  match readBase text with
  | .error f => pure (.error (.color (.color f)))
  | .ok (base, panel) => do
    let useShortNames ← keptShortNames settings store
    let blank : Session σ := {
      settings, store, evaluator, base, panel, useShortNames
      baseInput := text
      baseContrast := ""
      expression := ""
      shortExpression := ""
      output := base
      outputContrast := ""
      selectedFormat := none }
    return .ok (← blank.withBase base panel)

/-- **A new session,** on the default base. -/
def start (settings : Settings) (store : σ) (evaluator : Evaluator) :
    Logged (Except SessionFault (Session σ)) :=
  startOn settings store evaluator settings.defaultBase

/-- **A session opened by a link,** on the color in its query or else on the default base. -/
def openLink (settings : Settings) (store : σ) (evaluator : Evaluator) (query : String)
    (fragment : Option String) : Logged (Except SessionFault (Session σ)) := do
  let linked ← match Link.parameter? query settings.parameter with
    | some raw => Link.color? raw fragment
    | none => pure none
  startOn settings store evaluator (linked.getD settings.defaultBase)

/-! ### Commands -/

omit [PreferenceStore σ] in
/-- The session after a base is typed, and whether it could be read. -/
def setBase (s : Session σ) (text : String) : Logged (Bool × Session σ) :=
  let typed := { s with baseInput := text }
  match readBase text with
  | .ok (base, panel) => do return (true, ← typed.withBase base panel)
  | .error f => do
    Logged.report .debug source ("Ignoring base color input " ++ Text.quote text ++ ": "
      ++ (Fault.color f).message)
    return (false, typed)

omit [PreferenceStore σ] in
/-- Whether a change to a control can be made, and the session after it. -/
def editPanel (s : Session σ) (target : String) (e : Edit) :
    Logged (Except SessionFault Unit × Session σ) :=
  let (answer, panel) := s.panel.edit target e
  match answer with
  | .ok () => do return (.ok (), ← refresh { s with panel })
  | .error f => pure (.error (.color f), { s with panel })

/-- Whether the choice of names can be kept, and the session after it is made. -/
def setShortNames (s : Session σ) (useShortNames : Bool) :
    Logged (Except SessionFault Unit × Session σ) :=
  match PreferenceStore.writeFlag s.store s.settings.shortNamesKey useShortNames with
  | .ok store => do
    Logged.report .debug source (s.settings.shortNamesKey ++ " = " ++ toString useShortNames)
    return (.ok (), { s with store, useShortNames })
  | .error f => pure (.error (.store f), s)

omit [PreferenceStore σ] in
/-- The session after a form for the output is chosen, or none. -/
def selectFormat (s : Session σ) (format : Option Format) : Session σ :=
  { s with selectedFormat := format }

/-! ### What is shown -/

omit [PreferenceStore σ]

/-- The expression with the chosen names. -/
def displayExpression (s : Session σ) : String :=
  if s.useShortNames then s.shortExpression else s.expression

/-- The adjustments with the chosen names. -/
def displayAdjustments (s : Session σ) : String :=
  String.ofList (Text.trim (s.panel.adjustmentsText s.useShortNames).toList)

/-- The output in the chosen form, else in its own. -/
def displayOutput (s : Session σ) : String :=
  (s.selectedFormat.bind s.output.rendering?).getD s.output.display

end Session

end CssColor
