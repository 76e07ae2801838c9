import CssColor.Adjuster
import CssColor.Components

/-! # Panels: the adjusters offered for a base color

A `Panel` has a control for each of nine adjusters, in a fixed order: a switch and an integer. Its
switched-on controls, written one after the other, are the adjustments of an expression
(`Panel.adjustmentsText`). A panel is seeded with the components of a color (`Panel.seeded`) and
changed one control at a time (`Panel.edit`). -/

namespace CssColor

/-! ### Kinds of controls -/

/-- An adjuster that has a control. -/
inductive ControlKind where
  | alpha | saturation | hue | lightness | whiteness | blackness | tint | shade | contrast
deriving DecidableEq, Repr

namespace ControlKind

/-- All kinds, in the order of a panel. -/
def all : List ControlKind :=
  [alpha, saturation, hue, lightness, whiteness, blackness, tint, shade, contrast]

/-- What a control adjusts. -/
def adjuster : ControlKind → Adjuster
  | alpha => .channel .alpha
  | saturation => .channel .saturation
  | hue => .channel .hue
  | lightness => .channel .lightness
  | whiteness => .channel .whiteness
  | blackness => .channel .blackness
  | tint => .tint
  | shade => .shade
  | contrast => .contrast

def name (k : ControlKind) : String := k.adjuster.name

def shortName? (k : ControlKind) : Option String := k.adjuster.letter?

/-- The channel a control starts from, if it adjusts one. -/
def channel? (k : ControlKind) : Option Channel :=
  match k.adjuster with
  | .channel c => some c
  | .tint | .shade | .contrast => none

/-- The unit behind a value: percent, but none for a hue. -/
def unit? : ControlKind → Option String
  | hue => none
  | _ => some "%"

/-- The upper end of the range a control shows. -/
def maxValue : ControlKind → Int
  | hue => 360
  | _ => 100

def ofName? (name : String) : Option ControlKind := all.find? (·.name = name)

/-- The kind a control is addressed by: its name, which the field for its value follows with
`Value`. -/
def ofTarget? (target : String) : Option ControlKind :=
  ofName? (((Text.beforeEnd? "Value".toList target.toList).map String.ofList).getD target)

end ControlKind

/-! ### Panels -/

/-- The state of a control. -/
structure Setting where
  enabled : Bool := false
  value : Int := 0
deriving DecidableEq, Repr

/-- The state of every control. -/
structure Panel where
  setting : ControlKind → Setting := fun _ => {}

/-- A change to a control. -/
inductive Edit where
  | toggle
  /-- A value as it is typed. -/
  | setValue (text : String)
deriving DecidableEq, Repr

/-- The call of an adjuster with a value, by its short name if that is wanted and there is one. -/
def ControlKind.call (k : ControlKind) (value : Int) (short : Bool) : String :=
  let name := if short then k.shortName?.getD k.name else k.name
  name ++ "(" ++ toString value ++ k.unit?.getD "" ++ ")"

namespace Panel

/-- The kinds that are switched on. -/
def enabled (p : Panel) : List ControlKind := ControlKind.all.filter fun k => (p.setting k).enabled

/-- The panel with a control replaced. -/
def update (p : Panel) (k : ControlKind) (s : Setting) : Panel :=
  ⟨fun j => if j = k then s else p.setting j⟩

/-- The panel with everything switched off and the components of a color text in its controls; a
control without a channel keeps its value. -/
def seeded (p : Panel) (text : String) : Except ColorFault Panel := do
  let components ← Components.read text
  return ⟨fun k => ⟨false, (k.channel?.map components.get).getD (p.setting k).value⟩⟩

/-- Whether a change to a control can be made, and the control after it; a value that is set also
switches it on. -/
def changed (s : Setting) : Edit → Except Fault Unit × Setting
  | .toggle => (.ok (), { s with enabled := !s.enabled })
  | .setValue text =>
    match leadingInt? text.toList with
    | some n => (.ok (), { s with value := n, enabled := true })
    | none => (.error (.adjusterValue text), s)

/-- **Whether a change can be made** to the control of a name, and the panel after it. -/
def edit (p : Panel) (target : String) (e : Edit) : Except Fault Unit × Panel :=
  match ControlKind.ofTarget? target with
  | some k =>
    let (answer, s) := changed (p.setting k) e
    (answer, p.update k s)
  | none => (.error (.unknownAdjuster target), p)

/-- The calls of the controls switched on, each with a space in front. -/
def adjustmentsText (p : Panel) (short : Bool) : String :=
  String.join (p.enabled.map fun k => " " ++ k.call (p.setting k).value short)

end Panel

end CssColor
