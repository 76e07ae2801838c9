import CssColor.Channel
import CssColor.Color.Legible
import CssColor.Fault

/-! # Adjusters: what an adjustment does to a color

An `Adjuster` is a channel, whose value is replaced or changed, or one of the mixtures tint, shade
and contrast, which take a plain percentage. `Adjustment.apply` carries out an adjustment as it is
written; it fails exactly on an unknown name, on a missing amount and on a modifier in a mixture. -/

namespace CssColor

open Number Number.Scalar

/-- Something that can be done to a color. -/
inductive Adjuster where
  | channel (c : Channel)
  /-- Mixing with white. -/
  | tint
  /-- Mixing with black. -/
  | shade
  /-- Moving toward a color that is legible on this one. -/
  | contrast
deriving DecidableEq, Repr

namespace Adjuster

def all : List Adjuster := Channel.all.map channel ++ [tint, shade, contrast]

def name : Adjuster → String
  | channel c => c.name
  | tint => "tint"
  | shade => "shade"
  | contrast => "contrast"

/-- The letter an adjuster may be called by. -/
def letter? : Adjuster → Option String
  | channel c => c.letter?
  | tint | shade | contrast => none

/-- The adjuster of a name or a letter. -/
def ofName? (name : String) : Option Adjuster :=
  all.find? fun a => a.name = name || a.letter? = some name

end Adjuster

variable {α : Type} [Scalar α]

/-! ### Amounts -/

/-- The amount as percent, with or without the sign for it, as a share of one. -/
def Amount.percent (a : Amount α) : α := a.value / 100

/-- The amount in the measure of a channel. -/
def Amount.measured (a : Amount α) : Channel → α
  | .alpha => a.fraction
  | .red | .green | .blue => match a.unit with
    | .percent => a.fraction * 255
    | .number | .degrees => a.value
  | .hue => a.value
  | .saturation | .lightness | .whiteness | .blackness => a.percent

/-- What a channel becomes: the amount itself, or the current value changed by the amount; a factor
is the amount as a share of one. -/
def combine (modifier : Option Modifier) (current amount factor : α) : α :=
  match modifier with
  | none => amount
  | some .add => current + amount
  | some .subtract => current - amount
  | some .multiply => current * factor

/-! ### Adjustments -/

namespace Adjustment

/-- The amount of an adjustment that needs one. -/
def required (a : Adjustment α) : Except Fault (Amount α) :=
  match a.amount with
  | some x => .ok x
  | none => .error (.expression (.missingAmount a.name))

/-- Refuses a modifier. -/
def unmodified (a : Adjustment α) : Except Fault Unit :=
  if a.modifier.isSome then .error (.expression (.modified a.name)) else .ok ()

/-- **The color after an adjustment,** for a given measure of luminance. -/
def apply (luminance : Rgba α → α) (a : Adjustment α) (c : Rgba α) : Except Fault (Rgba α) :=
  match Adjuster.ofName? a.name with
  | none => .error (.unknownAdjuster a.name)
  | some (.channel ch) => do
    let x ← a.required
    return ch.set c (combine a.modifier (ch.get c) (x.measured ch) x.fraction)
  | some .tint => do
    a.unmodified
    return c.mix (Rgba.white.withAlpha c.alpha) (← a.required).percent
  | some .shade => do
    a.unmodified
    return c.mix (Rgba.black.withAlpha c.alpha) (← a.required).percent
  | some .contrast => do
    a.unmodified
    return legible luminance c (a.amount.getD ⟨100, .percent⟩).percent

end Adjustment

end CssColor
