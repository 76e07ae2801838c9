import CssColor.Number.Scalar

/-! # Expressions: a base color and its adjustments

An `Expression` is what is written `color(red tint(20%) hue(+ 40))`: a base, a color text or
another expression, and the adjustments made to it from left to right. -/

namespace CssColor

open Number

/-- What a number in an adjustment counts. -/
inductive AmountUnit where
  | number | percent | degrees
deriving DecidableEq, Repr

/-- A number with its unit. -/
structure Amount (α : Type) where
  value : α
  unit : AmountUnit
deriving DecidableEq, Repr

/-- The number, a percentage taken as a share of one. -/
def Amount.fraction {α : Type} [Scalar α] (a : Amount α) : α :=
  match a.unit with
  | .percent => a.value / 100
  | .number | .degrees => a.value

/-- How an amount changes what is there instead of replacing it. -/
inductive Modifier where
  | add | subtract | multiply
deriving DecidableEq, Repr

/-- The sign a modifier is written with. -/
def Modifier.sign : Modifier → Char
  | add => '+'
  | subtract => '-'
  | multiply => '*'

/-- An adjustment as it is written: the name of an adjuster and what stands in its parentheses. -/
structure Adjustment (α : Type) where
  name : String
  modifier : Option Modifier
  amount : Option (Amount α)
deriving DecidableEq, Repr

/-- A color expression. -/
inductive Expression (α : Type) where
  | literal (base : String) (adjustments : List (Adjustment α))
  | nested (base : Expression α) (adjustments : List (Adjustment α))
deriving DecidableEq, Repr

/-- The text of an expression from the text of its base and that of its adjustments, which brings
its own space in front. -/
def Expression.wrap (base adjustments : String) : String := "color(" ++ base ++ adjustments ++ ")"

end CssColor
