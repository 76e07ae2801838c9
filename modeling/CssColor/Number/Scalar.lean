import CssColor.Number.Binary64

/-! # Numbers: the scalars color formulas are written over

A color formula is written once, over any `Scalar`: over `Binary64` it is what the program computes,
over `Rat` it is the formula itself, free of rounding. Literals in a formula are whole numbers, and
`0.05` is written `5 / 100`, which rounds to the same double. -/

namespace CssColor.Number

/-- Numbers with the operations color formulas use. -/
class Scalar (α : Type) extends Add α, Sub α, Mul α, Div α, Neg α, LT α, LE α where
  ofNat : Nat → α
  /-- The remainder of a division toward zero. -/
  rem : α → α → α
  /-- The nearest integer, a half away from zero. -/
  toIntNearest : α → Int
  /-- The integer part. -/
  toIntTruncated : α → Int
  decidableLT : DecidableLT α
  decidableLE : DecidableLE α

namespace Scalar

instance (priority := low) {α : Type} [Scalar α] (n : Nat) : OfNat α n := ⟨ofNat n⟩

instance : Scalar Rat where
  ofNat n := n
  rem x y := x - y * truncate (x / y)
  toIntNearest := roundHalfAway
  toIntTruncated := truncate
  decidableLT := inferInstance
  decidableLE := inferInstance

instance : Scalar Binary64 where
  ofNat n := Binary64.ofRat n
  rem := Binary64.rem
  toIntNearest := Binary64.toIntNearest
  toIntTruncated := Binary64.toIntTruncated
  decidableLT := inferInstance
  decidableLE := inferInstance

variable {α : Type} [Scalar α]

instance (priority := low) (x y : α) : Decidable (x < y) := decidableLT x y
instance (priority := low) (x y : α) : Decidable (x ≤ y) := decidableLE x y

/-- Equality of numbers; it identifies the two zeros and fails on what is not a number. -/
def Same (x y : α) : Prop := x ≤ y ∧ y ≤ x

instance (x y : α) : Decidable (Same x y) := inferInstanceAs (Decidable (_ ∧ _))

/-- The larger of two numbers; the other one if one is not a number. -/
def larger (x y : α) : α := if x < y then y else if x ≤ x then x else y

/-- The smaller of two numbers; the other one if one is not a number. -/
def smaller (x y : α) : α := if y < x then y else if x ≤ x then x else y

/-- `x` moved into the interval from `lo` to `hi`; what is not a number stays. -/
def clamp (lo hi x : α) : α := if x < lo then lo else if hi < x then hi else x

/-- `x` between zero and one. -/
def clampUnit (x : α) : α := clamp 0 1 x

/-- An angle in degrees, reduced into `[0, 360)`. -/
def wrapDegrees (h : α) : α :=
  let r := rem h 360
  if r < 0 then r + 360 else r

end Scalar

end CssColor.Number
