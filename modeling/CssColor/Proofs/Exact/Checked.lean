import CssColor.Color.Hwb
import CssColor.Proofs.Exact.Scalar

/-! # Divisions by zero

Over the rationals a division by zero has a value like any other, so a formula over them does not
show whether it divides by zero. Over `Checked`, which has one more element, such a division gives
this element, and so does all arithmetic with it; a comparison with it fails. So a rational that
comes out of a formula there was made of quotients by numbers other than zero, and then the formula
is the one over the rationals (`div_rational`, and `add_rational` and its like). -/

namespace CssColor

namespace Number

/-- A rational, or what a division by zero gives. -/
inductive Checked where
  | rational (x : ℚ)
  | undefined
deriving DecidableEq

namespace Checked

/-- An operation that has no value where one of its arguments has none. -/
def lift (f : ℚ → ℚ → Checked) : Checked → Checked → Checked
  | rational x, rational y => f x y
  | _, _ => undefined

/-- A comparison, which fails where one side has no value. -/
def Compared (r : ℚ → ℚ → Prop) : Checked → Checked → Prop
  | rational x, rational y => r x y
  | _, _ => False

instance (r : ℚ → ℚ → Prop) [DecidableRel r] : DecidableRel (Compared r)
  | rational x, rational y => inferInstanceAs (Decidable (r x y))
  | rational _, undefined | undefined, _ => inferInstanceAs (Decidable False)

/-- An integer from a number; zero if there is none. -/
def toInt (f : ℚ → ℤ) : Checked → ℤ
  | rational x => f x
  | undefined => 0

instance : Scalar Checked where
  add := lift fun x y => rational (x + y)
  sub := lift fun x y => rational (x - y)
  mul := lift fun x y => rational (x * y)
  div := lift fun x y => if y = 0 then undefined else rational (x / y)
  neg := lift (fun _ y => rational (-y)) (rational 0)
  lt := Compared (· < ·)
  le := Compared (· ≤ ·)
  ofNat n := rational n
  rem := lift fun x y => if y = 0 then undefined else rational (Scalar.rem x y)
  toIntNearest := toInt roundHalfAway
  toIntTruncated := toInt truncate
  decidableLT := inferInstanceAs (DecidableRel (Compared (· < ·)))
  decidableLE := inferInstanceAs (DecidableRel (Compared (· ≤ ·)))

variable {x y : ℚ}

@[simp] theorem add_rational : rational x + rational y = rational (x + y) := rfl

@[simp] theorem sub_rational : rational x - rational y = rational (x - y) := rfl

/-- **A quotient is a rational** if and only if it is one of rationals by another than zero. -/
theorem div_eq_rational_iff {a b : Checked} {q : ℚ} :
    a / b = rational q ↔ ∃ x y, a = rational x ∧ b = rational y ∧ y ≠ 0 ∧ x / y = q := by
  constructor
  · intro h
    cases a with
    | undefined => cases h
    | rational x =>
      cases b with
      | undefined => cases h
      | rational y =>
        have hite : (if y = 0 then undefined else rational (x / y)) = rational q := h
        split_ifs at hite with hy
        exact ⟨x, y, rfl, rfl, hy, Checked.rational.inj hite⟩
  · rintro ⟨x, y, rfl, rfl, hy, rfl⟩
    exact if_neg hy

theorem div_rational (hy : y ≠ 0) : rational x / rational y = rational (x / y) :=
  div_eq_rational_iff.mpr ⟨x, y, rfl, rfl, hy, rfl⟩

theorem div_literal (x : ℚ) (n : ℕ) [n.AtLeastTwo] :
    rational x / OfNat.ofNat n = rational (x / OfNat.ofNat n) :=
  div_rational (OfNat.ofNat_ne_zero n)

@[simp] theorem rational_lt : rational x < rational y ↔ x < y := Iff.rfl

@[simp] theorem rational_le : rational x ≤ rational y ↔ x ≤ y := Iff.rfl

end Checked

end Number

open Number Number.Scalar Number.Checked

/-! ### Comparisons -/

@[simp] theorem same_rational {x y : ℚ} : Same (rational x) (rational y) ↔ Same x y := Iff.rfl

@[simp] theorem larger_rational (x y : ℚ) :
    larger (rational x) (rational y) = rational (larger x y) := by
  simp only [larger, rational_lt, rational_le, apply_ite rational]

@[simp] theorem smaller_rational (x y : ℚ) :
    smaller (rational x) (rational y) = rational (smaller x y) := by
  simp only [smaller, rational_lt, rational_le, apply_ite rational]

/-! ### Colors -/

/-- A color whose channels are not undefined. -/
def Rgba.checked (c : Rgba ℚ) : Rgba Checked :=
  ⟨rational c.red, rational c.green, rational c.blue, rational c.alpha⟩

/-- A hue, saturation and lightness that are not undefined. -/
def Hsl.checked (c : Hsl ℚ) : Hsl Checked :=
  ⟨rational c.hue, rational c.saturation, rational c.lightness⟩

/-- A hue, whiteness and blackness that are not undefined. -/
def Hwb.checked (c : Hwb ℚ) : Hwb Checked :=
  ⟨rational c.hue, rational c.whiteness, rational c.blackness⟩

namespace Rgba

variable (c : Rgba ℚ)

@[simp] theorem largest_checked : c.checked.largest = rational c.largest := by
  rw [largest, checked, larger_rational, larger_rational, largest]

@[simp] theorem smallest_checked : c.checked.smallest = rational c.smallest := by
  rw [smallest, checked, smaller_rational, smaller_rational, smallest]

/-- The position on the circle is defined if the range of the channels is not zero. -/
theorem sextant_checked (high : ℚ) {range : ℚ} (h : range ≠ 0) :
    c.checked.sextant (rational high) (rational range) = rational (c.sextant high range) := by
  unfold sextant checked
  simp only [same_rational, sub_rational, rational_lt, div_rational h]
  split_ifs <;> rfl

end Rgba

end CssColor
