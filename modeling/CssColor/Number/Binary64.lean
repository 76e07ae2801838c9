import CssColor.Number.Rounding

/-! # Numbers: double precision

A `Binary64` is a double of the binary64 format, held as the rational it stands for. Every
operation is the exact one on rationals followed by a single rounding, `Binary64.ofRat`, and the
special values follow the rules of the format: an invalid operation gives `nan`, a division by zero
an infinity, and a zero keeps its sign. Equality in the sense of the format is `x ≤ y ∧ y ≤ x`,
which identifies the two zeros and fails on `nan`. -/

namespace CssColor.Number

/-- A double; `finite` holds every finite value but the negative zero. -/
inductive Binary64 where
  | nan
  | infinity (negative : Bool)
  | negZero
  | finite (q : Rat)
deriving DecidableEq, Repr, Inhabited

namespace Binary64

/-! ### Parts -/

/-- The rational a finite double stands for, zero for the others. -/
def value : Binary64 → Rat
  | finite q => q
  | _ => 0

/-- The sign bit. -/
def isNegative : Binary64 → Bool
  | nan => false
  | infinity s => s
  | negZero => true
  | finite q => q < 0

def isNaN : Binary64 → Bool
  | nan => true
  | _ => false

def isInfinite : Binary64 → Bool
  | infinity _ => true
  | _ => false

def isFinite : Binary64 → Bool
  | negZero | finite _ => true
  | _ => false

def isZero : Binary64 → Bool
  | negZero => true
  | finite q => q = 0
  | _ => false

/-- The zero of a given sign. -/
def zero (negative : Bool) : Binary64 :=
  if negative then negZero else finite 0

/-! ### Rounding -/

/-- The exponent `p` with `2 ^ p ≤ q < 2 ^ (p + 1)`, for a positive `q`. -/
def binade (q : Rat) : Int :=
  let guess := (q.num.natAbs.log2 : Int) - q.den.log2
  if (2 : Rat) ^ guess ≤ q then guess else guess - 1

/-- The spacing of the doubles about `q ≠ 0`: 53 significant bits, and never below `2 ^ (-1074)`. -/
def spacing (q : Rat) : Rat :=
  (2 : Rat) ^ max (binade q.abs - 52) (-1074)

/-- The nearest multiple of the spacing; a half goes to the even multiple. -/
def nearest (q : Rat) : Rat :=
  if q = 0 then 0 else roundHalfEven (q / spacing q) * spacing q

/-- All finite doubles lie strictly between the negative of this and this. -/
def bound : Rat := (2 : Rat) ^ (1024 : Nat)

/-- **The rounding of the format:** the double nearest to a rational. -/
def ofRat (q : Rat) : Binary64 :=
  let v := nearest q
  if v = 0 then zero (q < 0)
  else if bound ≤ v then infinity false
  else if v ≤ -bound then infinity true
  else finite v

/-- The rounding of `q`, where an exact zero takes the given sign. -/
def signed (negative : Bool) (q : Rat) : Binary64 :=
  if q = 0 then zero negative else ofRat q

/-! ### Arithmetic -/

def neg : Binary64 → Binary64
  | nan => nan
  | infinity s => infinity !s
  | negZero => finite 0
  | finite q => if q = 0 then negZero else finite (-q)

def add (x y : Binary64) : Binary64 :=
  if x.isNaN || y.isNaN then nan
  else if x.isInfinite then
    if y.isInfinite && x.isNegative != y.isNegative then nan else x
  else if y.isInfinite then y
  else signed (x.isNegative && y.isNegative) (x.value + y.value)

def sub (x y : Binary64) : Binary64 := add x (neg y)

def mul (x y : Binary64) : Binary64 :=
  let negative := x.isNegative != y.isNegative
  if x.isNaN || y.isNaN then nan
  else if x.isInfinite || y.isInfinite then
    if x.isZero || y.isZero then nan else infinity negative
  else signed negative (x.value * y.value)

def div (x y : Binary64) : Binary64 :=
  let negative := x.isNegative != y.isNegative
  if x.isNaN || y.isNaN then nan
  else if x.isInfinite then
    if y.isInfinite then nan else infinity negative
  else if y.isInfinite then zero negative
  else if y.isZero then
    if x.isZero then nan else infinity negative
  else signed negative (x.value / y.value)

/-- The remainder of a division toward zero; it is exact and has the sign of `x`. -/
def rem (x y : Binary64) : Binary64 :=
  if x.isNaN || y.isNaN || x.isInfinite || y.isZero then nan
  else if y.isInfinite then x
  else signed x.isNegative (x.value - y.value * truncate (x.value / y.value))

instance : Neg Binary64 := ⟨neg⟩
instance : Add Binary64 := ⟨add⟩
instance : Sub Binary64 := ⟨sub⟩
instance : Mul Binary64 := ⟨mul⟩
instance : Div Binary64 := ⟨div⟩
instance (n : Nat) : OfNat Binary64 n := ⟨ofRat n⟩

/-! ### Order -/

/-- A rational in the place of a double among the others; the infinities lie beyond all. -/
def place : Binary64 → Rat
  | infinity false => bound
  | infinity true => -bound
  | x => x.value

/-- A comparison with `nan` fails. -/
instance : LT Binary64 :=
  ⟨fun x y => (x.isNaN || y.isNaN) = false ∧ x.place < y.place⟩

/-- A comparison with `nan` fails. -/
instance : LE Binary64 :=
  ⟨fun x y => (x.isNaN || y.isNaN) = false ∧ x.place ≤ y.place⟩

instance (x y : Binary64) : Decidable (x < y) :=
  inferInstanceAs (Decidable (_ ∧ _))

instance (x y : Binary64) : Decidable (x ≤ y) :=
  inferInstanceAs (Decidable (_ ∧ _))

/-! ### Integers -/

/-- The nearest integer, a half away from zero; zero for what is not finite. -/
def toIntNearest (x : Binary64) : Int := roundHalfAway x.value

/-- The integer part; zero for what is not finite. -/
def toIntTruncated (x : Binary64) : Int := truncate x.value

end Binary64

end CssColor.Number
