import CssColor.Number.Binary64

/-! # Numbers: the shortest decimal of a double

`Figures.ofBinary64 x` is the decimal with the fewest significant digits that reads back as the
positive double `x`; among those the nearest, and of two equally near the larger. `positional` and
`scientific` write it with or without an exponent. -/

namespace CssColor.Number

/-- The decimal `0.d₁d₂…dₙ * 10 ^ point`. -/
structure Figures where
  digits : List Char
  point : Int
deriving DecidableEq, Repr

namespace Figures

/-! ### Finding the digits -/

/-- The exponent `p` with `10 ^ p ≤ q < 10 ^ (p + 1)`, for a positive `q`. -/
def decade (q : Rat) : Int :=
  let guess := ((Nat.toDigits 10 q.num.natAbs).length : Int) - (Nat.toDigits 10 q.den).length
  if (10 : Rat) ^ guess ≤ q then guess else guess - 1

/-- The multiple of `unit` beside `q` that reads back as `q`; the nearer one if both do. -/
def beside? (q unit : Rat) : Option Nat :=
  let below := (q / unit).floor
  let reads (m : Int) : Bool := Binary64.ofRat (m * unit) = .finite q
  let upper : Bool := if reads below then reads (below + 1) && 1 / 2 ≤ q / unit - below
    else reads (below + 1)
  if upper then some (below + 1).toNat
  else if reads below then some below.toNat else none

/-- The unit of the last of `n` significant digits of `q`. -/
def lastUnit (q : Rat) (n : Nat) : Rat := (10 : Rat) ^ (decade q + 1 - n)

/-- The decimal `m * unit`, without zeros at its end. -/
def ofMultiple (q : Rat) (n m : Nat) : Figures :=
  let ds := Nat.toDigits 10 m
  ⟨(ds.reverse.dropWhile (· = '0')).reverse, ds.length + (decade q + 1 - n)⟩

/-- **The shortest decimal** that reads back as the positive double `q`; 17 digits always do. -/
def ofValue (q : Rat) : Figures :=
  (((List.range 17).map (· + 1)).findSome? fun n =>
    (beside? q (lastUnit q n)).map (ofMultiple q n)).getD ⟨['0'], 1⟩

/-! ### Writing them -/

/-- Without an exponent. -/
def positional (f : Figures) : List Char :=
  let n := f.digits.length
  if f.point ≤ 0 then '0' :: '.' :: List.replicate (-f.point).toNat '0' ++ f.digits
  else if f.point < n then f.digits.take f.point.toNat ++ '.' :: f.digits.drop f.point.toNat
  else f.digits ++ List.replicate (f.point - n).toNat '0'

/-- Whether the decimal is a whole number. -/
def isWhole (f : Figures) : Bool := f.digits.length ≤ f.point

/-- With one digit before the point and an exponent. -/
def scientific (f : Figures) : List Char :=
  let mantissa := match f.digits with
    | d :: e :: ds => d :: '.' :: e :: ds
    | ds => ds
  mantissa ++ 'e' :: (toString (f.point - 1)).toList

end Figures

end CssColor.Number
