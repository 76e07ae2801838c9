import CssColor.Number.Binary64

/-! # Numbers: powers whose exponent is a double

A double that is not negative is `m / 2 ^ k` for whole `m` and `k`, so that a power with a double
for its exponent comes down to whole powers and square roots. `powerFrom` takes the binary digits of
`m` from the last one on: where `m = 2 * m' + b`,

  `q ^ (m / 2 ^ (k + 1)) * r ^ (1 / 2 ^ (k + 1)) = q ^ (m' / 2 ^ k) * √(q ^ b * r) ^ (1 / 2 ^ k)`.

Each root is cut to `rootBits` significant bits. A root halves the relative error of what stands
under it, so the cuts do not add up: together they stay below twice the largest of them, far below
the last place of a double. `Binary64.pow` rounds once, at the end.

The exponent counts as it stands: the double for 2.4 lies a little below 12/5, and its powers may
differ from those of 12/5 in their last place. -/

namespace CssColor.Number

/-! ### Square roots -/

/-- The descent of Newton's iteration from a `guess` above the root of `n`, until it stops. -/
def descend (n guess : Nat) : Nat :=
  let next := (guess + n / guess) / 2
  if _h : next < guess then descend n next else guess
termination_by guess

/-- The greatest `r` with `r * r ≤ n`. -/
def wholeRoot (n : Nat) : Nat := descend n (1 <<< (n.log2 / 2 + 1))

/-- Significant bits kept by `root`. -/
def rootBits : Nat := 96

/-- The square root of `q`, for `0 < q`, cut to its leading `rootBits` bits. -/
def root (q : Rat) : Rat :=
  let unit : Rat := (2 : Rat) ^ (Binary64.binade q / 2 + 1 - rootBits)
  let r : Rat := wholeRoot (q / (unit * unit)).floor.toNat
  r * unit

/-! ### Powers -/

/-- `q ^ (m / 2 ^ k) * r ^ (1 / 2 ^ k)`, for positive `q` and `r`, up to the cuts of the roots. -/
def powerFrom (q r : Rat) : Nat → Nat → Rat
  | 0, m => q ^ m * r
  | k + 1, m => powerFrom q (root (q ^ (m % 2) * r)) k (m / 2)

/-- **The power of two doubles:** the double nearest to `x ^ y`, for `x` not negative and `y`
positive and finite. In lowest terms the denominator of a double is a power of two. -/
def Binary64.pow (x y : Binary64) : Binary64 :=
  if x.isFinite then ofRat (powerFrom x.value 1 y.value.den.log2 y.value.num.toNat) else x

end CssColor.Number
