import CssColor.Number.Binary64

/-! # Numbers: reading decimals

A decimal `n * 10 ^ e` stands for the double nearest to it (`ofDecimal`). `readSigned?` reads a
whole text: an optional sign, digits with an optional point among, before or after them, and an
optional exponent; `plain?` reads an unsigned decimal at the front of a text, without an
exponent. -/

namespace CssColor.Number.Decimal

/-- The number a row of decimal digits denotes. -/
def natOfDigits (ds : List Char) : Nat :=
  ds.foldl (fun n d => 10 * n + (d.toNat - '0'.toNat)) 0

/-- The double nearest to `n * 10 ^ e`. The two guards answer what `10 ^ |e| ≥ 2 ^ (3 * |e|)` alone
decides, so that the power is only formed near the range of doubles. -/
def ofDecimal (n : Nat) (e : Int) : Binary64 :=
  let size := (n.log2 : Int) + 3 * e
  if n = 0 then .finite 0
  else if 0 ≤ e ∧ 1024 ≤ size then .infinity false
  else if size < -1080 then .finite 0
  else .ofRat (n * (10 : Rat) ^ e)

/-- The double an unsigned decimal with the given digits before and after its point stands for. -/
def ofParts (whole fraction : List Char) (e : Int) : Binary64 :=
  ofDecimal (natOfDigits (whole ++ fraction)) (e - fraction.length)

/-! ### Signs and exponents -/

/-- An attached sign, true for a minus, and the rest. -/
def splitSign : List Char → Bool × List Char
  | '-' :: cs => (true, cs)
  | '+' :: cs => (false, cs)
  | cs => (false, cs)

/-- `x` with a minus in front if there was one. -/
def applySign (negative : Bool) (x : Binary64) : Binary64 :=
  if negative then -x else x

/-- What stands after a mantissa: nothing, or a marked exponent of at least one digit. -/
def readExponent? : List Char → Option Int
  | [] => some 0
  | c :: cs =>
    let (negative, ds) := splitSign cs
    if (c = 'e' ∨ c = 'E') ∧ ds ≠ [] ∧ ds.all Char.isDigit then
      some (if negative then -(natOfDigits ds : Int) else natOfDigits ds)
    else none

/-! ### Whole texts -/

/-- The digits after a point at the front of a text, and what follows them. -/
def splitFraction : List Char → List Char × List Char
  | '.' :: cs => (cs.takeWhile Char.isDigit, cs.dropWhile Char.isDigit)
  | cs => ([], cs)

/-- A decimal without a sign; it has a digit before or after its point. -/
def readUnsigned? (cs : List Char) : Option Binary64 :=
  let whole := cs.takeWhile Char.isDigit
  let (fraction, rest) := splitFraction (cs.dropWhile Char.isDigit)
  if whole = [] ∧ fraction = [] then none
  else (readExponent? rest).map (ofParts whole fraction)

/-- A decimal with an optional sign. -/
def readSigned? (cs : List Char) : Option Binary64 :=
  let (negative, rest) := splitSign cs
  (readUnsigned? rest).map (applySign negative)

/-- A decimal within the range of doubles. -/
def readFinite? (cs : List Char) : Option Binary64 :=
  (readSigned? cs).filter Binary64.isFinite

/-! ### Decimals at the front of a text -/

/-- The digits after a point that has some, and what follows them; else the text is left whole. -/
def splitPointed (cs : List Char) : List Char × List Char :=
  if (splitFraction cs).1 = [] then ([], cs) else splitFraction cs

/-- The decimal `12` or `12.5` at the front of a text, and the rest; a point needs a digit on both
sides. -/
def plain? (cs : List Char) : Option (Binary64 × List Char) :=
  let whole := cs.takeWhile Char.isDigit
  let (fraction, rest) := splitPointed (cs.dropWhile Char.isDigit)
  if whole = [] then none else some (ofParts whole fraction 0, rest)

/-! ### Lengths -/

theorem length_splitSign_le (cs : List Char) : (splitSign cs).2.length ≤ cs.length := by
  unfold splitSign; split <;> simp

theorem length_splitFraction_le (cs : List Char) : (splitFraction cs).2.length ≤ cs.length := by
  unfold splitFraction
  split
  · exact Nat.le_succ_of_le (List.dropWhile_sublist _).length_le
  · exact Nat.le_refl _

theorem length_splitPointed_le (cs : List Char) : (splitPointed cs).2.length ≤ cs.length := by
  unfold splitPointed
  split
  · exact Nat.le_refl _
  · exact length_splitFraction_le cs

theorem length_le_of_plain? {cs rest : List Char} {x : Binary64} (h : plain? cs = some (x, rest)) :
    rest.length ≤ cs.length := by
  unfold plain? at h
  simp only [Option.ite_none_left_eq_some, Option.some.injEq, Prod.mk.injEq] at h
  obtain ⟨-, -, rfl⟩ := h
  exact Nat.le_trans (length_splitPointed_le _) (List.dropWhile_sublist _).length_le

end CssColor.Number.Decimal
