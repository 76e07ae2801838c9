/-! # Numbers: rounding a rational to an integer

Three ways to an integer: `roundHalfEven` sends a half to the even neighbour, `roundHalfAway` away
from zero, and `truncate` drops the fraction. The first rounds arithmetic, the other two round what
is shown. -/

namespace CssColor.Number

/-- The nearest integer; a half goes to the even neighbour. -/
def roundHalfEven (q : Rat) : Int :=
  let below := q.floor
  let rest := q - below
  if rest < 1 / 2 then below
  else if 1 / 2 < rest then below + 1
  else if below % 2 = 0 then below else below + 1

/-- The nearest integer; a half goes to the neighbour farther from zero. -/
def roundHalfAway (q : Rat) : Int :=
  if q < 0 then -(-q + 1 / 2).floor else (q + 1 / 2).floor

/-- The integer part, toward zero. -/
def truncate (q : Rat) : Int :=
  if q < 0 then -(-q).floor else q.floor

end CssColor.Number
