import CssColor.Expression.Basic
import CssColor.Number.Decimal
import CssColor.Text.Alphanumeric
import CssColor.Text.Lowercase
import CssColor.Text.Quoted
import CssColor.Text.Space

/-! # Expressions: reading

The grammar, where blanks may stand between any two parts except in front of an opening
parenthesis:

    expression  = "color" "(" base adjustment* ")"
    base        = expression | name "(" text without parentheses ")" | token
    adjustment  = name "(" [sign blank] [amount] ")"
    amount      = [sign] digits ["." digits] ["%" | "deg"]

A sign with a blank after it is a modifier, a sign attached to a number belongs to the number. The
readers work on the front of a text and give back the rest; where a part is missing, `Misread` says
what was expected and where. -/

namespace CssColor.Expression

open Number Text

/-! ### Misreadings -/

/-- What a reader expected. -/
inductive Expected where
  | keyword | character | token | digit
deriving DecidableEq, Repr

/-- The code an expectation is reported by. -/
def Expected.code : Expected → String
  | keyword => "Tag"
  | character => "Char"
  | token => "TakeWhile1"
  | digit => "Digit"

/-- Where a reader stopped, and what it expected there. -/
structure Misread where
  rest : List Char
  expected : Expected
deriving DecidableEq, Repr

/-- The wording of a misreading. -/
def Misread.message (m : Misread) : String :=
  "Parsing Error: Error \x7b input: " ++ quote (String.ofList m.rest) ++ ", code: "
    ++ m.expected.code ++ " \x7d"

/-! ### Tokens -/

/-- A character of a name. -/
def isNameChar (c : Char) : Bool := isAlphanumeric c || c = '-' || c = '_'

/-- A character of a base without parentheses. -/
def isTokenChar (c : Char) : Bool := !isSpace c && c ≠ '(' && c ≠ ')'

/-- A character between the parentheses of a functional base. -/
def isArgumentChar (c : Char) : Bool := c ≠ '(' && c ≠ ')'

/-- The longest run of characters of a class, at least one. -/
def readRun (p : Char → Bool) (cs : List Char) : Except Misread (List Char × List Char) :=
  if (cs.takeWhile p).isEmpty then .error ⟨cs, .token⟩
  else .ok (cs.takeWhile p, cs.dropWhile p)

/-- A name. -/
def readName (cs : List Char) : Except Misread (List Char × List Char) := readRun isNameChar cs

/-- A given character. -/
def readCharacter (c : Char) : List Char → Except Misread (List Char)
  | [] => .error ⟨[], .character⟩
  | d :: cs => if d = c then .ok cs else .error ⟨d :: cs, .character⟩

/-! ### Amounts -/

/-- A decimal without a sign. -/
def readNumber (cs : List Char) : Except Misread (Binary64 × List Char) :=
  match Decimal.plain? cs with
  | some r => .ok r
  | none => .error ⟨cs, .digit⟩

/-- The unit attached to a number. -/
def readUnit (cs : List Char) : AmountUnit × List Char :=
  match afterStart? ['%'] cs, afterStartAnyCase? ['d', 'e', 'g'] cs with
  | some rest, _ => (.percent, rest)
  | none, some rest => (.degrees, rest)
  | none, none => (.number, cs)

/-- A number with an attached sign and unit. -/
def readAmount (cs : List Char) : Except Misread (Amount Binary64 × List Char) := do
  let (negative, rest) := Decimal.splitSign cs
  let (x, rest) ← readNumber rest
  let (unit, rest) := readUnit rest
  return (⟨Decimal.applySign negative x, unit⟩, rest)

/-! ### Adjustments -/

/-- The modifier a sign stands for. -/
def modifierOf? (c : Char) : Option Modifier :=
  [Modifier.add, .subtract, .multiply].find? (·.sign = c)

/-- A sign with a blank after it, and the text after the blanks. -/
def readModifier (cs : List Char) : Option Modifier × List Char :=
  match cs with
  | s :: b :: rest =>
    match modifierOf? s with
    | some m => if isBlank b then (some m, skipBlanks rest) else (none, cs)
    | none => (none, cs)
  | _ => (none, cs)

/-- An amount if there is one. -/
def readAmount? (cs : List Char) : Option (Amount Binary64) × List Char :=
  match readAmount cs with
  | .ok (a, rest) => (some a, rest)
  | .error _ => (none, cs)

/-- An adjustment; its name is taken in lower case. -/
def readAdjustment (cs : List Char) : Except Misread (Adjustment Binary64 × List Char) := do
  let (name, rest) ← readName cs
  let rest ← readCharacter '(' rest
  let (modifier, rest) := readModifier (skipBlanks rest)
  let (amount, rest) := readAmount? (skipBlanks rest)
  let rest ← readCharacter ')' (skipBlanks rest)
  return (⟨String.ofList (lower name), modifier, amount⟩, rest)

/-! ### Lengths of the rests -/

theorem length_lt_of_readRun {p : Char → Bool} {cs w rest : List Char}
    (h : readRun p cs = .ok (w, rest)) : rest.length < cs.length := by
  unfold readRun at h
  split at h
  · cases h
  · next hne =>
    cases h
    have hs := congrArg List.length (List.takeWhile_append_dropWhile (p := p) (l := cs))
    have := List.length_pos_iff.2 (List.isEmpty_eq_false_iff.1 (Bool.eq_false_iff.2 hne))
    simp only [List.length_append] at hs
    omega

theorem length_lt_of_readCharacter {c : Char} {cs rest : List Char}
    (h : readCharacter c cs = .ok rest) : rest.length < cs.length := by
  unfold readCharacter at h
  split at h
  · cases h
  · split at h
    · cases h; simp
    · cases h

theorem length_readUnit_le (cs : List Char) : (readUnit cs).2.length ≤ cs.length := by
  unfold readUnit
  split
  · next h => have := length_afterStart? h; simp at this ⊢; omega
  · next h => have := length_afterStartAnyCase? h; simp at this ⊢; omega
  · exact Nat.le_refl _

theorem length_readModifier_le (cs : List Char) : (readModifier cs).2.length ≤ cs.length := by
  unfold readModifier
  split
  · split
    · split
      · exact Nat.le_trans (length_skipBlanks_le _) (by simp; omega)
      · exact Nat.le_refl _
    · exact Nat.le_refl _
  · exact Nat.le_refl _

theorem length_le_of_readAmount {cs rest : List Char} {a : Amount Binary64}
    (h : readAmount cs = .ok (a, rest)) : rest.length ≤ cs.length := by
  simp only [readAmount, readNumber] at h
  cases hx : Decimal.plain? (Decimal.splitSign cs).2 with
  | none => simp [hx, bind, Except.bind] at h
  | some r =>
    simp only [hx, bind, Except.bind, pure, Except.pure, Except.ok.injEq, Prod.mk.injEq] at h
    rw [← h.2]
    exact Nat.le_trans (length_readUnit_le _)
      (Nat.le_trans (Decimal.length_le_of_plain? hx) (Decimal.length_splitSign_le cs))

theorem length_readAmount?_le (cs : List Char) : (readAmount? cs).2.length ≤ cs.length := by
  unfold readAmount?
  split
  · next h => exact length_le_of_readAmount h
  · exact Nat.le_refl _

theorem length_lt_of_readAdjustment {cs rest : List Char} {a : Adjustment Binary64}
    (h : readAdjustment cs = .ok (a, rest)) : rest.length < cs.length := by
  simp only [readAdjustment, readName] at h
  cases hn : readRun isNameChar cs with
  | error => simp [hn, bind, Except.bind] at h
  | ok n =>
    cases ho : readCharacter '(' n.2 with
    | error => simp [hn, ho, bind, Except.bind] at h
    | ok o =>
      simp only [hn, ho, bind, Except.bind] at h
      split at h
      · cases h
      · next hc =>
        simp only [pure, Except.pure, Except.ok.injEq, Prod.mk.injEq] at h
        obtain ⟨-, rfl⟩ := h
        calc _ < _ := length_lt_of_readCharacter hc
          _ ≤ _ := length_skipBlanks_le _
          _ ≤ _ := length_readAmount?_le _
          _ ≤ _ := length_skipBlanks_le _
          _ ≤ _ := length_readModifier_le _
          _ ≤ _ := length_skipBlanks_le _
          _ ≤ _ := Nat.le_of_lt (length_lt_of_readCharacter ho)
          _ ≤ _ := Nat.le_of_lt (length_lt_of_readRun hn)

/-! ### Bases -/

/-- A name, an opening parenthesis, a text without parentheses and a closing one. -/
def readFunctional (cs : List Char) : Except Misread (List Char × List Char) := do
  let (name, rest) ← readName cs
  let rest ← readCharacter '(' rest
  let content := rest.takeWhile isArgumentChar
  let rest ← readCharacter ')' (rest.dropWhile isArgumentChar)
  return (name ++ '(' :: content ++ [')'], rest)

/-- A base that is a color text. -/
def readLiteral (cs : List Char) : Except Misread (List Char × List Char) :=
  match readFunctional cs with
  | .ok r => .ok r
  | .error _ => readRun isTokenChar cs

/-! ### Expressions -/

/-- The adjustments at the front of a text, and the rest from the blanks after the last. -/
def readAdjustments (cs : List Char) : List (Adjustment Binary64) × List Char :=
  match h : readAdjustment (skipBlanks cs) with
  | .ok (a, rest) =>
    have : rest.length < cs.length :=
      Nat.lt_of_lt_of_le (length_lt_of_readAdjustment h) (length_skipBlanks_le cs)
    let (more, rest) := readAdjustments rest
    (a :: more, rest)
  | .error _ => ([], cs)
termination_by cs.length

/-- The adjustments and the closing parenthesis after a base. -/
def readTail (build : List (Adjustment Binary64) → Expression Binary64) (cs : List Char) :
    Except Misread (Expression Binary64 × List Char) := do
  let (adjustments, rest) := readAdjustments cs
  let rest ← readCharacter ')' (skipBlanks rest)
  return (build adjustments, rest)

/-- The word `color` in either case and an opening parenthesis. -/
def readOpening (cs : List Char) : Except Misread (List Char) :=
  match afterStartAnyCase? "color".toList cs with
  | some rest => readCharacter '(' rest
  | none => .error ⟨cs, .keyword⟩

theorem length_lt_of_readOpening {cs rest : List Char} (h : readOpening cs = .ok rest) :
    rest.length < cs.length := by
  unfold readOpening at h
  split at h
  · next ha =>
    have := length_afterStartAnyCase? ha
    have := length_lt_of_readCharacter h
    omega
  · cases h

/-- **An expression at the front of a text,** and the rest. -/
def readFront (cs : List Char) : Except Misread (Expression Binary64 × List Char) :=
  match h : readOpening cs with
  | .error m => .error m
  | .ok opened =>
    have : (skipBlanks opened).length < cs.length :=
      Nat.lt_of_le_of_lt (length_skipBlanks_le opened) (length_lt_of_readOpening h)
    match readFront (skipBlanks opened) with
    | .ok (base, rest) => readTail (.nested base) rest
    | .error _ =>
      match readLiteral (skipBlanks opened) with
      | .ok (base, rest) => readTail (.literal (String.ofList base)) rest
      | .error m => .error m
termination_by cs.length

end CssColor.Expression
