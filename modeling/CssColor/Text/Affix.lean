/-! # Text: beginnings and ends

What is left of a text when a beginning or an end is taken off. The functions with a question mark
fail if the text does not have it; the others leave such a text as it is. -/

namespace CssColor.Text

/-- The text after a given beginning. -/
def afterStart? : List Char → List Char → Option (List Char)
  | [], cs => some cs
  | _ :: _, [] => none
  | p :: ps, c :: cs => if p = c then afterStart? ps cs else none

/-- The text before a given end. -/
def beforeEnd? (e cs : List Char) : Option (List Char) :=
  (afterStart? e.reverse cs.reverse).map List.reverse

/-- The text after a beginning, compared without regard to the case of ASCII letters; the beginning
is given in lower case. -/
def afterStartAnyCase? : List Char → List Char → Option (List Char)
  | [], cs => some cs
  | _ :: _, [] => none
  | p :: ps, c :: cs => if p = c.toLower then afterStartAnyCase? ps cs else none

/-- The text after all its leading copies of a character. -/
def afterAll (a : Char) (cs : List Char) : List Char := cs.dropWhile (· = a)

/-- The text without the characters of a class at its end. -/
def dropRightWhile (p : Char → Bool) (cs : List Char) : List Char :=
  (cs.reverse.dropWhile p).reverse

/-- The text before all its trailing copies of a character. -/
def beforeAll (a : Char) (cs : List Char) : List Char := dropRightWhile (· = a) cs

/-- The text on both sides of the first occurrence of a character. -/
def splitFirst? (a : Char) (cs : List Char) : Option (List Char × List Char) :=
  match cs.dropWhile (· ≠ a) with
  | [] => none
  | _ :: after => some (cs.takeWhile (· ≠ a), after)

/-! ### Lengths -/

theorem length_afterStart? {p cs rest : List Char} (h : afterStart? p cs = some rest) :
    cs.length = p.length + rest.length := by
  induction p generalizing cs with
  | nil => simp_all [afterStart?]
  | cons a p ih =>
    cases cs with
    | nil => simp [afterStart?] at h
    | cons c cs =>
      simp only [afterStart?, Option.ite_none_right_eq_some] at h
      simp only [List.length_cons, ih h.2]
      omega

theorem length_afterStartAnyCase? {p cs rest : List Char}
    (h : afterStartAnyCase? p cs = some rest) : cs.length = p.length + rest.length := by
  induction p generalizing cs with
  | nil => simp_all [afterStartAnyCase?]
  | cons a p ih =>
    cases cs with
    | nil => simp [afterStartAnyCase?] at h
    | cons c cs =>
      simp only [afterStartAnyCase?, Option.ite_none_right_eq_some] at h
      simp only [List.length_cons, ih h.2]
      omega

end CssColor.Text
