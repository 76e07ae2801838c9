import CssColor.Text.Affix
import CssColor.Text.CharSet

/-! # Text: white space and trimming

`isSpace` is the Unicode property White_Space; `trim` drops such characters from both ends. The
expression language itself separates its parts by the four characters of `isBlank` only. -/

namespace CssColor.Text

/-! ### Classes -/

/-- The property White_Space. -/
def whiteSpace : CharSet where
  bounds := [
    0x9, 0xe, 0x20, 0x21, 0x85, 0x86, 0xa0, 0xa1, 0x1680, 0x1681, 0x2000, 0x200b, 0x2028,
    0x202a, 0x202f, 0x2030, 0x205f, 0x2060, 0x3000, 0x3001]

def isSpace (c : Char) : Bool := whiteSpace.contains c

/-- A space, a tab or a line end. -/
def isBlank (c : Char) : Bool := c = ' ' || c = '\t' || c = '\r' || c = '\n'

/-! ### Trimming -/

/-- The text without white space around it. -/
def trim (cs : List Char) : List Char := dropRightWhile isSpace (cs.dropWhile isSpace)

/-- The text without blanks in front. -/
def skipBlanks (cs : List Char) : List Char := cs.dropWhile isBlank

theorem length_skipBlanks_le (cs : List Char) : (skipBlanks cs).length ≤ cs.length :=
  (List.dropWhile_sublist _).length_le

end CssColor.Text
