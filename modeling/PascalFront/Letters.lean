-- Letters, digits and blanks, as the source language sees them. Words may use
-- any letter of Unicode; numbers use the ten ASCII digits alone.
import PascalFront.Letters.Ranges

namespace PascalFront

/-! ## Membership in a table of runs -/

/-- Whether `n` lies in one of the sorted intervals. -/
def Letters.inRanges : List (Nat × Nat) → Nat → Bool
  | [], _ => false
  | (first, last) :: rest, n => if n ≤ last then decide (first ≤ n) else inRanges rest n

/-! ## The classes of the language -/

/-- A character that can begin a word. -/
def isLetter (c : Char) : Bool := Letters.inRanges Letters.letterRanges c.toNat

/-- A numeric character of any script. -/
def isNumeral (c : Char) : Bool := Letters.inRanges Letters.numeralRanges c.toNat

/-- A character that can follow in a word. -/
def isWordChar (c : Char) : Bool := isLetter c || isNumeral c || c == '_'

/-- A character that separates tokens. -/
def isBlank (c : Char) : Bool := Letters.inRanges Letters.blankRanges c.toNat

/-- An ASCII digit, the only kind that numbers are written with. -/
def isDigit (c : Char) : Bool := '0' ≤ c && c ≤ '9'

/-- The value of an ASCII digit. -/
def digitValue (c : Char) : Nat := c.toNat - '0'.toNat

/-- The number that a row of ASCII digits writes in base ten. -/
def numberOf (digits : List Char) : Nat := digits.foldl (fun n c => 10 * n + digitValue c) 0

end PascalFront
