-- What can be wrong with a program. Each cause has a code that users can look
-- up, one line of description and, for some, a suggestion.

namespace PascalFront

inductive Cause where
  | invalidCharacter
  | invalidNumber
  | integerRange
  | realRange
  | unexpectedEnd
  | unexpectedToken
  | missingAssign
  | missingDo
  | missingEnd
  | missingIdentifier
  | missingLeftParen
  | missingPeriod
  | missingRightParen
  | missingSemicolon
  | missingThen
  | missingUntil
  | missingLessThan0
  | missingEqual0
  | missingGreaterThan0
  | tooManyErrors
  | unreadable
  deriving DecidableEq, Inhabited

namespace Cause

/-- The code of a cause. Lexical causes stand below `P0100` and failures of the surroundings
at `P0900`. -/
def code : Cause → String
  | invalidCharacter => "P0001"
  | invalidNumber => "P0002"
  | integerRange => "P0003"
  | realRange => "P0004"
  | unexpectedEnd => "P0005"
  | unexpectedToken => "P0100"
  | missingAssign => "P0101"
  | missingDo => "P0102"
  | missingEnd => "P0103"
  | missingIdentifier => "P0104"
  | missingLeftParen => "P0105"
  | missingPeriod => "P0106"
  | missingRightParen => "P0107"
  | missingSemicolon => "P0108"
  | missingThen => "P0109"
  | missingUntil => "P0110"
  | missingLessThan0 => "P0111"
  | missingEqual0 => "P0112"
  | missingGreaterThan0 => "P0113"
  | tooManyErrors => "P0199"
  | unreadable => "P0900"

def description : Cause → String
  | invalidCharacter => "invalid character"
  | invalidNumber => "invalid number"
  | integerRange => "integer literal out of range"
  | realRange => "real literal out of range"
  | unexpectedEnd => "unexpected end of file"
  | unexpectedToken => "unexpected token"
  | missingAssign => "missing :="
  | missingDo => "missing DO"
  | missingEnd => "missing END"
  | missingIdentifier => "missing identifier"
  | missingLeftParen => "missing ("
  | missingPeriod => "missing ."
  | missingRightParen => "missing )"
  | missingSemicolon => "missing ;"
  | missingThen => "missing THEN"
  | missingUntil => "missing UNTIL"
  | missingLessThan0 => "missing LESSTHAN0"
  | missingEqual0 => "missing EQUAL0"
  | missingGreaterThan0 => "missing GREATERTHAN0"
  | tooManyErrors => "too many syntax errors"
  | unreadable => "object I/O error"

/-- What the user may try, where there is something to suggest. -/
def suggestion : Cause → Option String
  | unexpectedEnd => some "look for an unclosed comment or string, or a statement cut short"
  | missingAssign => some "assignments are written `name := value`"
  | missingDo => some "add `DO` before the loop body"
  | missingSemicolon => some "separate statements with `;`"
  | missingThen => some "add `THEN` after the IF condition"
  | missingLessThan0 => some "a WHEN statement starts its branches with `LESSTHAN0`"
  | missingEqual0 => some "add the `EQUAL0` branch after the `LESSTHAN0` branch"
  | missingGreaterThan0 => some "add the `GREATERTHAN0` branch after the `EQUAL0` branch"
  | _ => none

/-- A fatal cause ends the parse. -/
def isFatal : Cause → Bool
  | tooManyErrors | unreadable => true
  | _ => false

end Cause

end PascalFront
