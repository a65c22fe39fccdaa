-- Where the parser takes up its work again after a syntax error. It passes
-- over tokens until it meets one of the set for its place in the grammar. A
-- statement start is in every such set, or an expression start where a value
-- is due, so no identifier is ever passed over.
import PascalFront.KindSet

namespace PascalFront.ResumePoints

open TokenKind

/-- The tokens that can start a statement. -/
def statementStart : KindSet :=
  .ofList [kwBegin, kwIf, kwRepeat, kwWhile, kwWhen, kwLoop, identifier, semicolon]

/-- The tokens that can come right after a statement. -/
def statementFollow : KindSet :=
  .ofList [semicolon, kwEnd, kwElse, kwUntil, dot, kwEqual0, kwGreaterThan0]

/-- The tokens that can start an expression. -/
def expressionStart : KindSet :=
  .ofList [plus, minus, identifier, integer, real, string, kwNot, leftParen]

/-- The points around the keywords `ks`: a statement may start there or be over. -/
def around (ks : List TokenKind) : KindSet :=
  (statementStart.union (.ofList ks)).union statementFollow

/-- In front of the body of a WHILE or LOOP statement. -/
def beforeDo : KindSet := around [kwDo]

/-- At the end of the header of a LOOP statement, where a semicolon is passed over. -/
def beforeRightParen : KindSet := (beforeDo.insert rightParen).erase semicolon

/-- Behind the condition of an IF statement. -/
def beforeThen : KindSet := around [kwThen]

/-- In front of the first branch of a WHEN statement. The later markers are in the set, so that
a missing first marker does not swallow the rest of the statement. -/
def beforeLessThan0 : KindSet := around [kwLessThan0, kwEqual0, kwGreaterThan0]

/-- In front of the second branch of a WHEN statement. -/
def beforeEqual0 : KindSet := around [kwEqual0, kwGreaterThan0]

/-- In front of the last branch of a WHEN statement. -/
def beforeGreaterThan0 : KindSet := around [kwGreaterThan0]

/-- Behind the target of an assignment. -/
def beforeAssign : KindSet := (expressionStart.insert assign).union statementFollow

end PascalFront.ResumePoints
