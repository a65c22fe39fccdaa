-- Statements. The tree knows fewer forms than the source: REPEAT and LOOP
-- become loops with a test, and WHEN becomes two nested IFs over a hidden
-- variable. A token that starts no statement is left alone, and the statement
-- is empty; the list around it decides what to do.
import PascalFront.Expression
import PascalFront.ResumePoints

namespace PascalFront.Parser

open ResumePoints

/-! ## Assignments and calls -/

/-- An assignment. Without a name there is nothing to assign to, and an empty statement stands in
its place. -/
def assignment : Parser Node := do
  let start ← here
  let line := start.position.line
  if start.kind = .identifier then
    let target ← takeName
    expectIn beforeAssign .assign .missingAssign
    let value ← expression
    return .statement .assign line [.var target, value]
  else if start.isEnd then endedEarly
  else
    flag .missingIdentifier
    return .statement .noOp line []

/-- One turn of `arguments`: a comma and the argument behind it. -/
def argumentTurn (args : List Node) : Parser (Option (List Node)) := do
  if ← accept .comma then return some (args ++ [← expression]) else return none

/-- The arguments of a call up to the closing parenthesis. -/
def arguments : Parser (List Node) := do
  if (← kind) = .rightParen then return []
  let first ← expression
  loop argumentTurn [first]

/-- The call of a procedure. Its arguments hang under one node, if there are parentheses. -/
def procedureCall : Parser Node := do
  let line ← line
  let id ← takeName
  if ← accept .leftParen then
    let args ← arguments
    expect .rightParen .missingRightParen
    return { kind := .call, line, id, children := [.statement .parameters line args] }
  else return { kind := .call, line, id }

/-- Whether an identifier in front of a token of this kind is a call. -/
def endsCall (k : TokenKind) : Bool :=
  k == .leftParen || k == .endOfFile || statementFollow.contains k

/-! ## Lists -/

/-- One turn of a statement list: a statement and what separates it from the next. -/
def listTurn (settings : Settings) (inner : Parser Node) (closer : TokenKind) (nodes : List Node) :
    Parser (Option (List Node)) := do
  let k ← kind
  if k = closer ∨ k = .endOfFile then return none
  let node ← inner
  checkLimit settings
  if !(← accept .semicolon) then
    let k ← kind
    if statementStart.contains k then flag .missingSemicolon
    else if k ≠ closer ∧ k ≠ .endOfFile then
      flag .unexpectedToken
      advance
  return some (nodes ++ [node])

/-- Statements up to the token that closes the list, and that token. -/
def statementList (settings : Settings) (inner : Parser Node) (closer : TokenKind)
    (missing : Cause) : Parser (List Node) := do
  let nodes ← loop (listTurn settings inner closer) []
  expect closer missing
  return nodes

/-! ## Compound statements -/

/-- Statements between BEGIN and END. -/
def compound (settings : Settings) (inner : Parser Node) : Parser Node := do
  let line ← line
  advance
  return .statement .compound line (← statementList settings inner .kwEnd .missingEnd)

/-- An IF statement. An ELSE belongs to the nearest IF. -/
def ifStatement (inner : Parser Node) : Parser Node := do
  let line ← line
  advance
  let condition ← expression
  expectIn beforeThen .kwThen .missingThen
  let yes ← inner
  if ← accept .kwElse then return .statement .branch line [condition, yes, ← inner]
  else return .statement .branch line [condition, yes]

/-! ## Loops

A loop runs its children in order, over and over, until the operand of its test
is false when the test is run. -/

/-- A loop that tests first. -/
def whileStatement (inner : Parser Node) : Parser Node := do
  let line ← line
  advance
  let condition ← expression
  expectIn beforeDo .kwDo .missingDo
  let body ← inner
  return .statement .loop line [.statement .test line [condition], body]

/-- A loop that tests last, and ends when its condition holds. -/
def repeatStatement (settings : Settings) (inner : Parser Node) : Parser Node := do
  let start ← line
  advance
  let nodes ← statementList settings inner .kwUntil .missingUntil
  let testLine ← line
  let condition ← expression
  return .statement .loop start
    (nodes ++ [.statement .test testLine [.operator .not [condition]]])

/-- A counting loop: the first assignment, then a loop that tests, runs the body and then the
second assignment. All of it counts to the line of the first assignment. -/
def loopStatement (inner : Parser Node) : Parser Node := do
  advance
  expect .leftParen .missingLeftParen
  let line ← line
  let initial ← assignment
  let _ ← accept .semicolon
  let condition ← expression
  let _ ← accept .semicolon
  let update ← assignment
  expectIn beforeRightParen .rightParen .missingRightParen
  expectIn beforeDo .kwDo .missingDo
  let body ← inner
  return .statement .compound line
    [initial,
      .statement .loop line
        [.statement .test line [condition], body, { update with line := some line }]]

/-! ## WHEN statements -/

/-- A comparison of the hidden variable with zero. -/
def againstZero (kind : NodeKind) (hidden : SymbolId) : Node :=
  .binary kind (.var hidden) (.integer 0)

/-- A branch on a sign. The expression is stored in a hidden variable, which is then tested for
being negative and for being zero; a third test is not needed. -/
def whenStatement (settings : Settings) (inner : Parser Node) : Parser Node := do
  let start ← line
  advance
  let valueLine ← line
  let value ← expression
  let hidden ← enter (settings.whenName valueLine) valueLine
  expectIn beforeLessThan0 .kwLessThan0 .missingLessThan0
  let negative ← inner
  let _ ← accept .semicolon
  resumeAt beforeEqual0
  let zeroLine ← line
  expect .kwEqual0 .missingEqual0
  let zero ← inner
  let _ ← accept .semicolon
  expectIn beforeGreaterThan0 .kwGreaterThan0 .missingGreaterThan0
  let positive ← inner
  return .statement .compound start
    [.statement .assign valueLine [.var hidden, value],
      .statement .branch start
        [againstZero .lt hidden, negative,
          .statement .branch zeroLine [againstZero .eq hidden, zero, positive]]]

/-! ## All statements -/

/-- An empty statement, which takes no token. -/
def emptyStatement : Parser Node := do return .statement .noOp (← line) []

/-- One statement, where `inner` reads the statements in it. -/
def statementLevel (settings : Settings) (inner : Parser Node) : Parser Node := do
  match ← kind with
  | .kwBegin => compound settings inner
  | .identifier => if endsCall (← nextKind) then procedureCall else assignment
  | .kwIf => ifStatement inner
  | .kwWhile => whileStatement inner
  | .kwRepeat => repeatStatement settings inner
  | .kwLoop => loopStatement inner
  | .kwWhen => whenStatement settings inner
  | _ => emptyStatement

def statement (settings : Settings) : Parser Node := nest emptyStatement (statementLevel settings)

end PascalFront.Parser
