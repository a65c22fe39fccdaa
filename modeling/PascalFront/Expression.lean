-- Expressions. The operators bind in three layers: relations, which do not
-- chain, then sums with a sign in front of the first term only, then products.
-- Operators of one layer group to the left. Behind a factor that is none, the
-- token stays where it is, for the enclosing statement list to pass over.
import PascalFront.Parser

namespace PascalFront

/-! ## Operators -/

def relation? : TokenKind → Option NodeKind
  | .equals => some .eq
  | .notEquals => some .ne
  | .lessThan => some .lt
  | .lessEquals => some .le
  | .greaterThan => some .gt
  | .greaterEquals => some .ge
  | _ => none

def sum? : TokenKind → Option NodeKind
  | .plus => some .add
  | .minus => some .subtract
  | .kwOr => some .or
  | _ => none

def product? : TokenKind → Option NodeKind
  | .star => some .multiply
  | .slash => some .floatDivide
  | .kwDiv => some .integerDivide
  | .kwMod => some .mod
  | .kwAnd => some .and
  | _ => none

/-! ## Constants -/

/-- The node of an integer constant; a token that carries no integer counts as zero. -/
def Token.integerNode (t : Token) : Node :=
  match t.value with
  | some (.integer n) => .integer n
  | _ => .integer 0

/-- The node of a real constant; a token that carries no real counts as zero. -/
def Token.realNode (t : Token) : Node :=
  match t.value with
  | some (.real x) => .real x
  | _ => .real .zero

/-- The node of a string constant; a token that carries no text counts as the empty string. -/
def Token.stringNode (t : Token) : Node :=
  match t.value with
  | some (.text s) => .string s
  | _ => .string ""

namespace Parser

/-! ## Factors -/

/-- What stands for an operand where there is none. -/
def noOperand : Parser Node := do
  flag .unexpectedToken
  return { kind := .noOp }

/-- A constant, which is one token. -/
def constant (n : Node) : Parser Node := do
  advance
  return n

/-- A name, a constant, or an expression in parentheses, which `inner` reads. -/
def operand (inner : Parser Node) : Parser Node := do
  let t ← here
  match t.kind with
  | .identifier => return .var (← takeName)
  | .integer => constant t.integerNode
  | .real => constant t.realNode
  | .string => constant t.stringNode
  | .leftParen =>
    advance
    let n ← inner
    expect .rightParen .missingRightParen
    return n
  | .endOfFile => endedEarly
  | _ => noOperand

/-- One turn of `negations`: takes a NOT if it is next and counts it. -/
def negationTurn (n : Nat) : Parser (Option Nat) := do
  if ← accept .kwNot then return some (n + 1) else return none

/-- Takes the NOTs that come next and counts them. -/
def negations : Parser Nat := loop negationTurn 0

/-- A node with some NOTs in front. -/
def negated : Nat → Node → Node
  | 0, n => n
  | k + 1, n => .operator .not [negated k n]

/-- An operand with any number of NOTs in front. -/
def factor (inner : Parser Node) : Parser Node := do
  let k ← negations
  return negated k (← operand inner)

/-! ## Chains -/

/-- One turn of `chain`: an operator and its right operand. -/
def chainTurn (operator? : TokenKind → Option NodeKind) (item : Parser Node) (left : Node) :
    Parser (Option Node) := do
  match operator? (← kind) with
  | none => return none
  | some op =>
    advance
    return some (.binary op left (← item))

/-- Operators of one layer with their right operands, behind the left operand `first`. -/
def chain (operator? : TokenKind → Option NodeKind) (item : Parser Node) (first : Node) :
    Parser Node :=
  loop (chainTurn operator? item) first

def term (inner : Parser Node) : Parser Node := do
  chain product? (factor inner) (← factor inner)

/-- Terms with an optional sign in front. A plus leaves no trace, and a minus belongs to the
first term alone. -/
def simpleExpression (inner : Parser Node) : Parser Node := do
  let sign ← kind
  if sign = .plus ∨ sign = .minus then advance
  let first ← term inner
  chain sum? (term inner) (if sign = .minus then .operator .negate [first] else first)

/-- One expression, where `inner` reads those in parentheses. -/
def expressionLevel (inner : Parser Node) : Parser Node := do
  let left ← simpleExpression inner
  match relation? (← kind) with
  | none => return left
  | some op =>
    advance
    return .binary op left (← simpleExpression inner)

def expression : Parser Node := nest noOperand expressionLevel

end Parser

end PascalFront
