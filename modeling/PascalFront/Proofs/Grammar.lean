-- The grammar of the language, as what it allows and not as a way to read it.
-- A sentence goes from one row of tokens to the row that is left behind it. Two
-- rules of choice are part of the grammar: an ELSE belongs to the nearest IF,
-- and the first semicolon in the header of a LOOP may only be left out when
-- what follows does not start with a sign.
import PascalFront.Program

namespace PascalFront

/-! ## Source programs -/

/-- A name as it is written, and the line where it stands. -/
structure Name where
  text : String
  line : Nat
  deriving DecidableEq

inductive Operator where
  -- Relations
  | equal | notEqual | less | lessEqual | greater | greaterEqual
  -- Sums
  | plus | minus | or
  -- Products
  | times | slash | div | mod | and
  deriving DecidableEq

inductive Expr where
  | name (n : Name)
  | literal (v : Value)
  | not (e : Expr)
  | negate (e : Expr)
  | binary (op : Operator) (left right : Expr)

/-- A statement with the lines that its parts stand on. -/
inductive Stmt where
  | empty (line : Nat)
  | block (line : Nat) (body : List Stmt)
  | assign (target : Name) (value : Expr)
  | call (procedure : Name) (args : Option (List Expr))
  | ifThen (line : Nat) (condition : Expr) (yes : Stmt)
  | ifElse (line : Nat) (condition : Expr) (yes no : Stmt)
  | whileDo (line : Nat) (condition : Expr) (body : Stmt)
  | repeatUntil (line : Nat) (body : List Stmt) (testLine : Nat) (condition : Expr)
  | loop (counter : Name) (first condition : Expr) (target : Name) (next : Expr) (body : Stmt)
  | when (line valueLine : Nat) (value : Expr) (negative : Stmt) (zeroLine : Nat)
      (zero positive : Stmt)

structure Source where
  line : Nat
  body : List Stmt

/-! ## Tokens in the grammar -/

/-- The kind of the token that comes next. -/
def kindAhead (ts : List Token) : TokenKind := (ts.head?.map Token.kind).getD .endOfFile

/-- The line of the token that comes next. -/
def lineAhead (ts : List Token) : Nat := (ts.head?.map fun t => t.position.line).getD 0

@[simp] theorem kindAhead_cons (t : Token) (ts : List Token) : kindAhead (t :: ts) = t.kind := rfl

@[simp] theorem lineAhead_cons (t : Token) (ts : List Token) :
    lineAhead (t :: ts) = t.position.line := rfl

namespace Token

def line (t : Token) : Nat := t.position.line

def asName (t : Token) : Name := ⟨t.text, t.line⟩

/-- The constant that a token is. A number without a value counts as zero, and a string without
contents as the empty one. -/
def constant? (t : Token) : Option Value :=
  match t.kind, t.value with
  | .integer, some (.integer n) => some (.integer n)
  | .integer, _ => some (.integer 0)
  | .real, some (.real x) => some (.real x)
  | .real, _ => some (.real .zero)
  | .string, some (.text s) => some (.string s)
  | .string, _ => some (.string "")
  | _, _ => none

end Token

/-! ## Expressions -/

/-- How tightly a phrase binds. -/
inductive Layer where
  | factor | term | simple | expression
  deriving DecidableEq

namespace Operator

/-- The token of an operator. -/
def token : Operator → TokenKind
  | equal => .equals
  | notEqual => .notEquals
  | less => .lessThan
  | lessEqual => .lessEquals
  | greater => .greaterThan
  | greaterEqual => .greaterEquals
  | plus => .plus
  | minus => .minus
  | or => .kwOr
  | times => .star
  | slash => .slash
  | div => .kwDiv
  | mod => .kwMod
  | and => .kwAnd

/-- The layer of the phrases that an operator makes. -/
def layer : Operator → Layer
  | equal | notEqual | less | lessEqual | greater | greaterEqual => .expression
  | plus | minus | or => .simple
  | times | slash | div | mod | and => .term

end Operator

/-- `Phrase layer ts e rest`: the tokens `ts` start with the phrase `e`, and `rest` is left. -/
inductive Phrase : Layer → List Token → Expr → List Token → Prop
  | name {t : Token} {rest : List Token} : t.kind = .identifier →
      Phrase .factor (t :: rest) (.name t.asName) rest
  | literal {t : Token} {rest : List Token} {v : Value} : t.constant? = some v →
      Phrase .factor (t :: rest) (.literal v) rest
  | not {t : Token} {ts rest : List Token} {e : Expr} : t.kind = .kwNot →
      Phrase .factor ts e rest → Phrase .factor (t :: ts) (.not e) rest
  | parens {t u : Token} {ts rest : List Token} {e : Expr} : t.kind = .leftParen →
      Phrase .expression ts e (u :: rest) → u.kind = .rightParen →
      Phrase .factor (t :: ts) e rest
  | factor {ts rest : List Token} {e : Expr} : Phrase .factor ts e rest → Phrase .term ts e rest
  | product {t : Token} {ts mid rest : List Token} {op : Operator} {left right : Expr} :
      op.layer = .term → Phrase .term ts left (t :: mid) → t.kind = op.token →
      Phrase .factor mid right rest → Phrase .term ts (.binary op left right) rest
  | term {ts rest : List Token} {e : Expr} : Phrase .term ts e rest → Phrase .simple ts e rest
  | plus {t : Token} {ts rest : List Token} {e : Expr} : t.kind = .plus →
      Phrase .term ts e rest → Phrase .simple (t :: ts) e rest
  | minus {t : Token} {ts rest : List Token} {e : Expr} : t.kind = .minus →
      Phrase .term ts e rest → Phrase .simple (t :: ts) (.negate e) rest
  | sum {t : Token} {ts mid rest : List Token} {op : Operator} {left right : Expr} :
      op.layer = .simple → Phrase .simple ts left (t :: mid) → t.kind = op.token →
      Phrase .term mid right rest → Phrase .simple ts (.binary op left right) rest
  | simple {ts rest : List Token} {e : Expr} : Phrase .simple ts e rest →
      Phrase .expression ts e rest
  | relation {t : Token} {ts mid rest : List Token} {op : Operator} {left right : Expr} :
      op.layer = .expression → Phrase .simple ts left (t :: mid) → t.kind = op.token →
      Phrase .simple mid right rest → Phrase .expression ts (.binary op left right) rest

/-! ## Statements -/

/-- One or more arguments with commas between them. -/
inductive Arguments : List Token → List Expr → List Token → Prop
  | last {ts rest : List Token} {e : Expr} : Phrase .expression ts e rest →
      Arguments ts [e] rest
  | more {t : Token} {ts mid rest : List Token} {e : Expr} {es : List Expr} :
      Phrase .expression ts e (t :: mid) → t.kind = .comma → Arguments mid es rest →
      Arguments ts (e :: es) rest

inductive Assignment : List Token → Name → Expr → List Token → Prop
  | intro {t u : Token} {ts rest : List Token} {e : Expr} : t.kind = .identifier →
      u.kind = .assign → Phrase .expression ts e rest →
      Assignment (t :: u :: ts) t.asName e rest

/-- A semicolon that may be left out. -/
inductive OptionalSemicolon : List Token → List Token → Prop
  | absent {ts : List Token} : OptionalSemicolon ts ts
  | present {t : Token} {ts : List Token} : t.kind = .semicolon → OptionalSemicolon (t :: ts) ts

mutual
/-- `Statement ts s rest`: the tokens `ts` start with the statement `s`, and `rest` is left. -/
inductive Statement : List Token → Stmt → List Token → Prop
  | empty {ts : List Token} : Statement ts (.empty (lineAhead ts)) ts
  | block {t u : Token} {ts rest : List Token} {body : List Stmt} : t.kind = .kwBegin →
      Statements ts body (u :: rest) → u.kind = .kwEnd →
      Statement (t :: ts) (.block t.line body) rest
  | assign {ts rest : List Token} {target : Name} {value : Expr} :
      Assignment ts target value rest → Statement ts (.assign target value) rest
  | call {t : Token} {rest : List Token} : t.kind = .identifier →
      Statement (t :: rest) (.call t.asName none) rest
  | callEmpty {t u v : Token} {rest : List Token} : t.kind = .identifier →
      u.kind = .leftParen → v.kind = .rightParen →
      Statement (t :: u :: v :: rest) (.call t.asName (some [])) rest
  | callWith {t u v : Token} {ts rest : List Token} {args : List Expr} : t.kind = .identifier →
      u.kind = .leftParen → Arguments ts args (v :: rest) → v.kind = .rightParen →
      Statement (t :: u :: ts) (.call t.asName (some args)) rest
  | ifThen {t u : Token} {ts mid rest : List Token} {condition : Expr} {yes : Stmt} :
      t.kind = .kwIf → Phrase .expression ts condition (u :: mid) → u.kind = .kwThen →
      Statement mid yes rest → kindAhead rest ≠ .kwElse →
      Statement (t :: ts) (.ifThen t.line condition yes) rest
  | ifElse {t u v : Token} {ts mid mid' rest : List Token} {condition : Expr} {yes no : Stmt} :
      t.kind = .kwIf → Phrase .expression ts condition (u :: mid) → u.kind = .kwThen →
      Statement mid yes (v :: mid') → v.kind = .kwElse → Statement mid' no rest →
      Statement (t :: ts) (.ifElse t.line condition yes no) rest
  | whileDo {t u : Token} {ts mid rest : List Token} {condition : Expr} {body : Stmt} :
      t.kind = .kwWhile → Phrase .expression ts condition (u :: mid) → u.kind = .kwDo →
      Statement mid body rest → Statement (t :: ts) (.whileDo t.line condition body) rest
  | repeatUntil {t u : Token} {ts mid rest : List Token} {body : List Stmt} {condition : Expr} :
      t.kind = .kwRepeat → Statements ts body (u :: mid) → u.kind = .kwUntil →
      Phrase .expression mid condition rest →
      Statement (t :: ts) (.repeatUntil t.line body (lineAhead mid) condition) rest
  | loop {t u v w : Token} {ts afterFirst atCondition afterCondition atNext mid rest : List Token}
      {counter target : Name} {first condition next : Expr} {body : Stmt} :
      t.kind = .kwLoop → u.kind = .leftParen → Assignment ts counter first afterFirst →
      OptionalSemicolon afterFirst atCondition →
      (atCondition = afterFirst → kindAhead atCondition ≠ .plus ∧ kindAhead atCondition ≠ .minus) →
      Phrase .expression atCondition condition afterCondition →
      OptionalSemicolon afterCondition atNext → Assignment atNext target next (v :: w :: mid) →
      v.kind = .rightParen → w.kind = .kwDo → Statement mid body rest →
      Statement (t :: u :: ts) (.loop counter first condition target next body) rest
  | when {t u v w : Token} {ts mid afterNegative atZero afterZero rest : List Token} {value : Expr}
      {negative zero positive : Stmt} {beforePositive : List Token} :
      t.kind = .kwWhen → Phrase .expression ts value (u :: mid) → u.kind = .kwLessThan0 →
      Statement mid negative afterNegative → OptionalSemicolon afterNegative (v :: atZero) →
      v.kind = .kwEqual0 → Statement atZero zero afterZero →
      OptionalSemicolon afterZero (w :: beforePositive) → w.kind = .kwGreaterThan0 →
      Statement beforePositive positive rest →
      Statement (t :: ts) (.when t.line (lineAhead ts) value negative v.line zero positive) rest

/-- Statements with semicolons between them. -/
inductive Statements : List Token → List Stmt → List Token → Prop
  | last {ts rest : List Token} {s : Stmt} : Statement ts s rest → Statements ts [s] rest
  | more {t : Token} {ts mid rest : List Token} {s : Stmt} {ss : List Stmt} :
      Statement ts s (t :: mid) → t.kind = .semicolon → Statements mid ss rest →
      Statements ts (s :: ss) rest
end

/-- A whole program, up to the token for the end. -/
inductive IsProgram : List Token → Source → Prop
  | block {t u v stop : Token} {ts : List Token} {body : List Stmt} : t.kind = .kwBegin →
      Statements ts body [u, v, stop] → u.kind = .kwEnd → v.kind = .dot → stop.isEnd = true →
      IsProgram (t :: ts) ⟨t.line, body⟩
  | bare {stop : Token} {ts : List Token} {body : List Stmt} : kindAhead ts ≠ .kwBegin →
      Statements ts body [stop] → stop.isEnd = true → IsProgram ts ⟨lineAhead ts, body⟩

end PascalFront
