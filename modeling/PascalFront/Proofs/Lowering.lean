-- What the tree of a source program is. The tree knows fewer forms of
-- statements than the source has, and a number for each name; names get their
-- numbers in the order in which they are mentioned.
import PascalFront.Proofs.Grammar

namespace PascalFront

/-! ## Names and expressions -/

def SymbolTable.mentioned (name : String) (line : Nat) : StateM SymbolTable SymbolId :=
  fun table => table.enterAt name line

/-- A name in small letters, as the symbol table has it. -/
def Name.folded (n : Name) : String := caseFold n.text

def Name.enter (n : Name) : StateM SymbolTable SymbolId :=
  SymbolTable.mentioned n.folded n.line

/-- The kind of the node of an operator. -/
def Operator.node : Operator → NodeKind
  | equal => .eq
  | notEqual => .ne
  | less => .lt
  | lessEqual => .le
  | greater => .gt
  | greaterEqual => .ge
  | plus => .add
  | minus => .subtract
  | or => .or
  | times => .multiply
  | slash => .floatDivide
  | div => .integerDivide
  | mod => .mod
  | and => .and

def Value.node : Value → Node
  | integer n => .integer n
  | real x => .real x
  | string s => .string s

def Expr.lower : Expr → StateM SymbolTable Node
  | name n => return .var (← n.enter)
  | literal v => return v.node
  | not e => return .operator .not [← e.lower]
  | negate e => return .operator .negate [← e.lower]
  | binary op left right => return .binary op.node (← left.lower) (← right.lower)

/-! ## Statements -/

/-- An assignment that counts to a line. -/
def Expr.lowerAssign (line : Nat) (target : Name) (value : Expr) : StateM SymbolTable Node :=
  return .statement .assign line [.var (← target.enter), ← value.lower]

def Stmt.isEmpty : Stmt → Bool
  | empty _ => true
  | _ => false

/-- A comparison with the hidden variable of a WHEN statement. -/
def Node.signTest (op : Operator) (hidden : SymbolId) : Node :=
  .binary op.node (.var hidden) (.integer 0)

mutual
def Stmt.lower (settings : Settings) : Stmt → StateM SymbolTable Node
  | empty line => return .statement .noOp line []
  | block line body => return .statement .compound line (← lowerAll settings body)
  | assign target value => value.lowerAssign target.line target
  | call procedure none =>
    return { kind := .call, line := procedure.line, id := ← procedure.enter }
  | call procedure (some args) => do
    let id ← procedure.enter
    let args ← args.mapM Expr.lower
    return { kind := .call, line := procedure.line, id := id,
             children := [.statement .parameters procedure.line args] }
  | ifThen line condition yes =>
    return .statement .branch line [← condition.lower, ← yes.lower settings]
  | ifElse line condition yes no =>
    return .statement .branch line
      [← condition.lower, ← yes.lower settings, ← no.lower settings]
  | whileDo line condition body =>
    return .statement .loop line
      [.statement .test line [← condition.lower], ← body.lower settings]
  | repeatUntil line body testLine condition => do
    let body ← lowerAll settings body
    let condition ← condition.lower
    return .statement .loop line
      (body ++ [.statement .test testLine [.operator .not [condition]]])
  | loop counter first condition target next body => do
    let line := counter.line
    let initial ← first.lowerAssign line counter
    let condition ← condition.lower
    let update ← next.lowerAssign line target
    let body ← body.lower settings
    return .statement .compound line
      [initial, .statement .loop line [.statement .test line [condition], body, update]]
  | when line valueLine value negative zeroLine zero positive => do
    let value ← value.lower
    let hidden ← SymbolTable.mentioned (settings.whenName valueLine) valueLine
    let negative ← negative.lower settings
    let zero ← zero.lower settings
    let positive ← positive.lower settings
    return .statement .compound line
      [.statement .assign valueLine [.var hidden, value],
        .statement .branch line
          [.signTest .less hidden, negative,
            .statement .branch zeroLine [.signTest .equal hidden, zero, positive]]]

/-- The trees of some statements. What is empty behind the last semicolon leaves no trace. -/
def Stmt.lowerAll (settings : Settings) : List Stmt → StateM SymbolTable (List Node)
  | [] => return []
  | s :: rest => do
    if rest.isEmpty && s.isEmpty then return []
    let n ← s.lower settings
    return n :: (← lowerAll settings rest)
end

theorem Stmt.lowerAll_last_empty {settings : Settings} {s : Stmt} (h : s.isEmpty = true)
    (table : SymbolTable) : lowerAll settings [s] table = ([], table) := by
  simp only [lowerAll, h]
  rfl

/-- Only an empty statement behind all others is left out. -/
theorem Stmt.lowerAll_cons {settings : Settings} {s : Stmt} {rest : List Stmt}
    (h : rest ≠ [] ∨ s.isEmpty = false) (table : SymbolTable) :
    lowerAll settings (s :: rest) table =
      ((s.lower settings table).1 :: (lowerAll settings rest (s.lower settings table).2).1,
        (lowerAll settings rest (s.lower settings table).2).2) := by
  have hkeep : (rest.isEmpty && s.isEmpty) = false := by
    rcases h with h | h
    · simp [h]
    · simp [h]
  simp only [lowerAll, hkeep]
  rfl

def Source.lower (settings : Settings) (p : Source) : StateM SymbolTable Node :=
  return .statement .compound p.line (← Stmt.lowerAll settings p.body)

end PascalFront
