-- What programs mean, in the source and as trees. Both run on one machine, which
-- lets be seen what the variables of the program and the procedures have to do
-- with each other. The hidden variables of WHEN statements cannot be seen.
import PascalFront.Proofs.Lowering

namespace PascalFront

/-! ## Interpretations -/

/-- A meaning of the operators and constants over the integers. Little is fixed: NOT turns truth
around, zero is zero, and two comparisons with zero are those of the integers. -/
structure Interpretation where
  truth : Int → Bool
  not : Int → Int
  negate : Int → Int
  binary : Operator → Int → Int → Int
  constant : Value → Int
  truth_not : ∀ a, truth (not a) = !truth a
  constant_zero : constant (.integer 0) = 0
  truth_less_zero : ∀ a, truth (binary .less a 0) = decide (a < 0)
  truth_equal_zero : ∀ a, truth (binary .equal a 0) = decide (a = 0)

/-! ## The machine -/

/-- What can be seen of a run. -/
inductive Event where
  | read (name : String) (value : Int)
  | write (name : String) (value : Int)
  | call (name : String) (args : List Int)
  /-- The start of another turn of a loop. -/
  | turn
  deriving DecidableEq

structure Machine where
  store : String → Int
  /-- The events so far, the latest first. -/
  events : List Event
  /-- How many events there may still be. -/
  budget : Nat

/-- The names of the hidden variables of WHEN statements. -/
def isHidden (name : String) : Bool :=
  ({} : Settings).whenStem.toList.isPrefixOf name.toList

namespace Machine

def set (m : Machine) (name : String) (value : Int) : Machine :=
  { m with store := fun n => if n = name then value else m.store n }

/-- Notes an event, and nothing any more once the budget is used up. -/
def note (m : Machine) (e : Event) : Machine :=
  if m.budget = 0 then m else { m with events := e :: m.events, budget := m.budget - 1 }

end Machine

abbrev Run := StateM Machine

namespace Run

def note (e : Event) : Run Unit := fun m => ((), m.note e)

def read (name : String) : Run Int := fun m =>
  (m.store name, if isHidden name then m else m.note (.read name (m.store name)))

def write (name : String) (value : Int) : Run Unit := fun m =>
  if isHidden name then ((), m.set name value)
  else if m.budget = 0 then ((), m)
  else ((), (m.note (.write name value)).set name value)

/-- Whether no event may follow any more. -/
def spent : Run Bool := fun m => (m.budget == 0, m)

/-- At most `n` turns of a loop, each of which says whether there is to be another one. -/
def turns (turn : Run Bool) : Nat → Run Unit
  | 0 => pure ()
  | n + 1 => do
    if !(← spent) then
      note .turn
      if ← turn then turns turn n

/-- A loop. It takes an event for each turn, so the budget is a bound for the turns. -/
def loop (turn : Run Bool) : Run Unit := fun m => turns turn m.budget m

end Run

/-! ## Source programs -/

section

variable (I : Interpretation)

def Expr.eval : Expr → Run Int
  | name n => Run.read n.folded
  | literal v => return I.constant v
  | not e => return I.not (← e.eval)
  | negate e => return I.negate (← e.eval)
  | binary op left right => return I.binary op (← left.eval) (← right.eval)

def Expr.assignTo (target : Name) (value : Expr) : Run Unit := do
  let v ← value.eval I
  Run.write target.folded v

mutual
def Stmt.run : Stmt → Run Unit
  | empty _ => return
  | block _ body => runAll body
  | assign target value => value.assignTo I target
  | call procedure args => do
    let values ← (args.getD []).mapM (Expr.eval I)
    Run.note (.call procedure.folded values)
  | ifThen _ condition yes => do
    if I.truth (← condition.eval I) then yes.run
  | ifElse _ condition yes no => do
    if I.truth (← condition.eval I) then yes.run else no.run
  | whileDo _ condition body => Run.loop do
    if I.truth (← condition.eval I) then
      body.run
      return true
    else return false
  | repeatUntil _ body _ condition => Run.loop do
    runAll body
    return !I.truth (← condition.eval I)
  | loop counter first condition target next body => do
    first.assignTo I counter
    Run.loop do
      if I.truth (← condition.eval I) then
        body.run
        next.assignTo I target
        return true
      else return false
  | when _ _ value negative _ zero positive => do
    let v ← value.eval I
    if v < 0 then negative.run else if v = 0 then zero.run else positive.run

def Stmt.runAll : List Stmt → Run Unit
  | [] => return
  | s :: rest => do
    s.run
    runAll rest
end

def Source.run (p : Source) : Run Unit := Stmt.runAll I p.body

end

/-! ## Trees -/

/-- The operator that a kind of node stands for. -/
def NodeKind.operator? : NodeKind → Option Operator
  | eq => some .equal
  | ne => some .notEqual
  | lt => some .less
  | le => some .lessEqual
  | gt => some .greater
  | ge => some .greaterEqual
  | add => some .plus
  | subtract => some .minus
  | or => some .or
  | multiply => some .times
  | floatDivide => some .slash
  | integerDivide => some .div
  | mod => some .mod
  | and => some .and
  | _ => none

section

variable (I : Interpretation) (names : SymbolTable)

/-- The value of a node from those of its operands. -/
def NodeKind.eval (kind : NodeKind) (id : Option SymbolId) (value : Option Value)
    (operands : List (Run Int)) : Run Int :=
  match kind, operands with
  | .var, _ => Run.read ((id.map names.nameOf).getD "")
  | .integerConstant, _ | .realConstant, _ | .stringConstant, _ =>
    return (value.map I.constant).getD 0
  | .not, [e] => return I.not (← e)
  | .negate, [e] => return I.negate (← e)
  | kind, [left, right] =>
    match kind.operator? with
    | some op => return I.binary op (← left) (← right)
    | none => return 0
  | _, _ => return 0

namespace Node

mutual
def eval : Node → Run Int
  | ⟨kind, _, id, value, children⟩ => kind.eval I names id value (evalAll children)

def evalAll : List Node → List (Run Int)
  | [] => []
  | n :: rest => eval n :: evalAll rest
end

/-- The values of some nodes, in order. -/
def values (ns : List Node) : Run (List Int) := ns.mapM (eval I names)

/-- The truth of the first of some nodes. -/
def test : List Node → Run Bool
  | e :: _ => return I.truth (← e.eval I names)
  | [] => return false

/-- Stores the value of the second node under the name of the first. -/
def assign : List Node → Run Unit
  | [target, value] => do
    let v ← value.eval I names
    Run.write ((target.id.map names.nameOf).getD "") v
  | _ => return

/-- Calls a procedure with the values of the parameters, if there are any. -/
def call (id : Option SymbolId) (children : List Node) : Run Unit := do
  let values ← values I names (children.flatMap Node.children)
  Run.note (.call ((id.map names.nameOf).getD "") values)

mutual
def run : Node → Run Unit
  | ⟨kind, _, id, _, children⟩ =>
    match kind with
    | .compound => runAll children
    | .assign => assign I names children
    | .loop => Run.loop (runTurn children)
    | .call => call I names id children
    | .branch => do
      if ← test I names children then runChild children 1 else runChild children 2
    | _ => return

/-- Runs statements in order. -/
def runAll : List Node → Run Unit
  | [] => return
  | n :: rest => do
    run n
    runAll rest

/-- Runs the children of a loop in order, up to a test that fails. -/
def runTurn : List Node → Run Bool
  | [] => return true
  | n :: rest => do
    if n.kind = .test then
      if ← test I names n.children then runTurn rest else return false
    else
      run n
      runTurn rest

/-- Runs the child at a place, if there is one. -/
def runChild : List Node → Nat → Run Unit
  | [], _ => return
  | n :: _, 0 => run n
  | _ :: rest, i + 1 => runChild rest i
end

end Node

end

end PascalFront
