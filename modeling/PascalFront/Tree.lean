-- The tree of a program. A node has a kind, up to three attributes (a line, the
-- number of a name, a constant) and its children in order.
import PascalFront.Symbols
import PascalFront.Binary64

namespace PascalFront

/-! ## Kinds -/

inductive NodeKind where
  -- Statements
  | compound | assign | loop | test | call | parameters | branch | noOp
  -- Relations
  | eq | ne | lt | le | gt | ge | not
  -- Sums
  | add | subtract | or | negate
  -- Products
  | multiply | integerDivide | floatDivide | mod | and
  -- Operands
  | var | integerConstant | realConstant | stringConstant
  deriving DecidableEq, Inhabited

namespace NodeKind

/-- Every kind, in the order of the declaration. -/
def all : List NodeKind := [
  compound, assign, loop, test, call, parameters, branch, noOp, eq, ne, lt, le, gt, ge, not,
  add, subtract, or, negate, multiply, integerDivide, floatDivide, mod, and, var,
  integerConstant, realConstant, stringConstant]

/-- The name of a kind in listings and in JSON. -/
def name : NodeKind → String
  | compound => "COMPOUND"
  | assign => "ASSIGN"
  | loop => "LOOP"
  | test => "TEST"
  | call => "CALL"
  | parameters => "PARAMETERS"
  | branch => "IF"
  | noOp => "NO_OP"
  | eq => "EQ"
  | ne => "NE"
  | lt => "LT"
  | le => "LE"
  | gt => "GT"
  | ge => "GE"
  | not => "NOT"
  | add => "ADD"
  | subtract => "SUBTRACT"
  | or => "OR"
  | negate => "NEGATE"
  | multiply => "MULTIPLY"
  | integerDivide => "INTEGER_DIVIDE"
  | floatDivide => "FLOAT_DIVIDE"
  | mod => "MOD"
  | and => "AND"
  | var => "VARIABLE"
  | integerConstant => "INTEGER_CONSTANT"
  | realConstant => "REAL_CONSTANT"
  | stringConstant => "STRING_CONSTANT"

end NodeKind

/-! ## Constants and nodes -/

inductive Value where
  | integer (n : Int)
  | real (x : Binary64)
  | string (s : String)
  deriving DecidableEq, Inhabited

/-- Equality of constants, where reals are compared as numbers. -/
def Value.same : Value → Value → Bool
  | .integer m, .integer n => m == n
  | .real x, .real y => x.sameNumber y
  | .string s, .string t => s == t
  | _, _ => false

structure Node where
  kind : NodeKind
  line : Option Nat := none
  id : Option SymbolId := none
  value : Option Value := none
  children : List Node := []
  deriving Inhabited

namespace Node

/-! ## Building -/

/-- A statement of a line. -/
def statement (kind : NodeKind) (line : Nat) (children : List Node) : Node :=
  { kind, line := some line, children }

/-- An operator with its operands. -/
def operator (kind : NodeKind) (operands : List Node) : Node := { kind, children := operands }

/-- An operator between two operands. -/
def binary (kind : NodeKind) (left right : Node) : Node := operator kind [left, right]

/-- The use of a name. -/
def var (id : SymbolId) : Node := { kind := .var, id := some id }

def integer (n : Int) : Node := { kind := .integerConstant, value := some (.integer n) }

def real (x : Binary64) : Node := { kind := .realConstant, value := some (.real x) }

def string (s : String) : Node := { kind := .stringConstant, value := some (.string s) }

/-- A node with one child more, behind the others. -/
def addChild (n child : Node) : Node := { n with children := n.children ++ [child] }

/-! ## Size -/

mutual
/-- The number of nodes of a tree. -/
def size : Node → Nat
  | ⟨_, _, _, _, children⟩ => 1 + sizeAll children

/-- The number of nodes of some trees. -/
def sizeAll : List Node → Nat
  | [] => 0
  | n :: rest => size n + sizeAll rest
end

/-! ## Comparison -/

/-- Equality of an attribute that may be missing. -/
def sameValue : Option Value → Option Value → Bool
  | none, none => true
  | some v, some w => v.same w
  | _, _ => false

mutual
/-- Equality of trees, where reals are compared as numbers. -/
def same : Node → Node → Bool
  | ⟨k, l, i, v, cs⟩, ⟨k', l', i', v', cs'⟩ =>
    k == k' && l == l' && i == i' && sameValue v v' && sameAll cs cs'

/-- Equality of rows of trees. -/
def sameAll : List Node → List Node → Bool
  | [], [] => true
  | n :: ns, m :: ms => same n m && sameAll ns ms
  | _, _ => false
end

/-! ## Walking -/

theorem sizeAll_append (ns ms : List Node) : sizeAll (ns ++ ms) = sizeAll ns + sizeAll ms := by
  induction ns with
  | nil => simp [sizeAll]
  | cons n ns ih => simp [sizeAll, ih, Nat.add_assoc]

theorem size_eq (n : Node) : size n = 1 + sizeAll n.children := by
  cases n
  rw [size]

/-- The nodes of the trees on a stack, top first: a node comes before its children, and they
take its place on the stack. -/
def walkStack : List Node → List Node
  | [] => []
  | n :: stack => n :: walkStack (n.children ++ stack)
termination_by stack => sizeAll stack
decreasing_by
  rw [sizeAll_append, sizeAll, size_eq]
  omega

/-- All nodes of a tree, each before its children. -/
def walk (n : Node) : List Node := walkStack [n]

/-- How many nodes of a kind there are. -/
def count (n : Node) (kind : NodeKind) : Nat := n.walk.countP (·.kind == kind)

end Node

end PascalFront
