-- The uses of a name in a tree: the operands and the calls whose number stands
-- for that name. The uses of a tree are those of its root and those of its
-- children, so each way to build a node has its own small law.
import PascalFront.Proofs.Steps

namespace PascalFront

/-- How often a node with this number has the name: once or not at all. -/
def SymbolTable.weight (t : SymbolTable) (name : String) (id : SymbolId) : Nat :=
  if t.nameOf id = name then 1 else 0

namespace Node

/-! ## Walking over several trees -/

theorem walkStack_append (ns ms : List Node) :
    walkStack (ns ++ ms) = walkStack ns ++ walkStack ms := by
  induction ns using walkStack.induct with
  | case1 => rw [walkStack, List.nil_append, List.nil_append]
  | case2 n stack ih =>
    rw [List.cons_append, walkStack, walkStack, ← List.append_assoc, ih, List.cons_append]

theorem walk_eq (n : Node) : n.walk = n :: walkStack n.children := by
  rw [walk, walkStack, List.append_nil]

/-! ## Counting the uses -/

/-- Whether a node is an operand or a call with this name. -/
def naming (t : SymbolTable) (name : String) (n : Node) : Bool :=
  (n.kind == .var || n.kind == .call) && n.id.any (t.nameOf · == name)

/-- How many operands and calls of a tree have this name. -/
def uses (n : Node) (t : SymbolTable) (name : String) : Nat := n.walk.countP (naming t name)

/-- How many operands and calls of some trees have this name. -/
def usesIn (ns : List Node) (t : SymbolTable) (name : String) : Nat :=
  (walkStack ns).countP (naming t name)

section

variable (t : SymbolTable) (name : String)

@[simp]
theorem usesIn_nil : usesIn [] t name = 0 := by
  rw [usesIn, walkStack, List.countP_nil]

theorem usesIn_append (ns ms : List Node) :
    usesIn (ns ++ ms) t name = usesIn ns t name + usesIn ms t name := by
  rw [usesIn, walkStack_append, List.countP_append, usesIn, usesIn]

@[simp]
theorem usesIn_cons (n : Node) (ns : List Node) :
    usesIn (n :: ns) t name = n.uses t name + usesIn ns t name :=
  usesIn_append t name [n] ns

theorem uses_eq (n : Node) :
    n.uses t name = (if naming t name n then 1 else 0) + usesIn n.children t name := by
  rw [uses, walk_eq, List.countP_cons, usesIn, Nat.add_comm]

/-! ## The ways to build a node -/

section

variable {n : Node} {kind : NodeKind}

/-- A node of another kind has the uses of its children. -/
theorem uses_of_kind (hv : n.kind ≠ .var) (hc : n.kind ≠ .call) :
    n.uses t name = usesIn n.children t name := by
  simp [uses_eq, naming, hv, hc]

@[simp]
theorem uses_statement (hv : kind ≠ .var) (hc : kind ≠ .call) (line : Nat) (ns : List Node) :
    (statement kind line ns).uses t name = usesIn ns t name :=
  uses_of_kind t name hv hc

@[simp]
theorem uses_operator (hv : kind ≠ .var) (hc : kind ≠ .call) (ns : List Node) :
    (operator kind ns).uses t name = usesIn ns t name :=
  uses_of_kind t name hv hc

@[simp]
theorem uses_binary (hv : kind ≠ .var) (hc : kind ≠ .call) (a b : Node) :
    (binary kind a b).uses t name = a.uses t name + b.uses t name := by
  simp [binary, hv, hc]

end

@[simp]
theorem uses_var (id : SymbolId) : (var id).uses t name = t.weight name id := by
  simp [uses_eq, naming, var, SymbolTable.weight]

@[simp]
theorem uses_call (line : Nat) (id : SymbolId) (ns : List Node) :
    ({ kind := .call, line, id, children := ns } : Node).uses t name =
      t.weight name id + usesIn ns t name := by
  simp [uses_eq, naming, SymbolTable.weight]

@[simp]
theorem uses_integer (k : Int) : (integer k).uses t name = 0 := by
  simp [uses_of_kind, integer]

@[simp]
theorem uses_real (x : Binary64) : (real x).uses t name = 0 := by
  simp [uses_of_kind, real]

@[simp]
theorem uses_string (v : String) : (string v).uses t name = 0 := by
  simp [uses_of_kind, string]

@[simp]
theorem uses_noOp : ({ kind := .noOp } : Node).uses t name = 0 := by
  simp [uses_of_kind]

/-- The line does not count. -/
@[simp]
theorem uses_withLine (n : Node) (line : Option Nat) :
    ({ n with line } : Node).uses t name = n.uses t name := by
  rw [uses_eq, uses_eq]
  rfl

end

end Node

end PascalFront
