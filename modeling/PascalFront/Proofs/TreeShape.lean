-- The shape of a tree. Each place in a tree takes nodes of some kinds only, and
-- each kind has its attributes and its number of children. Every parser builds
-- such trees, whatever the tokens are: where something is missing it puts a
-- placeholder, never a node with a part left out.
import PascalFront.Proofs.Sessions

namespace PascalFront

/-! ## Kinds and places -/

namespace NodeKind

def isStatement : NodeKind → Bool
  | compound | assign | loop | call | branch | noOp => true
  | _ => false

/-- The operators of one operand. -/
def isUnary : NodeKind → Bool
  | not | negate => true
  | _ => false

/-- The operators of two operands: relations, sums and products. -/
def isBinary : NodeKind → Bool
  | eq | ne | lt | le | gt | ge | add | subtract | or => true
  | multiply | integerDivide | floatDivide | mod | and => true
  | _ => false

def isConstant : NodeKind → Bool
  | integerConstant | realConstant | stringConstant => true
  | _ => false

/-- An operator, an operand, or the placeholder of a missing operand. -/
def isExpression (k : NodeKind) : Bool :=
  k.isUnary || k.isBinary || k.isConstant || k == var || k == noOp

end NodeKind

/-- Where a node stands. -/
inductive Place where
  | expression
  | statement
  /-- A child of a loop, which is a statement or the test. -/
  | inLoop
  /-- The child of a call. -/
  | inCall
  deriving DecidableEq

/-- The kinds of nodes for a place. -/
def Place.admits : Place → NodeKind → Bool
  | expression, k => k.isExpression
  | statement, k => k.isStatement
  | inLoop, k => k.isStatement || k == .test
  | inCall, k => k == .parameters

/-- The place of a child by the kind of its parent. -/
def NodeKind.childPlace : NodeKind → Nat → Place
  | compound, _ => .statement
  | loop, _ => .inLoop
  | call, _ => .inCall
  | branch, 0 => .expression
  | branch, _ => .statement
  | _, _ => .expression

/-- Whether a row of children is all that a node of a kind needs, and no more. -/
def NodeKind.FitsChildren : NodeKind → List Node → Prop
  | compound, _ | parameters, _ => True
  | assign, cs => ∃ target value, cs = [target, value] ∧ target.kind = var
  | loop, cs => ∃ test rest, test.kind = .test ∧ (∀ c ∈ rest, c.kind ≠ .test) ∧
      (cs = test :: rest ∨ cs = rest ++ [test])
  | test, cs | not, cs | negate, cs => cs.length = 1
  | call, cs => cs.length ≤ 1
  | branch, cs => cs.length = 2 ∨ cs.length = 3
  | noOp, cs | var, cs | integerConstant, cs | realConstant, cs | stringConstant, cs => cs = []
  | _, cs => cs.length = 2

/-- Whether a node of a kind carries the constant that it must carry, and no other. -/
def NodeKind.FitsValue : NodeKind → Option Value → Prop
  | integerConstant, v => ∃ n, v = some (.integer n)
  | realConstant, v => ∃ x, v = some (.real x)
  | stringConstant, v => ∃ s, v = some (.string s)
  | _, v => v = none

/-! ## Complete nodes and whole trees -/

/-- A node with all that its kind needs, in a place for its kind, where the numbers of names are
below `names`. -/
structure Node.Complete (names : Nat) (place : Place) (n : Node) : Prop where
  admitted : place.admits n.kind = true
  children : n.kind.FitsChildren n.children
  line : n.line.isSome = true ↔ place ≠ .expression
  id : n.id.isSome = true ↔ n.kind = .var ∨ n.kind = .call
  id_lt : ∀ i, n.id = some i → i.number < names
  value : n.kind.FitsValue n.value

/-- A tree of which every node is complete in its place. -/
inductive Node.Whole (names : Nat) : Place → Node → Prop
  | intro {place : Place} {n : Node} : n.Complete names place →
      (∀ i c, n.children[i]? = some c → Whole names (n.kind.childPlace i) c) →
      Whole names place n

/-- A tree of which every node has a property of its own. -/
inductive Node.Every (P : Node → Prop) : Node → Prop
  | intro {n : Node} : P n → (∀ c ∈ n.children, Every P c) → Every P n

namespace Node

variable {names names' : Nat} {place : Place} {n : Node}

theorem every_mk {P : Node → Prop} {kind : NodeKind} {line : Option Nat} {id : Option SymbolId}
    {value : Option Value} {children : List Node} :
    (⟨kind, line, id, value, children⟩ : Node).Every P ↔
      P ⟨kind, line, id, value, children⟩ ∧ ∀ c ∈ children, c.Every P := by
  constructor
  · rintro ⟨hn, hc⟩
    exact ⟨hn, hc⟩
  · rintro ⟨hn, hc⟩
    exact .intro hn hc

theorem Whole.complete (h : n.Whole names place) : n.Complete names place := by
  cases h with
  | intro h _ => exact h

theorem Whole.child (h : n.Whole names place) {i : Nat} {c : Node}
    (hc : n.children[i]? = some c) : c.Whole names (n.kind.childPlace i) := by
  cases h with
  | intro _ h => exact h i c hc

theorem Whole.mono (h : n.Whole names place) (hle : names ≤ names') : n.Whole names' place := by
  induction h with
  | intro h _ ih =>
    exact .intro ⟨h.admitted, h.children, h.line, h.id,
      fun i hi => Nat.lt_of_lt_of_le (h.id_lt i hi) hle, h.value⟩ ih

/-- A statement may stand in a loop. -/
theorem Whole.inLoop (h : n.Whole names .statement) : n.Whole names .inLoop := by
  cases h with
  | intro h hc =>
    refine .intro ⟨?_, h.children, ?_, h.id, h.id_lt, h.value⟩ hc
    · have := h.admitted
      simp only [Place.admits] at this ⊢
      simp [this]
    · simpa using h.line

theorem Whole.kind_ne_test (h : n.Whole names .statement) : n.kind ≠ .test := by
  intro hk
  have := h.complete.admitted
  simp [Place.admits, NodeKind.isStatement, hk] at this

/-- A statement moved to another line is as whole as before. -/
theorem Whole.withLine (h : n.Whole names .statement) (line : Nat) :
    ({ n with line := some line } : Node).Whole names .statement := by
  cases h with
  | intro h hc =>
    exact .intro ⟨h.admitted, h.children, by simp, h.id, h.id_lt, h.value⟩ hc

/-! ## Building -/

theorem forall_children_cons {P : Nat → Node → Prop} {a : Node} {rest : List Node} :
    (∀ i c, (a :: rest)[i]? = some c → P i c) ↔
      P 0 a ∧ ∀ i c, rest[i]? = some c → P (i + 1) c := by
  constructor
  · exact fun h => ⟨h 0 a rfl, fun i c hc => h (i + 1) c hc⟩
  · rintro ⟨h0, h⟩ i c hc
    cases i with
    | zero =>
      cases hc
      exact h0
    | succ i => exact h i c hc

theorem whole_leaf (hc : n.Complete names place) (h : n.children = []) : n.Whole names place :=
  .intro hc (by simp [h])

theorem whole_placeholder : ({ kind := .noOp } : Node).Whole names .expression :=
  whole_leaf ⟨rfl, rfl, by simp, by simp, by simp, rfl⟩ rfl

theorem whole_var {id : SymbolId} (h : id.number < names) : (var id).Whole names .expression :=
  whole_leaf ⟨rfl, rfl, by simp [var], by simp [var], by simpa [var] using h, rfl⟩ rfl

theorem whole_integer (k : Int) : (integer k).Whole names .expression :=
  whole_leaf ⟨rfl, rfl, by simp [integer], by simp [integer], by simp [integer], ⟨k, rfl⟩⟩ rfl

theorem whole_real (x : Binary64) : (real x).Whole names .expression :=
  whole_leaf ⟨rfl, rfl, by simp [real], by simp [real], by simp [real], ⟨x, rfl⟩⟩ rfl

theorem whole_string (s : String) : (string s).Whole names .expression :=
  whole_leaf ⟨rfl, rfl, by simp [string], by simp [string], by simp [string], ⟨s, rfl⟩⟩ rfl

theorem whole_unary {op : NodeKind} (hop : op.isUnary = true) {e : Node}
    (he : e.Whole names .expression) : (operator op [e]).Whole names .expression := by
  have hplace : op.childPlace 0 = .expression := by cases op <;> first | rfl | cases hop
  refine .intro ⟨?_, ?_, by simp [operator], ?_, by simp [operator], ?_⟩ ?_
  · simp [Place.admits, NodeKind.isExpression, operator, hop]
  · cases op <;> first | rfl | cases hop
  · cases op <;> first | (simp [operator]; done) | cases hop
  · cases op <;> first | rfl | cases hop
  · simpa [operator, forall_children_cons, hplace] using he

theorem whole_binary {op : NodeKind} (hop : op.isBinary = true) {a b : Node}
    (ha : a.Whole names .expression) (hb : b.Whole names .expression) :
    (binary op a b).Whole names .expression := by
  have hplace : ∀ i, op.childPlace i = .expression := by
    intro i
    cases op <;> first | rfl | cases hop
  refine .intro ⟨?_, ?_, by simp [binary, operator], ?_, by simp [binary, operator], ?_⟩ ?_
  · simp [Place.admits, NodeKind.isExpression, binary, operator, hop]
  · cases op <;> first | rfl | cases hop
  · cases op <;> first | (simp [binary, operator]; done) | cases hop
  · cases op <;> first | rfl | cases hop
  · simp only [binary, operator, forall_children_cons, hplace]
    exact ⟨ha, hb, by simp⟩

theorem whole_noOp (line : Nat) : (statement .noOp line []).Whole names .statement :=
  whole_leaf ⟨rfl, rfl, by simp [statement], by simp [statement], by simp [statement], rfl⟩ rfl

theorem whole_compound (line : Nat) {cs : List Node} (h : ∀ c ∈ cs, c.Whole names .statement) :
    (statement .compound line cs).Whole names .statement :=
  .intro ⟨rfl, trivial, by simp [statement], by simp [statement], by simp [statement], rfl⟩
    fun _ c hc => h c (List.mem_of_getElem? hc)

theorem whole_assign (line : Nat) {id : SymbolId} {value : Node} (hid : id.number < names)
    (hv : value.Whole names .expression) :
    (statement .assign line [var id, value]).Whole names .statement := by
  refine .intro ⟨rfl, ⟨var id, value, rfl, rfl⟩, by simp [statement], by simp [statement],
    by simp [statement], rfl⟩ ?_
  simp only [statement, forall_children_cons, NodeKind.childPlace]
  exact ⟨whole_var hid, hv, by simp⟩

theorem whole_test (line : Nat) {e : Node} (he : e.Whole names .expression) :
    (statement .test line [e]).Whole names .inLoop := by
  refine .intro ⟨rfl, rfl, by simp [statement], by simp [statement], by simp [statement], rfl⟩ ?_
  simp only [statement, forall_children_cons, NodeKind.childPlace]
  exact ⟨he, by simp⟩

/-- A loop that tests first. -/
theorem whole_testFirst (line testLine : Nat) {e : Node} {cs : List Node}
    (he : e.Whole names .expression) (h : ∀ c ∈ cs, c.Whole names .statement) :
    (statement .loop line (statement .test testLine [e] :: cs)).Whole names .statement := by
  refine .intro ⟨rfl, ⟨_, cs, rfl, fun c hc => (h c hc).kind_ne_test, Or.inl rfl⟩,
    by simp [statement], by simp [statement], by simp [statement], rfl⟩ fun i c hc => ?_
  rcases List.mem_cons.mp (List.mem_of_getElem? hc) with rfl | hmem
  · exact whole_test testLine he
  · exact (h c hmem).inLoop

/-- A loop that tests last. -/
theorem whole_testLast (line testLine : Nat) {e : Node} {cs : List Node}
    (he : e.Whole names .expression) (h : ∀ c ∈ cs, c.Whole names .statement) :
    (statement .loop line (cs ++ [statement .test testLine [e]])).Whole names .statement := by
  refine .intro ⟨rfl, ⟨_, cs, rfl, fun c hc => (h c hc).kind_ne_test, Or.inr rfl⟩,
    by simp [statement], by simp [statement], by simp [statement], rfl⟩ fun i c hc => ?_
  rcases List.mem_append.mp (List.mem_of_getElem? hc) with hmem | hmem
  · exact (h c hmem).inLoop
  · rw [List.mem_singleton] at hmem
    subst hmem
    exact whole_test testLine he

theorem whole_branch (line : Nat) {e yes no : Node} (he : e.Whole names .expression)
    (hy : yes.Whole names .statement) (hn : no.Whole names .statement) :
    (statement .branch line [e, yes, no]).Whole names .statement := by
  refine .intro ⟨rfl, Or.inr rfl, by simp [statement], by simp [statement], by simp [statement],
    rfl⟩ ?_
  simp only [statement, forall_children_cons, NodeKind.childPlace]
  exact ⟨he, hy, hn, by simp⟩

theorem whole_branch_noElse (line : Nat) {e yes : Node} (he : e.Whole names .expression)
    (hy : yes.Whole names .statement) :
    (statement .branch line [e, yes]).Whole names .statement := by
  refine .intro ⟨rfl, Or.inl rfl, by simp [statement], by simp [statement], by simp [statement],
    rfl⟩ ?_
  simp only [statement, forall_children_cons, NodeKind.childPlace]
  exact ⟨he, hy, by simp⟩

theorem whole_call (line : Nat) {id : SymbolId} (hid : id.number < names) :
    ({ kind := .call, line, id } : Node).Whole names .statement :=
  whole_leaf ⟨rfl, by simp [NodeKind.FitsChildren], by simp, by simp, by simpa using hid, rfl⟩ rfl

theorem whole_call_parameters (line line' : Nat) {id : SymbolId} {args : List Node}
    (hid : id.number < names) (h : ∀ a ∈ args, a.Whole names .expression) :
    ({ kind := .call, line, id, children := [statement .parameters line' args] } : Node).Whole
      names .statement := by
  refine .intro ⟨rfl, by simp [NodeKind.FitsChildren], by simp, by simp, by simpa using hid, rfl⟩ ?_
  simp only [forall_children_cons, NodeKind.childPlace]
  refine ⟨.intro ⟨rfl, trivial, by simp [statement], by simp [statement], by simp [statement],
    rfl⟩ ?_, by simp⟩
  exact fun _ a ha => h a (List.mem_of_getElem? ha)

end Node

end PascalFront
