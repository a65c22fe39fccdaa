-- The operands of an expression. Each name and each constant that the parser of
-- expressions takes becomes one node, in order, and it makes no other nodes for
-- names and constants. So the operands of the tree are the operands of the text.
import PascalFront.Proofs.Progress
import PascalFront.Proofs.TreeShape
import PascalFront.Proofs.Uses
import Mathlib.Data.List.Forall2

namespace PascalFront

/-- The tokens that are operands by themselves. -/
def TokenKind.isOperand : TokenKind → Bool
  | .identifier | .integer | .real | .string => true
  | _ => false

/-- The nodes of names and constants. -/
def NodeKind.isOperand (k : NodeKind) : Bool := k == .var || k.isConstant

/-- The node of a token that is an operand, in a table where names have their numbers. -/
inductive Token.Denotes (symbols : SymbolTable) (t : Token) : Node → Prop
  | name {id : SymbolId} : t.kind = .identifier →
      symbols.names[id.number]? = some (caseFold t.text) → Denotes symbols t (.var id)
  | integer : t.kind = .integer → Denotes symbols t t.integerNode
  | real : t.kind = .real → Denotes symbols t t.realNode
  | string : t.kind = .string → Denotes symbols t t.stringNode

/-- A name keeps its number. -/
theorem Token.Denotes.mono {symbols symbols' : SymbolTable} {t : Token} {n : Node}
    (h : t.Denotes symbols n) (hnames : symbols.names <+: symbols'.names) :
    t.Denotes symbols' n := by
  cases h with
  | name hk hid =>
    obtain ⟨more, hmore⟩ := hnames
    have hlt := (List.getElem?_eq_some_iff.mp hid).1
    exact .name hk (by rw [← hmore, List.getElem?_append_left hlt, hid])
  | integer hk => exact .integer hk
  | real hk => exact .real hk
  | string hk => exact .string hk

namespace Node

/-! ## The operands of a tree -/

/-- The operands of some trees, from left to right. -/
def operandsIn (ns : List Node) : List Node := (walkStack ns).filter (·.kind.isOperand)

/-- The operands of a tree, from left to right. -/
def operands (n : Node) : List Node := n.walk.filter (·.kind.isOperand)

variable {n : Node}

theorem operandsIn_append (ns ms : List Node) :
    operandsIn (ns ++ ms) = operandsIn ns ++ operandsIn ms := by
  rw [operandsIn, walkStack_append, List.filter_append]
  rfl

theorem operands_of_not (h : n.kind.isOperand = false) : n.operands = operandsIn n.children := by
  rw [operands, walk_eq, List.filter_cons_of_neg (by simp [h])]
  rfl

theorem operands_leaf (h : n.kind.isOperand = true) (hc : n.children = []) : n.operands = [n] := by
  rw [operands, walk_eq, hc, walkStack, List.filter_singleton, h]
  rfl

theorem operands_placeholder : ({ kind := .noOp } : Node).operands = [] := by
  rw [operands_of_not rfl, operandsIn, walkStack, List.filter_nil]

theorem operands_unary {op : NodeKind} (hop : op.isOperand = false) (n : Node) :
    (operator op [n]).operands = n.operands := operands_of_not hop

theorem operands_binary {op : NodeKind} (hop : op.isOperand = false) (left right : Node) :
    (binary op left right).operands = left.operands ++ right.operands := by
  rw [operands_of_not (n := binary op left right) hop]
  exact operandsIn_append [left] [right]

end Node

namespace ParserState

/-! ## Reading operands -/

/-- The operands that are taken on the way from one state to another are these nodes, in order. -/
def ReadsOperands (s s' : ParserState) (ns : List Node) : Prop :=
  s.Steps s' ∧ ∃ taken, s.upcoming = taken ++ s'.upcoming ∧
    List.Forall₂ (Token.Denotes s'.symbols) (taken.filter (·.kind.isOperand)) ns

variable {s s₁ s' : ParserState} {ns ms : List Node}

theorem ReadsOperands.refl (s : ParserState) : s.ReadsOperands s [] :=
  ⟨.refl s, [], rfl, .nil⟩

theorem ReadsOperands.trans (h : s.ReadsOperands s₁ ns) (h' : s₁.ReadsOperands s' ms) :
    s.ReadsOperands s' (ns ++ ms) := by
  obtain ⟨hsteps, taken, hrow, hdenotes⟩ := h
  obtain ⟨hsteps', taken', hrow', hdenotes'⟩ := h'
  refine ⟨hsteps.trans hsteps', taken ++ taken', by rw [hrow, hrow', List.append_assoc], ?_⟩
  rw [List.filter_append]
  refine List.rel_append (hdenotes.imp fun t n hn => ?_) hdenotes'
  exact hn.mono hsteps'.before.names

theorem readsOperands_advance (h : s.kind.isOperand = false) : s.ReadsOperands s.advance [] := by
  refine ⟨steps_advance s, ?_⟩
  cases hend : s.cursor.atEnd with
  | true =>
    rw [advance, Cursor.advance_of_atEnd hend]
    exact ⟨[], rfl, .nil⟩
  | false =>
    refine ⟨[s.here], Cursor.upcoming_eq_cons hend, ?_⟩
    rw [List.filter_singleton, show s.here.kind.isOperand = false from h]
    exact .nil

theorem readsOperands_flag (s : ParserState) (cause : Cause) : s.ReadsOperands (s.flag cause) [] :=
  ⟨(Step.flag s cause).steps, [], rfl, .nil⟩

/-- An operand that is taken behind other steps which take none. -/
theorem readsOperands_operand {n : Node} (hsteps : s.Steps s')
    (hrow : s.upcoming = s.here :: s'.upcoming) (hk : s.kind.isOperand = true)
    (hn : s.here.Denotes s'.symbols n) : s.ReadsOperands s' [n] := by
  refine ⟨hsteps, [s.here], hrow, ?_⟩
  rw [List.filter_singleton, show s.here.kind.isOperand = true from hk]
  exact .cons hn .nil

end ParserState

/-! ## Expressions -/

namespace Parser

open ParserState

/-- The operands of the trees that a parser gives are those that it takes. -/
def KeepsOperands (p : Parser Node) : Prop :=
  ∀ s n s', p s = .ok n s' → s.ReadsOperands s' n.operands

theorem relation?_operand (k : TokenKind) (op : NodeKind) (h : relation? k = some op) :
    k.isOperand = false ∧ op.isOperand = false := by
  cases k <;> cases h <;> decide

theorem sum?_operand (k : TokenKind) (op : NodeKind) (h : sum? k = some op) :
    k.isOperand = false ∧ op.isOperand = false := by
  cases k <;> cases h <;> decide

theorem product?_operand (k : TokenKind) (op : NodeKind) (h : product? k = some op) :
    k.isOperand = false ∧ op.isOperand = false := by
  cases k <;> cases h <;> decide

theorem expect_operand {s s' : ParserState} {k : TokenKind} {missing : Cause} {u : Unit}
    (hk : k.isOperand = false) (h : expect k missing s = .ok u s') : s.ReadsOperands s' [] := by
  rcases expect_eq_ok h with ⟨hs, rfl⟩ | ⟨-, rfl⟩
  · exact readsOperands_advance (hs ▸ hk)
  · exact readsOperands_flag s missing

section

variable {inner : Parser Node} {s s' : ParserState} {n : Node}

theorem constant_operand (hend : s.kind ≠ .endOfFile) (hk : s.kind.isOperand = true)
    (hn : s.here.Denotes s.symbols n) (hleaf : n.operands = [n]) :
    s.ReadsOperands s.advance n.operands := by
  rw [hleaf]
  exact readsOperands_operand (steps_advance s)
    (Cursor.upcoming_eq_cons (atEnd_of_kind rfl hend)) hk hn

theorem operand_keepsOperands (hi : KeepsOperands inner) : KeepsOperands (operand inner) := by
  intro s n s' h
  unfold operand at h
  rw [here_bind] at h
  have hkind : s.here.kind = s.kind := rfl
  cases hk : s.here.kind
  case identifier =>
    rw [hk] at h
    obtain ⟨id, s₁, hid, h⟩ := bind_eq_ok.mp h
    rw [takeName_eq] at hid
    cases hid
    cases h
    have hname := (s.symbols.enterAt_spec (caseFold s.here.text) s.line).1
    have hend : (s.enter (caseFold s.here.text) s.line).2.cursor.atEnd = false :=
      atEnd_of_kind (s := s) hk (by decide)
    rw [Node.operands_leaf rfl rfl]
    exact readsOperands_operand ((Step.enter s _ _).steps.trans (steps_advance _))
      (Cursor.upcoming_eq_cons hend) (hkind ▸ hk ▸ rfl) (.name hk hname)
  case integer =>
    rw [hk] at h
    cases h
    refine constant_operand (hkind ▸ hk ▸ by decide) (hkind ▸ hk ▸ rfl) (.integer hk) ?_
    unfold Token.integerNode
    split <;> exact Node.operands_leaf rfl rfl
  case real =>
    rw [hk] at h
    cases h
    refine constant_operand (hkind ▸ hk ▸ by decide) (hkind ▸ hk ▸ rfl) (.real hk) ?_
    unfold Token.realNode
    split <;> exact Node.operands_leaf rfl rfl
  case string =>
    rw [hk] at h
    cases h
    refine constant_operand (hkind ▸ hk ▸ by decide) (hkind ▸ hk ▸ rfl) (.string hk) ?_
    unfold Token.stringNode
    split <;> exact Node.operands_leaf rfl rfl
  case leftParen =>
    rw [hk] at h
    dsimp only at h
    rw [advance_bind] at h
    obtain ⟨e, s₁, he, h⟩ := bind_eq_ok.mp h
    obtain ⟨_, s₂, hclose, h⟩ := bind_eq_ok.mp h
    cases h
    have hbefore := readsOperands_advance (s := s) (hkind ▸ hk ▸ rfl)
    simpa using (hbefore.trans (hi _ _ _ he)).trans (expect_operand rfl hclose)
  case endOfFile =>
    rw [hk] at h
    cases h
  all_goals
    rw [hk] at h
    cases h
    rw [Node.operands_placeholder]
    exact readsOperands_flag s _

theorem negations_operand {k : Nat} (h : negations s = .ok k s') : s.ReadsOperands s' [] := by
  refine loop_invariant (I := fun _ u => s.ReadsOperands u []) ?_ (.refl s) h
  intro k u o u' hu ht
  rcases negationTurn_eq_ok ht with ⟨-, hk, rfl⟩ | ⟨-, rfl⟩
  · exact hu.trans (readsOperands_advance (hk ▸ rfl))
  · exact hu

theorem operands_negated (k : Nat) (n : Node) : (negated k n).operands = n.operands := by
  induction k with
  | zero => rfl
  | succ k ih => rw [negated, Node.operands_unary rfl, ih]

theorem factor_keepsOperands (hi : KeepsOperands inner) : KeepsOperands (factor inner) := by
  intro s n s' h
  unfold factor at h
  obtain ⟨k, s₁, hnot, h⟩ := bind_eq_ok.mp h
  obtain ⟨e, s₂, he, h⟩ := bind_eq_ok.mp h
  cases h
  rw [operands_negated]
  exact (negations_operand hnot).trans (operand_keepsOperands hi _ _ _ he)

theorem chain_operands {operator? : TokenKind → Option NodeKind} {first : Node} {s₁ : ParserState}
    (hop : ∀ k op, operator? k = some op → k.isOperand = false ∧ op.isOperand = false)
    (hi : KeepsOperands inner) (hfirst : s.ReadsOperands s₁ first.operands)
    (h : chain operator? inner first s₁ = .ok n s') : s.ReadsOperands s' n.operands := by
  refine loop_invariant (I := fun left u => s.ReadsOperands u left.operands) ?_ hfirst h
  intro left u o u' hleft ht
  rcases chainTurn_eq_ok ht with ⟨-, rfl, rfl⟩ | ⟨op, right, ho, hright, rfl⟩
  · exact hleft
  · obtain ⟨hk, hop⟩ := hop _ _ ho
    have hbehind := (readsOperands_advance hk).trans (hi _ _ _ hright)
    rw [Option.getD_some, Node.operands_binary hop]
    exact hleft.trans hbehind

theorem term_keepsOperands (hi : KeepsOperands inner) : KeepsOperands (term inner) := by
  intro s n s' h
  unfold term at h
  obtain ⟨first, s₁, hfirst, h⟩ := bind_eq_ok.mp h
  exact chain_operands product?_operand (factor_keepsOperands hi)
    (factor_keepsOperands hi _ _ _ hfirst) h

theorem simpleExpression_keepsOperands (hi : KeepsOperands inner) :
    KeepsOperands (simpleExpression inner) := by
  intro s n s' h
  obtain ⟨s₀, first, s₁, hsign, hfirst, hrest⟩ := simpleExpression_eq_ok h
  have hbefore : s.ReadsOperands s₀ [] := by
    rcases hsign with ⟨hk | hk, rfl⟩ | ⟨-, rfl⟩
    · exact readsOperands_advance (hk ▸ rfl)
    · exact readsOperands_advance (hk ▸ rfl)
    · exact .refl _
  refine chain_operands sum?_operand (term_keepsOperands hi) ?_ hrest
  split
  · rw [Node.operands_unary rfl]
    exact hbefore.trans (term_keepsOperands hi _ _ _ hfirst)
  · exact hbefore.trans (term_keepsOperands hi _ _ _ hfirst)

theorem expressionLevel_keepsOperands (hi : KeepsOperands inner) :
    KeepsOperands (expressionLevel inner) := by
  intro s n s' h
  obtain ⟨left, s₁, hleft, hcase⟩ := expressionLevel_eq_ok h
  have hfirst := simpleExpression_keepsOperands hi _ _ _ hleft
  rcases hcase with ⟨-, rfl, rfl⟩ | ⟨op, right, ho, hright, rfl⟩
  · exact hfirst
  · obtain ⟨hk, hop⟩ := relation?_operand _ _ ho
    have hbehind := (readsOperands_advance hk).trans
      (simpleExpression_keepsOperands hi _ _ _ hright)
    rw [Node.operands_binary hop]
    exact hfirst.trans hbehind

end

theorem expression_keepsOperands : KeepsOperands expression := by
  intro s
  refine expression_induction (R := fun s r => ∀ n s', r = .ok n s' →
    s.ReadsOperands s' n.operands) ?_ ?_ s
  · exact fun _ _ _ h => (by cases h)
  · exact fun inner _ h => expressionLevel_keepsOperands h

end Parser

end PascalFront
