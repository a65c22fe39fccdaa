-- The trees of WHEN and of LOOP. Both statements are rewritten while they are
-- read, and the form that they are given holds whatever is missing in them or
-- has to be passed over: the parts come from fixed runs of the parsers for
-- expressions, assignments and statements, and recovery only lies between them.
import PascalFront.Proofs.Identifiers
import PascalFront.Proofs.Operands
import PascalFront.Proofs.Preservation
import PascalFront.Proofs.Resemblance

namespace PascalFront

/-! ## What is passed does not count -/

/-- Tokens and diagnostics that are the same. -/
def Resemblance.equal : Resemblance where
  tokens t t' := t = t'
  diagnostics d d' := d = d'
  refl _ := rfl
  rest h := by rw [← h]
  name h := by rw [h]
  closing h := by rw [h]
  fault h := by
    rw [h]
    cases Diagnostic.ofErrorToken? _ with
    | none => exact .none
    | some d => exact .some rfl
  atToken h cause := by rw [h]

namespace ParserState

/-- The state with other tokens passed. -/
def behind (s : ParserState) (passed : List Token) : ParserState :=
  { s with cursor := { s.cursor with passed } }

theorem alike_behind (s : ParserState) (passed : List Token) :
    s.Alike .equal (s.behind passed) :=
  ⟨⟨List.forall₂_eq_eq_eq ▸ rfl, rfl⟩, List.forall₂_eq_eq_eq ▸ rfl, rfl⟩

/-- From one state to another no identifier is passed and no name is entered. -/
structure Passes (s s' : ParserState) : Prop where
  steps : s.Steps s'
  identifiers : s'.identifiers = s.identifiers
  symbols : s'.symbols = s.symbols

theorem Passes.trans {s s₁ s' : ParserState} (h : s.Passes s₁) (h' : s₁.Passes s') : s.Passes s' :=
  ⟨h.steps.trans h'.steps, h'.identifiers.trans h.identifiers, h'.symbols.trans h.symbols⟩

end ParserState

namespace Parser

open ParserState

/-- A parser does not see what is passed. -/
theorem ok_behind {p : Parser α} [hp : Blind .equal p] {s s' : ParserState} {a : α}
    (h : p s = .ok a s') (passed : List Token) : ∃ u', p (s.behind passed) = .ok a u' := by
  have hrun := hp.run (s.alike_behind passed)
  rw [h] at hrun
  generalize p (s.behind passed) = result at hrun
  cases hrun with
  | ok a h' => exact ⟨_, rfl⟩

theorem Quiet.passes {p : Parser α} [hp : Quiet p] [Stepwise p] {s s' : ParserState} {a : α}
    (h : p s = .ok a s') : s.Passes s' := by
  have hidentifiers := hp.identifiers s
  have hsymbols := hp.symbols s
  rw [h] at hidentifiers hsymbols
  exact ⟨Stepwise.ok h, hidentifiers, hsymbols⟩

/-! ## The parts of the statements -/

/-- One statement within another: it would be the same behind any other tokens. -/
structure Inner (settings : Settings) where
  start : ParserState
  node : Node
  stop : ParserState
  reads : statement settings start = .ok node stop
  forgets : ∀ passed, ∃ u, statement settings (start.behind passed) = .ok node u

/-- How a WHEN statement is read. -/
structure SignRun (settings : Settings) (s s' : ParserState) where
  value : Node
  behindValue : ParserState
  reads_value : expression s.advance = .ok value behindValue
  /-- The names and constants that are taken for the value are those of its tree. -/
  reads_operands : s.advance.ReadsOperands behindValue value.operands
  hidden : SymbolId
  enters : hidden = (behindValue.enter (settings.whenName s.advance.line) s.advance.line).1
  name : s'.symbols.nameOf hidden = settings.whenName s.advance.line
  negative : Inner settings
  before_negative :
    (behindValue.enter (settings.whenName s.advance.line) s.advance.line).2.Passes negative.start
  /-- Where the second marker is, or should be. -/
  atZero : ParserState
  behind_negative : negative.stop.Passes atZero
  zero : Inner settings
  before_zero : atZero.Passes zero.start
  positive : Inner settings
  before_positive : zero.stop.Passes positive.start
  stop_eq : positive.stop = s'

/-- An assignment to the hidden variable, and two tests of it. -/
def SignRun.tree {settings : Settings} {s s' : ParserState} (r : SignRun settings s s') : Node :=
  .statement .compound s.line
    [.statement .assign s.advance.line [.var r.hidden, r.value],
      .statement .branch s.line
        [.binary .lt (.var r.hidden) (.integer 0), r.negative.node,
          .statement .branch r.atZero.line
            [.binary .eq (.var r.hidden) (.integer 0), r.zero.node, r.positive.node]]]

/-- How a LOOP statement is read. -/
structure CountingRun (settings : Settings) (s s' : ParserState) where
  /-- The state in front of the first assignment. -/
  first : ParserState
  first_eq : (s.advance.kind = .leftParen ∧ first = s.advance.advance) ∨
    (s.advance.kind ≠ .leftParen ∧ first = s.advance.flag .missingLeftParen)
  initial : Node
  behindInitial : ParserState
  reads_initial : assignment first = .ok initial behindInitial
  initial_kind : initial.kind = .assign ∨ initial.kind = .noOp
  initial_line : initial.line = some first.line
  beforeCondition : ParserState
  before_condition : behindInitial.Passes beforeCondition
  condition : Node
  behindCondition : ParserState
  reads_condition : expression beforeCondition = .ok condition behindCondition
  beforeUpdate : ParserState
  before_update : behindCondition.Passes beforeUpdate
  update : Node
  behindUpdate : ParserState
  reads_update : assignment beforeUpdate = .ok update behindUpdate
  update_kind : update.kind = .assign ∨ update.kind = .noOp
  body : Inner settings
  before_body : behindUpdate.Passes body.start
  stop_eq : body.stop = s'

/-- A first assignment and a loop that runs the body in front of the second one, all of it on the
line where the first assignment is. -/
def CountingRun.tree {settings : Settings} {s s' : ParserState} (r : CountingRun settings s s') :
    Node :=
  .statement .compound r.first.line
    [r.initial,
      .statement .loop r.first.line
        [.statement .test r.first.line [r.condition], r.body.node,
          { r.update with line := some r.first.line }]]

/-! ## Reading them -/

section

variable {settings : Settings} {s s' : ParserState} {n : Node}

theorem assignment_form (h : assignment s = .ok n s') :
    (n.kind = .assign ∨ n.kind = .noOp) ∧ n.line = some s.line := by
  unfold assignment at h
  rw [here_bind] at h
  split at h
  · obtain ⟨id, s₁, -, h⟩ := bind_eq_ok.mp h
    obtain ⟨_, s₂, -, h⟩ := bind_eq_ok.mp h
    obtain ⟨value, s₃, -, h⟩ := bind_eq_ok.mp h
    cases h
    exact ⟨.inl rfl, rfl⟩
  · split at h
    · cases h
    · obtain ⟨_, s₁, -, h⟩ := bind_eq_ok.mp h
      cases h
      exact ⟨.inr rfl, rfl⟩

/-- A run of the parser for statements within another statement. -/
def Inner.of (h : statement settings s = .ok n s') : Inner settings :=
  ⟨s, n, s', h, fun passed => ok_behind h passed⟩

theorem whenStatement_run (h : whenStatement settings (statement settings) s = .ok n s') :
    ∃ r : SignRun settings s s', n = r.tree := by
  unfold whenStatement at h
  rw [line_bind, advance_bind, line_bind] at h
  obtain ⟨value, s₁, hvalue, h⟩ := bind_eq_ok.mp h
  obtain ⟨hidden, s₂, hhidden, h⟩ := bind_eq_ok.mp h
  obtain ⟨_, u₁, hu₁, h⟩ := bind_eq_ok.mp h
  obtain ⟨negative, v₁, hnegative, h⟩ := bind_eq_ok.mp h
  obtain ⟨_, w₁, hw₁, h⟩ := bind_eq_ok.mp h
  obtain ⟨_, w, hw, h⟩ := bind_eq_ok.mp h
  rw [line_bind] at h
  obtain ⟨_, u₂, hu₂, h⟩ := bind_eq_ok.mp h
  obtain ⟨zero, v₂, hzero, h⟩ := bind_eq_ok.mp h
  obtain ⟨_, w₂, hw₂, h⟩ := bind_eq_ok.mp h
  obtain ⟨_, u₃, hu₃, h⟩ := bind_eq_ok.mp h
  obtain ⟨positive, v₃, hpositive, h⟩ := bind_eq_ok.mp h
  cases h
  cases hhidden
  have hnames : (s₁.enter (settings.whenName s.advance.line) s.advance.line).2.Before s' := by
    have hbehindZero := ((Stepwise.ok hw₂).trans (Stepwise.ok hu₃)).trans (Stepwise.ok hpositive)
    have hbehindNegative :=
      (((Stepwise.ok hw₁).trans (Stepwise.ok hw)).trans (Stepwise.ok hu₂)).trans (Stepwise.ok hzero)
    exact (((Stepwise.ok hu₁).trans (Stepwise.ok hnegative)).trans
      (hbehindNegative.trans hbehindZero)).before
  exact ⟨{
    value
    behindValue := s₁
    reads_value := hvalue
    reads_operands := expression_keepsOperands _ _ _ hvalue
    hidden := _
    enters := rfl
    name := nameOf_mentioned hnames.names
    negative := .of hnegative
    before_negative := Quiet.passes hu₁
    atZero := w
    behind_negative := (Quiet.passes hw₁).trans (Quiet.passes hw)
    zero := .of hzero
    before_zero := Quiet.passes hu₂
    positive := .of hpositive
    before_positive := (Quiet.passes hw₂).trans (Quiet.passes hu₃)
    stop_eq := rfl }, rfl⟩

theorem loopStatement_run (h : loopStatement (statement settings) s = .ok n s') :
    ∃ r : CountingRun settings s s', n = r.tree := by
  unfold loopStatement at h
  rw [advance_bind] at h
  obtain ⟨_, first, hfirst, h⟩ := bind_eq_ok.mp h
  rw [line_bind] at h
  obtain ⟨initial, s₁, hinitial, h⟩ := bind_eq_ok.mp h
  obtain ⟨_, u₁, hu₁, h⟩ := bind_eq_ok.mp h
  obtain ⟨condition, s₂, hcondition, h⟩ := bind_eq_ok.mp h
  obtain ⟨_, u₂, hu₂, h⟩ := bind_eq_ok.mp h
  obtain ⟨update, s₃, hupdate, h⟩ := bind_eq_ok.mp h
  obtain ⟨_, u₃, hu₃, h⟩ := bind_eq_ok.mp h
  obtain ⟨_, u₄, hu₄, h⟩ := bind_eq_ok.mp h
  obtain ⟨body, s₄, hbody, h⟩ := bind_eq_ok.mp h
  cases h
  obtain ⟨hkind, hline⟩ := assignment_form hinitial
  exact ⟨{
    first
    first_eq := expect_eq_ok hfirst
    initial
    behindInitial := s₁
    reads_initial := hinitial
    initial_kind := hkind
    initial_line := hline
    beforeCondition := u₁
    before_condition := Quiet.passes hu₁
    condition
    behindCondition := s₂
    reads_condition := hcondition
    beforeUpdate := u₂
    before_update := Quiet.passes hu₂
    update
    behindUpdate := s₃
    reads_update := hupdate
    update_kind := (assignment_form hupdate).1
    body := .of hbody
    before_body := (Quiet.passes hu₃).trans (Quiet.passes hu₄)
    stop_eq := rfl }, rfl⟩

/-! ## The law -/

/-- Whatever the tokens are, a WHEN or LOOP statement that is read has the form that such statements
are rewritten to. -/
theorem templates_survive_recovery (h : statement settings s = .ok n s') :
    (s.kind = .kwWhen → ∃ r : SignRun settings s s', n = r.tree) ∧
      (s.kind = .kwLoop → ∃ r : CountingRun settings s s', n = r.tree) := by
  rw [statement_eq settings] at h
  unfold statementLevel at h
  rw [kind_bind] at h
  constructor
  · intro hk
    rw [hk] at h
    exact whenStatement_run h
  · intro hk
    rw [hk] at h
    exact loopStatement_run h

end

/-- A statement within a WHEN statement that takes the markers of the outer one, up to the end. -/
def stolenMarkers : ParserState :=
  .start (tokensOf "WHEN N ) LESSTHAN0 WHEN\nM EQUAL0 X := 1; GREATERTHAN0 ) EQUAL0") {}

/-- A LOOP statement without its parentheses and without a first assignment. -/
def bareLoop : ParserState := .start (tokensOf "LOOP\n< ; J := DO DO ;") {}

theorem broken_statements_keep_their_form :
    (∃ n s', statement {} stolenMarkers = .ok n s' ∧ s'.errorCount = 4 ∧
      ∃ r : SignRun {} stolenMarkers s', n = r.tree) ∧
    ∃ n s', statement {} bareLoop = .ok n s' ∧ s'.errorCount = 6 ∧
      ∃ r : CountingRun {} bareLoop s', n = r.tree := by
  have hwhen : ((statement {}).runFrom stolenMarkers).1.isOk = true ∧
      ((statement {}).runFrom stolenMarkers).2.errorCount = 4 ∧ stolenMarkers.kind = .kwWhen := by
    decide +kernel
  have hloop : ((statement {}).runFrom bareLoop).1.isOk = true ∧
      ((statement {}).runFrom bareLoop).2.errorCount = 6 ∧ bareLoop.kind = .kwLoop := by
    decide +kernel
  obtain ⟨n, hn⟩ := ok_of_isOk hwhen.1
  obtain ⟨m, hm⟩ := ok_of_isOk hloop.1
  exact ⟨⟨n, _, hn, hwhen.2.1, (templates_survive_recovery hn).1 hwhen.2.2⟩,
    m, _, hm, hloop.2.1, (templates_survive_recovery hm).2 hloop.2.2⟩

end Parser

end PascalFront
