-- Every parser builds whole trees, on every row of tokens. The result of an
-- inner parser stays whole while the names that are entered become more, so it
-- only matters how each parser puts its parts together.
import PascalFront.Proofs.TreeShape

namespace PascalFront.Parser

open ParserState

/-- The trees that a parser gives are whole, in the place that is meant. -/
def Builds (place : Place) (p : Parser Node) : Prop :=
  ∀ s n s', p s = .ok n s' → n.Whole s'.symbols.size place

theorem whole_later {n : Node} {place : Place} {s s' : ParserState}
    (h : n.Whole s.symbols.size place) (hs : s.Steps s') : n.Whole s'.symbols.size place :=
  h.mono hs.before.size_le

theorem number_lt_of_enter (s : ParserState) (name : String) (line : Nat) :
    (s.enter name line).1.number < (s.enter name line).2.symbols.size := by
  have h := (s.symbols.enterAt_spec name line).1
  have hlt := (List.getElem?_eq_some_iff.mp h).1
  simpa [SymbolTable.names, SymbolTable.size, ParserState.enter] using hlt

theorem number_lt_of_takeName {s s' : ParserState} {id : SymbolId} (h : takeName s = .ok id s') :
    id.number < s'.symbols.size := by
  rw [takeName_eq] at h
  cases h
  exact number_lt_of_enter s (caseFold s.here.text) s.line

/-! ## Expressions -/

section

variable {inner : Parser Node}

theorem operand_builds (hi : Builds .expression inner) : Builds .expression (operand inner) := by
  intro s n s' h
  unfold operand at h
  rw [here_bind] at h
  cases hk : s.here.kind
  case identifier =>
    rw [hk] at h
    obtain ⟨id, s₁, hid, h⟩ := bind_eq_ok.mp h
    cases h
    exact Node.whole_var (number_lt_of_takeName hid)
  case integer =>
    rw [hk] at h
    cases h
    unfold Token.integerNode
    split <;> exact Node.whole_integer _
  case real =>
    rw [hk] at h
    cases h
    unfold Token.realNode
    split <;> exact Node.whole_real _
  case string =>
    rw [hk] at h
    cases h
    unfold Token.stringNode
    split <;> exact Node.whole_string _
  case leftParen =>
    rw [hk] at h
    obtain ⟨_, s₁, -, h⟩ := bind_eq_ok.mp h
    obtain ⟨e, s₂, he, h⟩ := bind_eq_ok.mp h
    obtain ⟨_, s₃, hclose, h⟩ := bind_eq_ok.mp h
    cases h
    exact whole_later (hi _ _ _ he) (Stepwise.ok hclose)
  case endOfFile =>
    rw [hk] at h
    cases h
  all_goals
    rw [hk] at h
    cases h
    exact Node.whole_placeholder

theorem whole_negated {names k : Nat} {n : Node} (h : n.Whole names .expression) :
    (negated k n).Whole names .expression := by
  induction k with
  | zero => exact h
  | succ k ih => exact Node.whole_unary rfl ih

theorem factor_builds (hi : Builds .expression inner) : Builds .expression (factor inner) := by
  intro s n s' h
  unfold factor at h
  obtain ⟨k, s₁, -, h⟩ := bind_eq_ok.mp h
  obtain ⟨e, s₂, he, h⟩ := bind_eq_ok.mp h
  cases h
  exact whole_negated (operand_builds hi _ _ _ he)

variable [Stepwise inner]

theorem chain_keeps {operator? : TokenKind → Option NodeKind}
    (hop : ∀ k op, operator? k = some op → op.isBinary = true) (hi : Builds .expression inner)
    {first n : Node} {s s' : ParserState} (hf : first.Whole s.symbols.size .expression)
    (h : chain operator? inner first s = .ok n s') : n.Whole s'.symbols.size .expression := by
  refine loop_invariant (I := fun n s => n.Whole s.symbols.size .expression) ?_ hf h
  intro left s o s' hl ht
  rcases chainTurn_eq_ok ht with ⟨-, rfl, rfl⟩ | ⟨op, right, ho, hr, rfl⟩
  · exact hl
  · exact Node.whole_binary (hop _ _ ho)
      (whole_later hl ((steps_advance s).trans (Stepwise.ok hr))) (hi _ _ _ hr)

theorem relation?_isBinary (k : TokenKind) (op : NodeKind) (h : relation? k = some op) :
    op.isBinary = true := by
  cases k <;> cases h <;> rfl

theorem sum?_isBinary (k : TokenKind) (op : NodeKind) (h : sum? k = some op) :
    op.isBinary = true := by
  cases k <;> cases h <;> rfl

theorem product?_isBinary (k : TokenKind) (op : NodeKind) (h : product? k = some op) :
    op.isBinary = true := by
  cases k <;> cases h <;> rfl

theorem term_builds (hi : Builds .expression inner) : Builds .expression (term inner) := by
  intro s n s' h
  unfold term at h
  obtain ⟨first, s₁, hf, h⟩ := bind_eq_ok.mp h
  exact chain_keeps product?_isBinary (factor_builds hi) (factor_builds hi _ _ _ hf) h

theorem simpleExpression_builds (hi : Builds .expression inner) :
    Builds .expression (simpleExpression inner) := by
  intro s n s' h
  obtain ⟨s₀, first, s₁, -, hf, hrest⟩ := simpleExpression_eq_ok h
  have hfirst := term_builds hi _ _ _ hf
  refine chain_keeps sum?_isBinary (term_builds hi) ?_ hrest
  split
  · exact Node.whole_unary rfl hfirst
  · exact hfirst

theorem expressionLevel_builds (hi : Builds .expression inner) :
    Builds .expression (expressionLevel inner) := by
  intro s n s' h
  obtain ⟨left, s₁, hl, hcase⟩ := expressionLevel_eq_ok h
  have hleft := simpleExpression_builds hi _ _ _ hl
  rcases hcase with ⟨-, rfl, rfl⟩ | ⟨op, right, ho, hr, rfl⟩
  · exact hleft
  · exact Node.whole_binary (relation?_isBinary _ _ ho)
      (whole_later hleft ((steps_advance s₁).trans (Stepwise.ok hr)))
      (simpleExpression_builds hi _ _ _ hr)

end

theorem expression_builds : Builds .expression expression := by
  intro s
  refine expression_induction (R := fun _ r => ∀ n s', r = .ok n s' →
    n.Whole s'.symbols.size .expression) ?_ ?_ s
  · exact fun _ _ _ h => (by cases h)
  · exact fun inner _ h => expressionLevel_builds h

/-! ## Simple statements -/

theorem assignment_builds : Builds .statement assignment := by
  intro s n s' h
  unfold assignment at h
  rw [here_bind] at h
  split at h
  · obtain ⟨target, s₁, ht, h⟩ := bind_eq_ok.mp h
    obtain ⟨_, s₂, hassign, h⟩ := bind_eq_ok.mp h
    obtain ⟨value, s₃, hv, h⟩ := bind_eq_ok.mp h
    cases h
    have hlater : s₁.Steps s' := (Stepwise.ok hassign).trans (Stepwise.ok hv)
    exact Node.whole_assign _
      (Nat.lt_of_lt_of_le (number_lt_of_takeName ht) hlater.before.size_le)
      (expression_builds _ _ _ hv)
  · split at h
    · cases h
    · cases h
      exact Node.whole_noOp _

theorem arguments_whole {s s' : ParserState} {args : List Node} (h : arguments s = .ok args s') :
    ∀ a ∈ args, a.Whole s'.symbols.size .expression := by
  unfold arguments at h
  rw [kind_bind] at h
  split at h
  · cases h
    simp
  · obtain ⟨first, s₁, hf, h⟩ := bind_eq_ok.mp h
    refine loop_invariant (I := fun args s => ∀ a ∈ args, a.Whole s.symbols.size .expression)
      ?_ (by simpa using expression_builds _ _ _ hf) h
    intro args s o s' hargs ht
    have hlater : ∀ a ∈ args, a.Whole s'.symbols.size .expression :=
      fun a ha => whole_later (hargs a ha) (Stepwise.ok ht)
    rcases argumentTurn_eq_ok ht with ⟨rfl, rfl⟩ | ⟨arg, -, harg, rfl⟩
    · exact hlater
    · intro a ha
      rcases List.mem_append.mp ha with ha | ha
      · exact hlater a ha
      · rw [List.mem_singleton] at ha
        subst ha
        exact expression_builds _ _ _ harg

theorem procedureCall_builds : Builds .statement procedureCall := by
  intro s n s' h
  unfold procedureCall at h
  rw [line_bind] at h
  obtain ⟨id, s₁, hid, h⟩ := bind_eq_ok.mp h
  obtain ⟨paren, s₂, hparen, h⟩ := bind_eq_ok.mp h
  have hlt := number_lt_of_takeName hid
  cases paren with
  | false =>
    cases h
    exact Node.whole_call _ (Nat.lt_of_lt_of_le hlt (Stepwise.ok hparen).before.size_le)
  | true =>
    obtain ⟨args, s₃, hargs, h⟩ := bind_eq_ok.mp h
    obtain ⟨_, s₄, hclose, h⟩ := bind_eq_ok.mp h
    cases h
    have hlater : s₁.Steps s' :=
      ((Stepwise.ok hparen).trans (Stepwise.ok hargs)).trans (Stepwise.ok hclose)
    exact Node.whole_call_parameters _ _ (Nat.lt_of_lt_of_le hlt hlater.before.size_le)
      fun a ha => whole_later (arguments_whole hargs a ha) (Stepwise.ok hclose)

/-! ## Statements in statements -/

section

variable {inner : Parser Node} [Stepwise inner] (settings : Settings)

theorem statementList_whole (hi : Builds .statement inner) {closer : TokenKind} {missing : Cause}
    {s s' : ParserState} {nodes : List Node}
    (h : statementList settings inner closer missing s = .ok nodes s') :
    ∀ c ∈ nodes, c.Whole s'.symbols.size .statement := by
  unfold statementList at h
  obtain ⟨nodes', s₁, hloop, h⟩ := bind_eq_ok.mp h
  obtain ⟨_, s₂, hclose, h⟩ := bind_eq_ok.mp h
  cases h
  suffices hs : ∀ c ∈ nodes, c.Whole s₁.symbols.size .statement from
    fun c hc => whole_later (hs c hc) (Stepwise.ok hclose)
  refine loop_invariant (I := fun nodes s => ∀ c ∈ nodes, c.Whole s.symbols.size .statement)
    ?_ (by simp) hloop
  intro nodes s o s' hnodes ht
  have hlater : ∀ c ∈ nodes, c.Whole s'.symbols.size .statement :=
    fun c hc => whole_later (hnodes c hc) (Stepwise.ok ht)
  cases o with
  | none => exact hlater
  | some nodes' =>
    obtain ⟨-, -, node, s₁, hnode, rfl, -, hcase⟩ := listTurn_eq_some settings ht
    have hsteps : s₁.Steps s' := by
      rcases hcase with ⟨-, rfl⟩ | ⟨-, rfl⟩ | ⟨-, -, rfl⟩ | ⟨-, -, -, rfl⟩
      · exact steps_advance s₁
      · exact (Step.flag s₁ _).steps
      · exact Steps.refl s'
      · exact (Step.flag s₁ _).steps.trans (steps_advance _)
    intro c hc
    rcases List.mem_append.mp hc with hc | hc
    · exact hlater c hc
    · rw [List.mem_singleton] at hc
      subst hc
      exact whole_later (hi _ _ _ hnode) hsteps

theorem compound_builds (hi : Builds .statement inner) :
    Builds .statement (compound settings inner) := by
  intro s n s' h
  unfold compound at h
  rw [line_bind] at h
  obtain ⟨_, s₁, -, h⟩ := bind_eq_ok.mp h
  obtain ⟨nodes, s₂, hnodes, h⟩ := bind_eq_ok.mp h
  cases h
  exact Node.whole_compound _ (statementList_whole settings hi hnodes)

theorem ifStatement_builds (hi : Builds .statement inner) :
    Builds .statement (ifStatement inner) := by
  intro s n s' h
  unfold ifStatement at h
  rw [line_bind] at h
  obtain ⟨_, s₁, -, h⟩ := bind_eq_ok.mp h
  obtain ⟨condition, s₂, hcond, h⟩ := bind_eq_ok.mp h
  obtain ⟨_, s₃, hthen, h⟩ := bind_eq_ok.mp h
  obtain ⟨yes, s₄, hyes, h⟩ := bind_eq_ok.mp h
  obtain ⟨elseNext, s₅, helse, h⟩ := bind_eq_ok.mp h
  have hcond₅ := whole_later (expression_builds _ _ _ hcond)
    (((Stepwise.ok hthen).trans (Stepwise.ok hyes)).trans (Stepwise.ok helse))
  have hyes₅ := whole_later (hi _ _ _ hyes) (Stepwise.ok helse)
  cases elseNext with
  | false =>
    cases h
    exact Node.whole_branch_noElse _ hcond₅ hyes₅
  | true =>
    obtain ⟨no, s₆, hno, h⟩ := bind_eq_ok.mp h
    cases h
    exact Node.whole_branch _ (whole_later hcond₅ (Stepwise.ok hno))
      (whole_later hyes₅ (Stepwise.ok hno)) (hi _ _ _ hno)

theorem whileStatement_builds (hi : Builds .statement inner) :
    Builds .statement (whileStatement inner) := by
  intro s n s' h
  unfold whileStatement at h
  rw [line_bind] at h
  obtain ⟨_, s₁, -, h⟩ := bind_eq_ok.mp h
  obtain ⟨condition, s₂, hcond, h⟩ := bind_eq_ok.mp h
  obtain ⟨_, s₃, hdo, h⟩ := bind_eq_ok.mp h
  obtain ⟨body, s₄, hbody, h⟩ := bind_eq_ok.mp h
  cases h
  refine Node.whole_testFirst _ _ (whole_later (expression_builds _ _ _ hcond)
    ((Stepwise.ok hdo).trans (Stepwise.ok hbody))) ?_
  simpa using hi _ _ _ hbody

theorem repeatStatement_builds (hi : Builds .statement inner) :
    Builds .statement (repeatStatement settings inner) := by
  intro s n s' h
  unfold repeatStatement at h
  rw [line_bind] at h
  obtain ⟨_, s₁, -, h⟩ := bind_eq_ok.mp h
  obtain ⟨nodes, s₂, hnodes, h⟩ := bind_eq_ok.mp h
  rw [line_bind] at h
  obtain ⟨condition, s₃, hcond, h⟩ := bind_eq_ok.mp h
  cases h
  exact Node.whole_testLast _ _ (Node.whole_unary rfl (expression_builds _ _ _ hcond))
    fun c hc => whole_later (statementList_whole settings hi hnodes c hc) (Stepwise.ok hcond)

theorem loopStatement_builds (hi : Builds .statement inner) :
    Builds .statement (loopStatement inner) := by
  intro s n s' h
  unfold loopStatement at h
  obtain ⟨_, s₁, -, h⟩ := bind_eq_ok.mp h
  obtain ⟨_, s₂, -, h⟩ := bind_eq_ok.mp h
  rw [line_bind] at h
  obtain ⟨initial, s₃, hinitial, h⟩ := bind_eq_ok.mp h
  obtain ⟨_, s₄, h₄, h⟩ := bind_eq_ok.mp h
  obtain ⟨condition, s₅, hcond, h⟩ := bind_eq_ok.mp h
  obtain ⟨_, s₆, h₆, h⟩ := bind_eq_ok.mp h
  obtain ⟨update, s₇, hupdate, h⟩ := bind_eq_ok.mp h
  obtain ⟨_, s₈, h₈, h⟩ := bind_eq_ok.mp h
  obtain ⟨_, s₉, h₉, h⟩ := bind_eq_ok.mp h
  obtain ⟨body, s₁₀, hbody, h⟩ := bind_eq_ok.mp h
  cases h
  have hbehindUpdate : s₇.Steps s' :=
    ((Stepwise.ok h₈).trans (Stepwise.ok h₉)).trans (Stepwise.ok hbody)
  have hbehindCondition : s₅.Steps s' :=
    ((Stepwise.ok h₆).trans (Stepwise.ok hupdate)).trans hbehindUpdate
  have hbehindInitial : s₃.Steps s' :=
    ((Stepwise.ok h₄).trans (Stepwise.ok hcond)).trans hbehindCondition
  have hparts : ∀ c ∈ [body, { update with line := some s₂.line }],
      c.Whole s'.symbols.size .statement := by
    rw [List.forall_mem_cons, List.forall_mem_singleton]
    exact ⟨hi _ _ _ hbody,
      (whole_later (assignment_builds _ _ _ hupdate) hbehindUpdate).withLine s₂.line⟩
  refine Node.whole_compound _ ?_
  rw [List.forall_mem_cons, List.forall_mem_singleton]
  exact ⟨whole_later (assignment_builds _ _ _ hinitial) hbehindInitial,
    Node.whole_testFirst _ _ (whole_later (expression_builds _ _ _ hcond) hbehindCondition) hparts⟩

theorem whole_againstZero {names : Nat} {op : NodeKind} (hop : op.isBinary = true)
    {hidden : SymbolId} (h : hidden.number < names) :
    (againstZero op hidden).Whole names .expression :=
  Node.whole_binary hop (Node.whole_var h) (Node.whole_integer 0)

theorem whenStatement_builds (hi : Builds .statement inner) :
    Builds .statement (whenStatement settings inner) := by
  intro s n s' h
  unfold whenStatement at h
  rw [line_bind] at h
  obtain ⟨_, s₁, -, h⟩ := bind_eq_ok.mp h
  rw [line_bind] at h
  obtain ⟨value, s₂, hvalue, h⟩ := bind_eq_ok.mp h
  obtain ⟨hidden, s₃, hhidden, h⟩ := bind_eq_ok.mp h
  obtain ⟨_, s₄, h₄, h⟩ := bind_eq_ok.mp h
  obtain ⟨negative, s₅, hneg, h⟩ := bind_eq_ok.mp h
  obtain ⟨_, s₆, h₆, h⟩ := bind_eq_ok.mp h
  obtain ⟨_, s₇, h₇, h⟩ := bind_eq_ok.mp h
  rw [line_bind] at h
  obtain ⟨_, s₈, h₈, h⟩ := bind_eq_ok.mp h
  obtain ⟨zero, s₉, hzero, h⟩ := bind_eq_ok.mp h
  obtain ⟨_, s₁₀, h₁₀, h⟩ := bind_eq_ok.mp h
  obtain ⟨_, s₁₁, h₁₁, h⟩ := bind_eq_ok.mp h
  obtain ⟨positive, s₁₂, hpos, h⟩ := bind_eq_ok.mp h
  cases h
  have hbehindZero : s₉.Steps s' :=
    ((Stepwise.ok h₁₀).trans (Stepwise.ok h₁₁)).trans (Stepwise.ok hpos)
  have hbehindNegative : s₅.Steps s' :=
    ((((Stepwise.ok h₆).trans (Stepwise.ok h₇)).trans (Stepwise.ok h₈)).trans
      (Stepwise.ok hzero)).trans hbehindZero
  have hbehindHidden : s₃.Steps s' :=
    ((Stepwise.ok h₄).trans (Stepwise.ok hneg)).trans hbehindNegative
  have hlt : hidden.number < s'.symbols.size := by
    have := number_lt_of_enter s₂ (settings.whenName s₁.line) s₁.line
    cases hhidden
    exact Nat.lt_of_lt_of_le this hbehindHidden.before.size_le
  refine Node.whole_compound _ ?_
  rw [List.forall_mem_cons, List.forall_mem_singleton]
  refine ⟨Node.whole_assign _ hlt (whole_later (expression_builds _ _ _ hvalue)
    ((Stepwise.ok hhidden).trans hbehindHidden)), ?_⟩
  exact Node.whole_branch _ (whole_againstZero rfl hlt)
    (whole_later (hi _ _ _ hneg) hbehindNegative)
    (Node.whole_branch _ (whole_againstZero rfl hlt) (whole_later (hi _ _ _ hzero) hbehindZero)
      (hi _ _ _ hpos))

theorem statementLevel_builds (hi : Builds .statement inner) :
    Builds .statement (statementLevel settings inner) := by
  intro s n s' h
  cases statementLevel_eq_ok settings h with
  | compound _ h => exact compound_builds settings hi _ _ _ h
  | call _ h => exact procedureCall_builds _ _ _ h
  | assignment _ h => exact assignment_builds _ _ _ h
  | branch _ h => exact ifStatement_builds hi _ _ _ h
  | whileLoop _ h => exact whileStatement_builds hi _ _ _ h
  | repeatLoop _ h => exact repeatStatement_builds settings hi _ _ _ h
  | countingLoop _ h => exact loopStatement_builds hi _ _ _ h
  | sign _ h => exact whenStatement_builds settings hi _ _ _ h
  | empty _ hn _ =>
    rw [hn]
    exact Node.whole_noOp _

end

theorem statement_builds (settings : Settings) : Builds .statement (statement settings) := by
  intro s
  refine statement_induction settings (R := fun _ r => ∀ n s', r = .ok n s' →
    n.Whole s'.symbols.size .statement) ?_ ?_ s
  · exact fun _ _ _ h => (by cases h)
  · exact fun inner _ _ h => statementLevel_builds settings h

theorem program_builds (settings : Settings) : Builds .statement (program settings) := by
  intro s n s' h
  unfold program at h
  rw [kind_bind] at h
  split at h
  · obtain ⟨root, s₁, hroot, h⟩ := bind_eq_ok.mp h
    obtain ⟨_, s₂, hdot, h⟩ := bind_eq_ok.mp h
    have hlater := whole_later (compound_builds settings (statement_builds settings) _ _ _ hroot)
      (Stepwise.ok hdot)
    dsimp only at h
    rw [kind_bind] at h
    split at h
    · cases h
      exact hlater
    · cases h
      exact hlater
  · rw [line_bind] at h
    obtain ⟨nodes, s₁, hnodes, h⟩ := bind_eq_ok.mp h
    cases h
    exact Node.whole_compound _ (statementList_whole settings (statement_builds settings) hnodes)

/-! ## The law -/

/-- Whatever the tokens, the settings and the names known before are, a tree that a parser gives
is complete in all its nodes. -/
theorem every_tree_is_whole (settings : Settings) (e : Entry) (s s' : ParserState) (tree : Node)
    (h : e.parser settings s = .ok tree s') : tree.Whole s'.symbols.size .statement := by
  cases e with
  | statement => exact statement_builds settings s tree s' h
  | program => exact program_builds settings s tree s' h

/-- The tokens of `IF ) ; X := DO`. -/
def brokenTokens : List Token :=
  let token k text n := ⟨k, text, none, .between n (n + text.length), ⟨1, n + 1⟩⟩
  [token .kwIf "IF" 0, token .rightParen ")" 3, token .semicolon ";" 5, token .identifier "X" 7,
    token .assign ":=" 9, token .kwDo "DO" 12, token .endOfFile "" 14]

/-- Five syntax errors, and the tree is whole. -/
theorem broken_tree_is_whole :
    ∃ tree s', Entry.program.parser {} (.start brokenTokens {}) = .ok tree s' ∧
      s'.errorCount = 5 ∧ tree.Whole s'.symbols.size .statement := by
  have h : ((Entry.program.parser {}).runFrom (.start brokenTokens {})).1.isOk = true ∧
      ((Entry.program.parser {}).runFrom (.start brokenTokens {})).2.errorCount = 5 := by
    decide +kernel
  unfold runFrom at h
  rcases hr : Entry.program.parser {} (.start brokenTokens {}) with ⟨tree, s'⟩ | ⟨e, s'⟩
  · rw [hr] at h
    exact ⟨tree, s', rfl, h.2, every_tree_is_whole {} .program _ s' tree hr⟩
  · rw [hr] at h
    cases h.1

end PascalFront.Parser
