-- Progress. Every parser takes a token before it calls itself, and every turn
-- of every loop takes one, so parsing ends for every row of tokens. That rests
-- on an agreement of two tables: what a statement list takes for the start of a
-- statement, the statement parser does not leave standing.
import PascalFront.Proofs.Branches
import PascalFront.Proofs.Recursion

namespace PascalFront.Parser

open ParserState

/-! ## Expressions -/

section

variable {n : Nat} {p q : Parser Node} [AgreeBelow n p q] [Stepwise q]

instance : AgreeBelow (n + 1) (operand p) (operand q) := by
  constructor
  intro s hs
  unfold operand
  rw [here_bind, here_bind]
  cases hk : s.here.kind
  case leftParen => exact advance_agrees hs (atEnd_of_kind hk (by decide))
  all_goals rfl

instance : AgreeBelow (n + 1) (factor p) (factor q) := by unfold factor; infer_instance

instance (operator? : TokenKind → Option NodeKind) (left : Node) :
    AgreeBelow n (chainTurn operator? p left) (chainTurn operator? q left) := by
  have hop : ∀ o : Option NodeKind, AgreeBelow n
      (match o with
        | none => pure none
        | some op => do
          advance
          return some (.binary op left (← p)) : Parser (Option Node))
      (match o with
        | none => pure none
        | some op => do
          advance
          return some (.binary op left (← q)) : Parser (Option Node)) := by
    intro o
    cases o <;> infer_instance
  unfold chainTurn
  infer_instance

instance (operator? : TokenKind → Option NodeKind) (first : Node) :
    AgreeBelow n (chain operator? p first) (chain operator? q first) := by
  unfold chain; infer_instance

instance : AgreeBelow (n + 1) (term p) (term q) := by unfold term; infer_instance

instance : AgreeBelow (n + 1) (simpleExpression p) (simpleExpression q) := by
  unfold simpleExpression
  infer_instance

instance : AgreeBelow (n + 1) (expressionLevel p) (expressionLevel q) := by
  have hop : ∀ (o : Option NodeKind) (left : Node), AgreeBelow (n + 1)
      (match o with
        | none => pure left
        | some op => do
          advance
          return .binary op left (← simpleExpression p) : Parser Node)
      (match o with
        | none => pure left
        | some op => do
          advance
          return .binary op left (← simpleExpression q) : Parser Node) := by
    intro o left
    cases o <;> infer_instance
  unfold expressionLevel
  infer_instance

end

theorem expressionLevel_guarded : Guarded expressionLevel := fun _ _ _ _ _ => inferInstance

theorem expression_eq : expression = expressionLevel expression :=
  nest_eq expressionLevel_guarded fun _ _ => inferInstance

/-- What each level keeps of its inner expressions, every expression has. -/
theorem expression_induction {R : ParserState → EStateM.Result Failure ParserState Node → Prop}
    (hfail : ∀ s, R s (endedEarly s))
    (hstep : ∀ inner, Stepwise inner → (∀ s, R s (inner s)) → ∀ s, R s (expressionLevel inner s))
    (s : ParserState) : R s (expression s) :=
  nest_induction expressionLevel_guarded (fun _ _ => inferInstance) hfail hstep s

/-! ## Statements -/

section

variable {n : Nat} {p q : Parser Node} [AgreeBelow n p q] [Stepwise q] (settings : Settings)

instance (closer : TokenKind) (nodes : List Node) :
    AgreeBelow n (listTurn settings p closer nodes) (listTurn settings q closer nodes) := by
  rw [listTurn_eq, listTurn_eq]; infer_instance

instance (closer : TokenKind) (missing : Cause) :
    AgreeBelow n (statementList settings p closer missing)
      (statementList settings q closer missing) := by
  unfold statementList; infer_instance

variable {s : ParserState} (hs : s.left < n + 1) (hend : s.cursor.atEnd = false)

include hs hend

theorem compound_agrees : compound settings p s = compound settings q s := by
  unfold compound
  rw [line_bind, line_bind]
  exact advance_agrees hs hend

theorem ifStatement_agrees : ifStatement p s = ifStatement q s := by
  unfold ifStatement
  rw [line_bind, line_bind]
  exact advance_agrees hs hend

theorem whileStatement_agrees : whileStatement p s = whileStatement q s := by
  unfold whileStatement
  rw [line_bind, line_bind]
  exact advance_agrees hs hend

theorem repeatStatement_agrees : repeatStatement settings p s = repeatStatement settings q s := by
  unfold repeatStatement
  rw [line_bind, line_bind]
  exact advance_agrees hs hend

theorem loopStatement_agrees : loopStatement p s = loopStatement q s := by
  unfold loopStatement
  exact advance_agrees hs hend

theorem whenStatement_agrees : whenStatement settings p s = whenStatement settings q s := by
  unfold whenStatement
  rw [line_bind, line_bind]
  exact advance_agrees hs hend

end

theorem statementLevel_guarded (settings : Settings) : Guarded (statementLevel settings) := by
  intro n p q hq hp
  constructor
  intro s hs
  unfold statementLevel
  rw [kind_bind, kind_bind]
  cases hk : s.kind
  case kwBegin => exact compound_agrees settings hs (atEnd_of_kind hk (by decide))
  case kwIf => exact ifStatement_agrees hs (atEnd_of_kind hk (by decide))
  case kwWhile => exact whileStatement_agrees hs (atEnd_of_kind hk (by decide))
  case kwRepeat => exact repeatStatement_agrees settings hs (atEnd_of_kind hk (by decide))
  case kwLoop => exact loopStatement_agrees hs (atEnd_of_kind hk (by decide))
  case kwWhen => exact whenStatement_agrees settings hs (atEnd_of_kind hk (by decide))
  all_goals rfl

theorem statement_eq (settings : Settings) :
    statement settings = statementLevel settings (statement settings) :=
  nest_eq (statementLevel_guarded settings) fun _ _ => inferInstance

/-! ## What a statement takes -/

/-- A parser that takes a token wherever a statement is opened, and reads the empty statement
everywhere else. -/
structure IsStatementParser (p : Parser Node) : Prop where
  takes : ∀ s n s', s.kind ∈ statementOpeners → p s = .ok n s' → s'.left < s.left
  leaves : ∀ s n s', s.kind ∉ statementOpeners → p s = .ok n s' →
    n = .statement .noOp s.line [] ∧ s' = s

theorem left_lt_of_advance {s s' : ParserState} {f : Unit → Parser α} {a : α} [Stepwise (f ())]
    (hend : s.cursor.atEnd = false) (h : (advance >>= f) s = .ok a s') : s'.left < s.left := by
  have hle := (Stepwise.ok (p := f ()) h).before.left_le
  have := left_advance hend
  omega

section

variable {inner : Parser Node} (settings : Settings)

theorem takeName_bind_left_lt {s s' : ParserState} {f : SymbolId → Parser α} {a : α}
    [hf : ∀ id, Stepwise (f id)] (hend : s.cursor.atEnd = false)
    (h : (takeName >>= f) s = .ok a s') : s'.left < s.left := by
  rw [bind_apply, takeName_eq] at h
  have hle := (Stepwise.ok (p := f _) h).before.left_le
  have : (s.enter (caseFold s.here.text) s.line).2.advance.left + 1 = s.left :=
    left_advance (s := (s.enter (caseFold s.here.text) s.line).2) hend
  omega

/-- Whatever the inner parser does, a level takes the token that opens the statement. -/
theorem statementLevel_takes [Stepwise inner] {s s' : ParserState} {n : Node}
    (hopen : s.kind ∈ statementOpeners) (h : statementLevel settings inner s = .ok n s') :
    s'.left < s.left := by
  have hend : s.cursor.atEnd = false := by
    rw [atEnd_eq]
    revert hopen
    cases s.kind <;> decide
  cases statementLevel_eq_ok settings h with
  | compound _ h =>
    simp only [compound, line_bind] at h
    exact left_lt_of_advance hend h
  | call _ h =>
    simp only [procedureCall, line_bind] at h
    exact takeName_bind_left_lt hend h
  | assignment hk h =>
    simp only [assignment, here_bind] at h
    rw [if_pos (show s.here.kind = .identifier from hk)] at h
    exact takeName_bind_left_lt hend h
  | branch _ h =>
    simp only [ifStatement, line_bind] at h
    exact left_lt_of_advance hend h
  | whileLoop _ h =>
    simp only [whileStatement, line_bind] at h
    exact left_lt_of_advance hend h
  | repeatLoop _ h =>
    simp only [repeatStatement, line_bind] at h
    exact left_lt_of_advance hend h
  | countingLoop _ h => exact left_lt_of_advance hend h
  | sign _ h =>
    simp only [whenStatement, line_bind] at h
    exact left_lt_of_advance hend h
  | empty hno => exact absurd hopen hno

theorem statementLevel_isStatementParser [Stepwise inner] :
    IsStatementParser (statementLevel settings inner) where
  takes _ _ _ hk h := statementLevel_takes settings hk h
  leaves s n s' hk h := by
    rw [statementLevel_of_not_opener settings hk] at h
    cases h
    exact ⟨rfl, rfl⟩

/-- Where there is no statement to take, the token is a semicolon or belongs nowhere, and the turn
takes it then. -/
theorem listTurn_progressive (hi : IsStatementParser inner) (closer : TokenKind) :
    Progressive (listTurn settings inner closer) := by
  intro nodes s nodes' s' h
  obtain ⟨hcloser, hend, node, s₁, hnode, -, -, hcase⟩ := listTurn_eq_some settings h
  by_cases hopen : s.kind ∈ statementOpeners
  · have hlt := hi.takes s node s₁ hopen hnode
    have hadv : s₁.advance.left ≤ s₁.left := (steps_advance s₁).before.left_le
    rcases hcase with ⟨-, rfl⟩ | ⟨-, rfl⟩ | ⟨-, -, rfl⟩ | ⟨-, -, -, rfl⟩
    · exact Nat.lt_of_le_of_lt hadv hlt
    · exact hlt
    · exact hlt
    · exact Nat.lt_of_le_of_lt hadv hlt
  · obtain ⟨-, rfl⟩ := hi.leaves s node s₁ hopen hnode
    have hadv := left_advance (atEnd_of_kind rfl hend)
    rcases hcase with ⟨-, rfl⟩ | ⟨hk, -⟩ | ⟨-, hk | hk, -⟩ | ⟨-, -, -, rfl⟩
    · omega
    · exact absurd hk hopen
    · exact absurd hk hcloser
    · exact absurd hk hend
    · exact Nat.lt_of_succ_le (Nat.le_of_eq hadv)

/-- The loop of a statement list goes on up to the token that closes the list, or to the end. -/
theorem listLoop_closes (hi : IsStatementParser inner) {closer : TokenKind}
    {nodes nodes' : List Node} {s s' : ParserState}
    (h : loop (listTurn settings inner closer) nodes s = .ok nodes' s') :
    s'.kind = closer ∨ s'.kind = .endOfFile := by
  refine loop_induction (R := fun _ _ _ s' => s'.kind = closer ∨ s'.kind = .endOfFile)
    (listTurn_progressive settings hi closer) ?_ (fun _ _ _ _ _ _ _ _ => id) h
  intro nodes s s' ht
  obtain ⟨hclosed, rfl⟩ := listTurn_eq_none settings ht
  exact hclosed

end

theorem statement_isStatementParser (settings : Settings) :
    IsStatementParser (statement settings) := by
  rw [statement_eq settings]
  exact statementLevel_isStatementParser settings

/-- What each level keeps of its inner statements, every statement has. -/
theorem statement_induction (settings : Settings)
    {R : ParserState → EStateM.Result Failure ParserState Node → Prop}
    (hfail : ∀ s, R s (endedEarly s))
    (hstep : ∀ inner, Stepwise inner → IsStatementParser inner → (∀ s, R s (inner s)) →
      ∀ s, R s (statementLevel settings inner s)) (s : ParserState) :
    R s (statement settings s) := by
  suffices h : R s (statement settings s) ∧
      (s.kind ∈ statementOpeners → ∀ n s', statement settings s = .ok n s' → s'.left < s.left) ∧
      (s.kind ∉ statementOpeners → ∀ n s', statement settings s = .ok n s' →
        n = .statement .noOp s.line [] ∧ s' = s) from h.1
  refine nest_induction (statementLevel_guarded settings) (fun _ _ => inferInstance)
    (R := fun s r => R s r ∧ (s.kind ∈ statementOpeners → ∀ n s', r = .ok n s' → s'.left < s.left) ∧
      (s.kind ∉ statementOpeners → ∀ n s', r = .ok n s' → n = .statement .noOp s.line [] ∧ s' = s))
    ?_ ?_ s
  · exact fun s => ⟨hfail s, fun _ _ _ h => (by cases h), fun _ _ _ h => (by cases h)⟩
  · intro p hp h s
    have hi : IsStatementParser p :=
      ⟨fun s n s' hk => (h s).2.1 hk n s', fun s n s' hk => (h s).2.2 hk n s'⟩
    have hl : IsStatementParser (statementLevel settings p) :=
      statementLevel_isStatementParser settings
    exact ⟨hstep p hp hi (fun s => (h s).1) s, fun hk n s' => hl.takes s n s' hk,
      fun hk n s' => hl.leaves s n s' hk⟩

/-! ## The other loops -/

theorem negationTurn_progressive : Progressive negationTurn := by
  intro n s n' s' h
  rcases negationTurn_eq_ok h with ⟨-, hk, rfl⟩ | ⟨ho, -⟩
  · have := left_advance (atEnd_of_kind hk (by decide))
    omega
  · cases ho

theorem argumentTurn_progressive : Progressive argumentTurn := by
  intro args s args' s' h
  rcases argumentTurn_eq_ok h with ⟨ho, -⟩ | ⟨arg, hk, harg, -⟩
  · cases ho
  · have hle := (Stepwise.ok harg).before.left_le
    have := left_advance (atEnd_of_kind hk (by decide))
    omega

theorem chainTurn_progressive {operator? : TokenKind → Option NodeKind} {item : Parser Node}
    [Stepwise item] (hop : operator? .endOfFile = none) :
    Progressive (chainTurn operator? item) := by
  intro left s left' s' h
  rcases chainTurn_eq_ok h with ⟨-, ho, -⟩ | ⟨op, right, ho, hright, -⟩
  · cases ho
  · have hend : s.kind ≠ .endOfFile := by
      intro hk
      rw [hk, hop] at ho
      cases ho
    have hle := (Stepwise.ok hright).before.left_le
    have := left_advance (atEnd_of_kind rfl hend)
    omega

end PascalFront.Parser
