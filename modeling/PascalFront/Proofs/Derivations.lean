-- From a derivation to a run: where the grammar derives a sentence, the parser
-- passes exactly that sentence, notes nothing, and gives its lowering. What
-- stands behind the sentence decides where the parser stops, so each statement
-- here has a condition on the next token.
import PascalFront.Proofs.Sentences
import PascalFront.Proofs.Lowering

namespace PascalFront.Parser

open ParserState ResumePoints

/-! ## What a run gives -/

/-- In front of some tokens, with some names and nothing noted. -/
structure Shows (s : ParserState) (ts : List Token) (table : SymbolTable) : Prop where
  upcoming : s.upcoming = ts
  symbols : s.symbols = table
  clean : s.Clean

/-- In front of `ts` a parser gives `a` without a diagnostic and leaves `rest`. -/
def Gives (p : Parser α) (ts : List Token) (table : SymbolTable) (a : α) (rest : List Token)
    (table' : SymbolTable) : Prop :=
  ∀ s, Shows s ts table → ∃ s', p s = .ok a s' ∧ Shows s' rest table'

section

variable {ts rest mid : List Token} {t : Token} {table table' table₁ : SymbolTable} {k : TokenKind}

theorem isEnd_of_kind (h : t.kind = k) (hk : k ≠ .endOfFile) : t.isEnd = false := by
  simpa [Token.isEnd, h] using hk

theorem Shows.here {s : ParserState} (h : Shows s (t :: rest) table) : s.here = t := by
  have hhead : s.upcoming.head? = some s.here := Cursor.head?_upcoming s.cursor
  rw [h.upcoming] at hhead
  simpa using hhead.symm

theorem Shows.atEnd {s : ParserState} (h : Shows s (t :: rest) table) (ht : t.isEnd = false) :
    s.cursor.atEnd = false := by
  have hhere := h.here
  rw [← hhere] at ht
  exact ht

theorem Shows.advance {s : ParserState} (h : Shows s (t :: rest) table) (ht : t.isEnd = false) :
    Shows s.advance rest table := by
  have hu := upcoming_advance (h.atEnd ht)
  rw [h.upcoming] at hu
  exact ⟨(List.cons.inj hu).2.symm, h.symbols, h.clean⟩

theorem Gives.bind {p : Parser α} {f : α → Parser β} {a : α} {b : β}
    (hp : Gives p ts table a mid table₁) (hf : Gives (f a) mid table₁ b rest table') :
    Gives (p >>= f) ts table b rest table' := by
  intro s hs
  obtain ⟨s₁, hr, h₁⟩ := hp s hs
  obtain ⟨s', hr', h'⟩ := hf s₁ h₁
  exact ⟨s', bind_eq_ok.mpr ⟨a, s₁, hr, hr'⟩, h'⟩

theorem gives_pure (a : α) : Gives (pure a) ts table a ts table := fun s hs => ⟨s, rfl, hs⟩

theorem gives_here : Gives here (t :: rest) table t (t :: rest) table := by
  intro s hs
  exact ⟨s, by rw [← hs.here]; rfl, hs⟩

theorem gives_kind : Gives kind ts table (kindAhead ts) ts table := by
  intro s hs
  refine ⟨s, ?_, hs⟩
  rw [← hs.upcoming, ← kind_eq_ahead]
  rfl

theorem gives_line : Gives line ts table (lineAhead ts) ts table := by
  intro s hs
  refine ⟨s, ?_, hs⟩
  rw [← hs.upcoming, ← line_eq_ahead]
  rfl

theorem gives_nextKind (ht : t.isEnd = false) :
    Gives nextKind (t :: rest) table (kindAhead rest) (t :: rest) table := by
  intro s hs
  refine ⟨s, ?_, hs⟩
  have hk := kind_eq_ahead s.advance
  rw [(hs.advance ht).upcoming] at hk
  unfold nextKind
  rw [Cursor.second_eq_here_advance (hs.atEnd ht), ← hk]
  rfl

theorem gives_advance (ht : t.isEnd = false) : Gives advance (t :: rest) table () rest table :=
  fun s hs => ⟨s.advance, rfl, hs.advance ht⟩

theorem gives_accept (ht : t.kind = k) (hk : k ≠ .endOfFile) :
    Gives (accept k) (t :: rest) table true rest table := by
  intro s hs
  have hkind : s.kind = k := by rw [← ht, ← hs.here]; rfl
  refine ⟨s.advance, ?_, hs.advance (isEnd_of_kind ht hk)⟩
  unfold accept
  rw [if_pos hkind]

theorem gives_accept_false (h : kindAhead ts ≠ k) :
    Gives (accept k) ts table false ts table := by
  intro s hs
  have hkind : s.kind ≠ k := by rwa [kind_eq_ahead, hs.upcoming]
  refine ⟨s, ?_, hs⟩
  unfold accept
  rw [if_neg hkind]

theorem gives_expect {missing : Cause} (ht : t.kind = k) (hk : k ≠ .endOfFile) :
    Gives (expect k missing) (t :: rest) table () rest table := by
  intro s hs
  have hkind : s.kind = k := by rw [← ht, ← hs.here]; rfl
  refine ⟨s.advance, ?_, hs.advance (isEnd_of_kind ht hk)⟩
  unfold expect
  rw [if_pos hkind]

/-- The token for the end is never passed. -/
theorem gives_expect_end {missing : Cause} (ht : t.isEnd = true) :
    Gives (expect .endOfFile missing) (t :: rest) table () (t :: rest) table := by
  intro s hs
  have hend : s.cursor.atEnd = true := by
    rw [← hs.here] at ht
    exact ht
  have hkind : s.kind = .endOfFile := beq_iff_eq.mp hend
  refine ⟨s, ?_, hs⟩
  unfold expect ParserState.advance
  rw [if_pos hkind, Cursor.advance_of_atEnd hend]

theorem gives_resumeAt {set : KindSet} (h : set.contains (kindAhead ts) = true) :
    Gives (resumeAt set) ts table () ts table := by
  intro s hs
  rw [← hs.upcoming, ← kind_eq_ahead] at h
  refine ⟨s, ?_, hs⟩
  unfold resumeAt ParserState.resumeAt
  rw [h]
  rfl

theorem gives_expectIn {set : KindSet} {missing : Cause} (ht : t.kind = k) (hk : k ≠ .endOfFile)
    (hset : set.contains k = true) :
    Gives (expectIn set k missing) (t :: rest) table () rest table := by
  refine Gives.bind (gives_resumeAt ?_) (gives_expect ht hk)
  rw [← ht] at hset
  exact hset

theorem gives_enter (name : String) (line : Nat) : Gives (enter name line) ts table
    (table.enterAt name line).1 ts (table.enterAt name line).2 := by
  rintro s ⟨hu, rfl, hc⟩
  exact ⟨(s.enter name line).2, rfl, hu, rfl, hc⟩

theorem gives_takeName (ht : t.kind = .identifier) :
    Gives takeName (t :: rest) table (t.asName.enter table).1 rest (t.asName.enter table).2 := by
  refine Gives.bind gives_here (Gives.bind (gives_enter _ _) ?_)
  exact Gives.bind (gives_advance (isEnd_of_kind ht (by decide))) (gives_pure _)

theorem gives_checkLimit (settings : Settings) :
    Gives (checkLimit settings) ts table () ts table := by
  intro s hs
  refine ⟨s, ?_, hs⟩
  have hcount : s.errorCount = 0 := by simp [errorCount, show s.diagnostics = #[] from hs.clean]
  unfold checkLimit
  rw [hcount, if_neg (Nat.not_lt_zero _)]

/-- A semicolon that may be left out is taken when it is there. -/
theorem gives_optionalSemicolon (h : OptionalSemicolon ts rest)
    (hrest : kindAhead rest ≠ .semicolon) (table : SymbolTable) :
    ∃ b, Gives (accept .semicolon) ts table b rest table := by
  cases h with
  | absent => exact ⟨false, gives_accept_false hrest⟩
  | present ht => exact ⟨true, gives_accept ht (by decide)⟩

variable {turn : β → Parser (Option β)} {b b₁ b' : β}

theorem gives_loop_done (hp : Progressive turn) (h : Gives (turn b) ts table none rest table') :
    Gives (loop turn b) ts table b rest table' := by
  rw [loop_unrolls hp]
  exact h.bind (gives_pure b)

theorem gives_loop_again (hp : Progressive turn) (h : Gives (turn b) ts table (some b₁) mid table₁)
    (hrest : Gives (loop turn b₁) mid table₁ b' rest table') :
    Gives (loop turn b) ts table b' rest table' := by
  rw [loop_unrolls hp]
  exact h.bind hrest

end

/-! ## Expressions -/

theorem relation?_token {op : Operator} (h : op.layer = .expression) :
    relation? op.token = some op.node ∧ sum? op.token = none ∧ product? op.token = none := by
  cases op <;> first | exact ⟨rfl, rfl, rfl⟩ | cases h

theorem sum?_token {op : Operator} (h : op.layer = .simple) :
    sum? op.token = some op.node ∧ product? op.token = none := by
  cases op <;> first | exact ⟨rfl, rfl⟩ | cases h

theorem product?_token {op : Operator} (h : op.layer = .term) :
    product? op.token = some op.node := by
  cases op <;> first | rfl | cases h

theorem token_ne_end (op : Operator) : op.token ≠ .endOfFile := by cases op <;> decide

theorem constant?_eq_some {t : Token} {v : Value} (h : t.constant? = some v) :
    t.kind = .integer ∧ t.integerNode = v.node ∨ t.kind = .real ∧ t.realNode = v.node ∨
      t.kind = .string ∧ t.stringNode = v.node := by
  unfold Token.constant? at h
  split at h
  all_goals cases h
  all_goals simp_all [Token.integerNode, Token.realNode, Token.stringNode, Value.node]

/-- A phrase starts with a token for expressions, and below the sums not with a sign. -/
theorem phrase_starts {layer : Layer} {ts rest : List Token} {e : Expr}
    (h : Phrase layer ts e rest) : expressionStart.contains (kindAhead ts) = true ∧
      (layer = .factor ∨ layer = .term → sum? (kindAhead ts) = none) := by
  induction h with
  | name ht =>
    rw [kindAhead_cons, ht]
    decide
  | literal ht =>
    rcases constant?_eq_some ht with ⟨hk, -⟩ | ⟨hk, -⟩ | ⟨hk, -⟩
    all_goals
      rw [kindAhead_cons, hk]
      decide
  | not ht =>
    rw [kindAhead_cons, ht]
    decide
  | parens ht =>
    rw [kindAhead_cons, ht]
    decide
  | factor _ ih => exact ⟨ih.1, fun _ => ih.2 (Or.inl rfl)⟩
  | product _ _ _ _ ih => exact ⟨ih.1, fun _ => ih.2 (Or.inr rfl)⟩
  | term _ ih => exact ⟨ih.1, fun h => by simp at h⟩
  | plus ht =>
    rw [kindAhead_cons, ht]
    decide
  | minus ht =>
    rw [kindAhead_cons, ht]
    decide
  | sum _ _ _ _ ih => exact ⟨ih.1, fun h => by simp at h⟩
  | simple _ ih => exact ⟨ih.1, fun h => by simp at h⟩
  | relation _ _ _ _ ih => exact ⟨ih.1, fun h => by simp at h⟩

theorem gives_constant {t : Token} {rest : List Token} {table : SymbolTable} {n : Node}
    (ht : t.isEnd = false) : Gives (constant n) (t :: rest) table n rest table :=
  (gives_advance ht).bind (gives_pure n)

theorem gives_literal {inner : Parser Node} {t : Token} {rest : List Token} {table : SymbolTable}
    {v : Value} (h : t.constant? = some v) :
    Gives (operand inner) (t :: rest) table v.node rest table := by
  refine Gives.bind gives_here ?_
  rcases constant?_eq_some h with ⟨hk, hv⟩ | ⟨hk, hv⟩ | ⟨hk, hv⟩
  all_goals
    rw [hk, ← hv]
    exact gives_constant (isEnd_of_kind hk (by decide))

theorem gives_negations_done {k : Nat} {ts : List Token} {table : SymbolTable}
    (h : kindAhead ts ≠ .kwNot) : Gives (loop negationTurn k) ts table k ts table :=
  gives_loop_done negationTurn_progressive ((gives_accept_false h).bind (gives_pure none))

/-- What the parser of a layer does in front of a phrase. A factor may have been begun with some
NOTs; a term or a sum may go on, so there the rest of the chain counts; an expression is over. -/
def Reads : Layer → List Token → Expr → List Token → Prop
  | .factor, ts, e, rest => ∀ k table,
      Gives (do let k ← loop negationTurn k; return negated k (← operand expression)) ts table
        (negated k (e.lower table).1) rest (e.lower table).2
  | .term, ts, e, rest => ∀ table n rest' table',
      Gives (chain product? (factor expression) (e.lower table).1) rest (e.lower table).2
        n rest' table' →
      Gives (term expression) ts table n rest' table'
  | .simple, ts, e, rest => product? (kindAhead rest) = none → ∀ table n rest' table',
      Gives (chain sum? (term expression) (e.lower table).1) rest (e.lower table).2
        n rest' table' →
      Gives (simpleExpression expression) ts table n rest' table'
  | .expression, ts, e, rest => product? (kindAhead rest) = none → sum? (kindAhead rest) = none →
      relation? (kindAhead rest) = none → ∀ table,
      Gives expression ts table (e.lower table).1 rest (e.lower table).2

section

variable {item : Parser Node} [Stepwise item] {operator? : TokenKind → Option NodeKind}
  {ts mid rest : List Token} {t : Token} {table table' table₁ : SymbolTable} {left right n : Node}

theorem gives_chain_done (hend : operator? .endOfFile = none)
    (h : operator? (kindAhead ts) = none) :
    Gives (chain operator? item left) ts table left ts table := by
  refine gives_loop_done (chainTurn_progressive hend) (gives_kind.bind ?_)
  rw [h]
  exact gives_pure none

theorem gives_chain_again (hend : operator? .endOfFile = none) {op : Operator}
    (ht : t.kind = op.token) (hop : operator? op.token = some op.node)
    (hr : Gives item ts table right mid table₁)
    (hrest : Gives (chain operator? item (.binary op.node left right)) mid table₁ n rest table') :
    Gives (chain operator? item left) (t :: ts) table n rest table' := by
  refine gives_loop_again (chainTurn_progressive hend) (gives_kind.bind ?_) hrest
  rw [kindAhead_cons, ht, hop]
  exact (gives_advance (isEnd_of_kind ht (token_ne_end op))).bind (hr.bind (gives_pure _))

end

section

variable {ts mid rest : List Token} {t : Token} {e left right : Expr} {op : Operator}

theorem Reads.factor_gives (h : Reads .factor ts e rest) (table : SymbolTable) :
    Gives (factor expression) ts table (e.lower table).1 rest (e.lower table).2 := h 0 table

theorem Reads.term_gives (h : Reads .term ts e rest) (hrest : product? (kindAhead rest) = none)
    (table : SymbolTable) :
    Gives (term expression) ts table (e.lower table).1 rest (e.lower table).2 :=
  h table _ _ _ (gives_chain_done rfl hrest)

theorem Reads.simple_gives (h : Reads .simple ts e rest)
    (hproduct : product? (kindAhead rest) = none) (hsum : sum? (kindAhead rest) = none)
    (table : SymbolTable) :
    Gives (simpleExpression expression) ts table (e.lower table).1 rest (e.lower table).2 :=
  h hproduct table _ _ _ (gives_chain_done rfl hsum)

/-- A factor that is an operand: no NOT stands in front of it. -/
theorem reads_operand (hk : kindAhead ts ≠ .kwNot)
    (h : ∀ table, Gives (operand expression) ts table (e.lower table).1 rest (e.lower table).2) :
    Reads .factor ts e rest := fun _ table =>
  (gives_negations_done hk).bind ((h table).bind (gives_pure _))

theorem negated_succ (k : Nat) (n : Node) : negated (k + 1) n = negated k (.operator .not [n]) := by
  induction k with
  | zero => rfl
  | succ k ih => exact congrArg (fun n => Node.operator .not [n]) ih

theorem reads_not (ht : t.kind = .kwNot) (h : Reads .factor ts e rest) :
    Reads .factor (t :: ts) (.not e) rest := by
  intro k table
  have hturn : Gives (negationTurn k) (t :: ts) table (some (k + 1)) ts table :=
    (gives_accept ht (by decide)).bind (gives_pure _)
  have hnode : negated (k + 1) (e.lower table).1 = negated k ((Expr.not e).lower table).1 :=
    negated_succ k _
  rw [loop_unrolls negationTurn_progressive, bind_assoc]
  exact hturn.bind (hnode ▸ h (k + 1) table)

theorem reads_parens {u : Token} (ht : t.kind = .leftParen)
    (h : Reads .expression ts e (u :: rest)) (hu : u.kind = .rightParen) :
    Reads .factor (t :: ts) e rest := by
  have hclose : kindAhead (u :: rest) = .rightParen := hu
  refine reads_operand (by rw [kindAhead_cons, ht]; decide) fun table => ?_
  refine Gives.bind gives_here ?_
  rw [ht]
  refine (gives_advance (isEnd_of_kind ht (by decide))).bind ?_
  refine Gives.bind (h (by rw [hclose]; rfl) (by rw [hclose]; rfl) (by rw [hclose]; rfl) table) ?_
  exact (gives_expect hu (by decide)).bind (gives_pure _)

theorem reads_product (hop : op.layer = .term) (hl : Reads .term ts left (t :: mid))
    (ht : t.kind = op.token) (hr : Reads .factor mid right rest) :
    Reads .term ts (.binary op left right) rest := by
  intro table n rest' table' hrest
  refine hl table n rest' table' ?_
  exact gives_chain_again rfl ht (product?_token hop) (hr.factor_gives _) hrest

theorem reads_simple_of_term (hstart : sum? (kindAhead ts) = none) (h : Reads .term ts e rest) :
    Reads .simple ts e rest := by
  intro hproduct table n rest' table' hrest
  have hsign : ¬ (kindAhead ts = .plus ∨ kindAhead ts = .minus) := by
    rintro (hk | hk) <;> rw [hk] at hstart <;> cases hstart
  unfold simpleExpression
  dsimp only
  refine Gives.bind gives_kind ?_
  rw [if_neg hsign]
  refine Gives.bind (h.term_gives hproduct table) ?_
  rw [if_neg (fun hk => hsign (Or.inr hk))]
  exact hrest

theorem reads_plus (ht : t.kind = .plus) (h : Reads .term ts e rest) :
    Reads .simple (t :: ts) e rest := by
  intro hproduct table n rest' table' hrest
  have hk : kindAhead (t :: ts) = .plus := ht
  unfold simpleExpression
  dsimp only
  refine Gives.bind gives_kind ?_
  rw [hk, if_pos (Or.inl rfl)]
  refine (gives_advance (isEnd_of_kind ht (by decide))).bind ?_
  exact Gives.bind (h.term_gives hproduct table) hrest

theorem reads_minus (ht : t.kind = .minus) (h : Reads .term ts e rest) :
    Reads .simple (t :: ts) (.negate e) rest := by
  intro hproduct table n rest' table' hrest
  have hk : kindAhead (t :: ts) = .minus := ht
  unfold simpleExpression
  dsimp only
  refine Gives.bind gives_kind ?_
  rw [hk, if_pos (Or.inr rfl)]
  refine (gives_advance (isEnd_of_kind ht (by decide))).bind ?_
  exact Gives.bind (h.term_gives hproduct table) hrest

theorem reads_sum (hop : op.layer = .simple) (hl : Reads .simple ts left (t :: mid))
    (ht : t.kind = op.token) (hr : Reads .term mid right rest) :
    Reads .simple ts (.binary op left right) rest := by
  intro hproduct table n rest' table' hrest
  have hk : kindAhead (t :: mid) = op.token := ht
  refine hl (by rw [hk]; exact (sum?_token hop).2) table n rest' table' ?_
  exact gives_chain_again rfl ht (sum?_token hop).1 (hr.term_gives hproduct _) hrest

theorem reads_expression_of_simple (h : Reads .simple ts e rest) :
    Reads .expression ts e rest := by
  intro hproduct hsum hrelation table
  rw [expression_eq]
  refine Gives.bind (h.simple_gives hproduct hsum table) (gives_kind.bind ?_)
  rw [hrelation]
  exact gives_pure _

/-- Behind a relation only the operators of its right side go on, and no other relation. -/
theorem relation_gives (hop : op.layer = .expression) (hl : Reads .simple ts left (t :: mid))
    (ht : t.kind = op.token) (hr : Reads .simple mid right rest)
    (hproduct : product? (kindAhead rest) = none) (hsum : sum? (kindAhead rest) = none)
    (table : SymbolTable) :
    Gives expression ts table ((Expr.binary op left right).lower table).1 rest
      ((Expr.binary op left right).lower table).2 := by
  have hk : kindAhead (t :: mid) = op.token := ht
  obtain ⟨htoken, hnosum, hnoproduct⟩ := relation?_token hop
  rw [expression_eq]
  have hleft := hl.simple_gives (by rw [hk]; exact hnoproduct) (by rw [hk]; exact hnosum) table
  refine hleft.bind (gives_kind.bind ?_)
  rw [hk, htoken]
  refine (gives_advance (isEnd_of_kind ht (token_ne_end op))).bind ?_
  exact Gives.bind (hr.simple_gives hproduct hsum _) (gives_pure _)

theorem reads_relation (hop : op.layer = .expression) (hl : Reads .simple ts left (t :: mid))
    (ht : t.kind = op.token) (hr : Reads .simple mid right rest) :
    Reads .expression ts (.binary op left right) rest :=
  fun hproduct hsum _ table => relation_gives hop hl ht hr hproduct hsum table

end

theorem phrase_reads {layer : Layer} {ts rest : List Token} {e : Expr}
    (h : Phrase layer ts e rest) : Reads layer ts e rest := by
  induction h with
  | name ht =>
    refine reads_operand (by rw [kindAhead_cons, ht]; decide) fun table => ?_
    refine Gives.bind gives_here ?_
    rw [ht]
    exact (gives_takeName ht).bind (gives_pure _)
  | literal ht =>
    refine reads_operand ?_ fun table => gives_literal ht
    rcases constant?_eq_some ht with ⟨hk, -⟩ | ⟨hk, -⟩ | ⟨hk, -⟩
    all_goals
      rw [kindAhead_cons, hk]
      decide
  | not ht _ ih => exact reads_not ht ih
  | parens ht _ hu ih => exact reads_parens ht ih hu
  | factor _ ih => exact fun table n rest' table' => Gives.bind (ih.factor_gives table)
  | product hop _ ht _ ihl ihr => exact reads_product hop ihl ht ihr
  | term h ih => exact reads_simple_of_term ((phrase_starts h).2 (Or.inr rfl)) ih
  | plus ht _ ih => exact reads_plus ht ih
  | minus ht _ ih => exact reads_minus ht ih
  | sum hop _ ht _ ihl ihr => exact reads_sum hop ihl ht ihr
  | simple _ ih => exact reads_expression_of_simple ih
  | relation hop _ ht _ ihl ihr => exact reads_relation hop ihl ht ihr

/-- The tokens that go on with an expression. -/
def continues (k : TokenKind) : Bool :=
  (relation? k).isSome || (sum? k).isSome || (product? k).isSome

theorem expression_gives {ts rest : List Token} {e : Expr} (h : Phrase .expression ts e rest)
    (hrest : continues (kindAhead rest) = false) (table : SymbolTable) :
    Gives expression ts table (e.lower table).1 rest (e.lower table).2 := by
  simp only [continues, Bool.or_eq_false_iff, Option.isSome_eq_false_iff, Option.isNone_iff_eq_none]
    at hrest
  exact phrase_reads h hrest.2 hrest.1.2 hrest.1.1 table

end PascalFront.Parser
