-- What a parser makes of a draft. Each token that is left out is noted at the
-- next one, and apart from that the parse goes as if it were there: nothing is
-- passed over, and every statement is read in the same form.
import PascalFront.Proofs.Drafts
import PascalFront.Proofs.GrammarExact

namespace PascalFront

namespace ParserState

/-- A state with some diagnostics in front of its own. -/
def noting (noted : Array Diagnostic) (s : ParserState) : ParserState :=
  { s with diagnostics := noted ++ s.diagnostics }

end ParserState

namespace Parser

open ParserState ResumePoints

/-! ## Parsers that do not look at the diagnostics -/

def noting (noted : Array Diagnostic) :
    EStateM.Result Failure ParserState α → EStateM.Result Failure ParserState α
  | .ok a s => .ok a (s.noting noted)
  | .error e s => .error e (s.noting noted)

/-- A parser whose runs do not depend on what is noted before them. -/
class Heedless (p : Parser α) : Prop where
  run : ∀ noted s, p (s.noting noted) = noting noted (p s)

section

variable {p : Parser α} {f : α → Parser β}

instance (a : α) : Heedless (pure a) where run _ _ := rfl

instance [hp : Heedless p] [hf : ∀ a, Heedless (f a)] : Heedless (p >>= f) where
  run noted s := by
    rw [bind_apply, bind_apply, hp.run]
    rcases p s with ⟨a, s'⟩ | ⟨e, s'⟩
    · exact (hf a).run noted s'
    · rfl

instance {c : Prop} [Decidable c] {q : Parser α} [Heedless p] [Heedless q] :
    Heedless (if c then p else q) := by
  split <;> assumption

instance : Heedless kind where run _ _ := rfl

instance : Heedless nextKind where run _ _ := rfl

instance : Heedless here where run _ _ := rfl

instance : Heedless line where run _ _ := rfl

instance : Heedless advance where run _ _ := rfl

instance (name : String) (line : Nat) : Heedless (enter name line) where run _ _ := rfl

theorem flag_noting (noted : Array Diagnostic) (s : ParserState) (cause : Cause) :
    (s.noting noted).flag cause = (s.flag cause).noting noted := by
  simp only [ParserState.flag, note, ParserState.noting, Array.append_push]
  rfl

instance (cause : Cause) : Heedless (flag cause) where
  run noted s := by
    unfold flag
    rw [flag_noting]
    rfl

instance : Heedless (endedEarly : Parser α) where
  run noted s := by
    unfold endedEarly
    rw [flag_noting]
    rfl

instance (k : TokenKind) : Heedless (accept k) where
  run noted s := by
    have hk : (s.noting noted).kind = s.kind := rfl
    unfold accept
    rw [hk]
    split <;> rfl

instance (k : TokenKind) (missing : Cause) : Heedless (expect k missing) where
  run noted s := by
    have hk : (s.noting noted).kind = s.kind := rfl
    unfold expect
    rw [hk, flag_noting]
    split <;> rfl

theorem heedless_option (p : Parser α) (f : β → Parser α) [Heedless p] [∀ b, Heedless (f b)]
    (o : Option β) : Heedless (match o with
      | none => p
      | some b => f b) := by
  cases o <;> infer_instance

theorem heedless_loop {turn : β → Parser (Option β)} [∀ b, Heedless (turn b)] (b : β) :
    Heedless (loop turn b) where
  run noted s := by
    have within (bound : List Token) : ∀ b, Heedless (loopWithin turn bound b) := by
      induction bound with
      | nil =>
        intro b
        unfold loopWithin
        infer_instance
      | cons t bound ih =>
        intro b
        have hcont := heedless_option (pure b) (loopWithin turn bound)
        unfold loopWithin
        infer_instance
    exact (within s.cursor.ahead b).run noted s

theorem heedless_nest {last : Parser α} {level : Parser α → Parser α} [Heedless last]
    (h : ∀ p, Heedless p → Heedless (level p)) : Heedless (nest last level) where
  run noted s := by
    have within (bound : List Token) : Heedless (nestWithin last level bound) := by
      induction bound with
      | nil => exact h last inferInstance
      | cons t bound ih => exact h _ ih
    exact (within s.cursor.ahead).run noted s

instance : Heedless takeName := by
  unfold takeName
  infer_instance

section

variable {inner : Parser Node} [Heedless inner]

instance : Heedless (operand inner) := by
  have hmatch (t : Token) : Heedless (match t.kind with
      | .identifier => do return .var (← takeName)
      | .integer => constant t.integerNode
      | .real => constant t.realNode
      | .string => constant t.stringNode
      | .leftParen => do
        advance
        let n ← inner
        expect .rightParen .missingRightParen
        return n
      | .endOfFile => endedEarly
      | _ => noOperand) := by
    unfold constant noOperand
    split <;> infer_instance
  unfold operand
  infer_instance

instance : Heedless (factor inner) := by
  have (k : Nat) : Heedless (negationTurn k) := by
    unfold negationTurn
    infer_instance
  have : Heedless negations := heedless_loop 0
  unfold factor
  infer_instance

instance (operator? : TokenKind → Option NodeKind) (item : Parser Node) [Heedless item]
    (left : Node) : Heedless (chain operator? item left) := by
  have (left : Node) : Heedless (chainTurn operator? item left) := by
    have hmatch (k : TokenKind) : Heedless (match operator? k with
        | none => pure none
        | some op => do
          advance
          return some (Node.binary op left (← item))) := by
      split <;> infer_instance
    unfold chainTurn
    infer_instance
  exact heedless_loop left

instance : Heedless (simpleExpression inner) := by
  unfold simpleExpression term
  infer_instance

instance : Heedless (expressionLevel inner) := by
  have hmatch (left : Node) (k : TokenKind) : Heedless (match relation? k with
      | none => pure left
      | some op => do
        advance
        return .binary op left (← simpleExpression inner)) := by
    split <;> infer_instance
  unfold expressionLevel
  infer_instance

end

instance : Heedless expression := by
  have : Heedless noOperand := by
    unfold noOperand
    infer_instance
  exact heedless_nest fun _ _ => inferInstance

instance : Heedless arguments := by
  have (args : List Node) : Heedless (argumentTurn args) := by
    unfold argumentTurn
    infer_instance
  have (args : List Node) : Heedless (loop argumentTurn args) := heedless_loop args
  unfold arguments
  infer_instance

instance : Heedless procedureCall := by
  unfold procedureCall
  infer_instance

end

/-! ## Runs on drafts -/

/-- In front of what is still there of a draft. With what will be noted for the rest of the draft,
the diagnostics are `total`. -/
structure Stands (total : List Diagnostic) (s : ParserState) (ms : Draft) (table : SymbolTable) :
    Prop where
  upcoming : s.upcoming = ms.kept
  symbols : s.symbols = table
  noted : s.diagnostics.toList ++ ms.faults = total

/-- In front of a draft a parser gives `a` and leaves `rest`. It notes what is left out of the part
that it passes, and nothing else. -/
def Repairs (total : List Diagnostic) (p : Parser α) (ms : Draft) (table : SymbolTable) (a : α)
    (rest : Draft) (table' : SymbolTable) : Prop :=
  ∀ s, Stands total s ms table → ∃ s', p s = .ok a s' ∧ Stands total s' rest table'

section

variable {total : List Diagnostic} {ms mid rest : Draft} {t u : Token} {m : Slot}
  {table table' table₁ : SymbolTable} {k : TokenKind}

/-- Where nothing is left out, a parser does what it does on the tokens. -/
theorem Repairs.of_gives {p : Parser α} [hp : Heedless p] {a : α}
    (h : Gives p ms.kept table a rest.kept table') (hfaults : ms.faults = rest.faults) :
    Repairs total p ms table a rest table' := by
  rintro s ⟨hu, hsymbols, hnoted⟩
  obtain ⟨s', hr, hs'⟩ := h { s with diagnostics := #[] } ⟨hu, hsymbols, rfl⟩
  have hs : s = ParserState.noting s.diagnostics { s with diagnostics := #[] } := by
    simp [ParserState.noting]
  refine ⟨s'.noting s.diagnostics, ?_, hs'.upcoming, hs'.symbols, ?_⟩
  · rw [hs, hp.run, hr]
    rfl
  · rw [← hfaults]
    simpa [ParserState.noting, show s'.diagnostics = #[] from hs'.clean] using hnoted

theorem Repairs.bind {p : Parser α} {f : α → Parser β} {a : α} {b : β}
    (hp : Repairs total p ms table a mid table₁)
    (hf : Repairs total (f a) mid table₁ b rest table') :
    Repairs total (p >>= f) ms table b rest table' := by
  intro s hs
  obtain ⟨s₁, hr, h₁⟩ := hp s hs
  obtain ⟨s', hr', h'⟩ := hf s₁ h₁
  exact ⟨s', bind_eq_ok.mpr ⟨a, s₁, hr, hr'⟩, h'⟩

theorem repairs_pure (a : α) : Repairs total (pure a) ms table a ms table :=
  fun s hs => ⟨s, rfl, hs⟩

theorem repairs_kind : Repairs total kind ms table (kindAhead ms.kept) ms table :=
  .of_gives gives_kind rfl

theorem repairs_line : Repairs total line ms table (lineAhead ms.kept) ms table :=
  .of_gives gives_line rfl

theorem repairs_here : Repairs total here (⟨t, true⟩ :: rest) table t (⟨t, true⟩ :: rest) table :=
  .of_gives gives_here rfl

theorem repairs_nextKind (ht : t.isEnd = false) : Repairs total nextKind (⟨t, true⟩ :: rest) table
    (kindAhead rest.kept) (⟨t, true⟩ :: rest) table :=
  .of_gives (gives_nextKind ht) rfl

theorem repairs_advance (ht : t.isEnd = false) :
    Repairs total advance (⟨t, true⟩ :: rest) table () rest table :=
  .of_gives (gives_advance ht) rfl

theorem repairs_accept (ht : t.kind = k) (hk : k ≠ .endOfFile) :
    Repairs total (accept k) (⟨t, true⟩ :: rest) table true rest table :=
  .of_gives (gives_accept ht hk) rfl

theorem repairs_accept_false (h : kindAhead ms.kept ≠ k) :
    Repairs total (accept k) ms table false ms table :=
  .of_gives (gives_accept_false h) rfl

theorem repairs_takeName (ht : t.kind = .identifier) :
    Repairs total takeName (⟨t, true⟩ :: rest) table (t.asName.enter table).1 rest
      (t.asName.enter table).2 :=
  .of_gives (gives_takeName ht) rfl

theorem repairs_expression {w : List Token} {e : Expr} (he : Draft.Spells w e)
    (hrest : continues (kindAhead rest.kept) = false) (table : SymbolTable) :
    Repairs total expression (Draft.whole w ++ rest) table (e.lower table).1 rest
      (e.lower table).2 := by
  refine .of_gives ?_ (by simp)
  rw [Draft.kept_whole_append]
  exact expression_gives (he _) hrest table

/-- A token that is there is taken; one that is left out is noted at the next token, which must not
be of its kind. -/
theorem repairs_expect (ht : m.token.kind = k) (hk : k ≠ .endOfFile)
    (hahead : m.kept = false → kindAhead rest.kept ≠ k) :
    Repairs total (expect k (Draft.missing k)) (m :: rest) table () rest table := by
  obtain ⟨t, kept⟩ := m
  cases kept with
  | true => exact .of_gives (gives_expect ht hk) rfl
  | false =>
    rintro s ⟨hu, hsymbols, hnoted⟩
    have hkind : s.kind ≠ k := by
      rw [kind_eq_ahead, hu]
      exact hahead rfl
    have hhere : rest.kept.head? = some s.here := by
      rw [← Draft.kept_cons_false t rest, ← hu]
      exact Cursor.head?_upcoming s.cursor
    refine ⟨s.flag (Draft.missing k), ?_, hu, hsymbols, ?_⟩
    · unfold expect
      rw [if_neg hkind]
    · rw [← hnoted]
      simp [ParserState.flag, note, Draft.faults, hhere, show t.kind = k from ht]

theorem repairs_resumeAt {set : KindSet}
    (h : set.contains (kindAhead ms.kept) = true ∨ kindAhead ms.kept = .endOfFile) :
    Repairs total (resumeAt set) ms table () ms table := by
  intro s hs
  rw [← hs.upcoming, ← kind_eq_ahead] at h
  refine ⟨s, ?_, hs⟩
  have hstop : (set.contains s.kind || s.cursor.atEnd) = true := by
    rw [Bool.or_eq_true]
    exact h.imp_right fun hk => by rw [atEnd_eq, hk]; rfl
  unfold resumeAt ParserState.resumeAt
  rw [if_pos hstop]

theorem repairs_expectIn {set : KindSet} (ht : m.token.kind = k) (hk : k ≠ .endOfFile)
    (hset : set.contains k = true) (hahead : m.kept = false → kindAhead rest.kept ≠ k ∧
      (set.contains (kindAhead rest.kept) = true ∨ kindAhead rest.kept = .endOfFile)) :
    Repairs total (expectIn set k (Draft.missing k)) (m :: rest) table () rest table := by
  refine Repairs.bind (repairs_resumeAt ?_) (repairs_expect ht hk fun h => (hahead h).1)
  obtain ⟨t, kept⟩ := m
  cases kept with
  | true =>
    rw [Draft.kept_cons_true, kindAhead_cons, show t.kind = k from ht]
    exact Or.inl hset
  | false => exact (hahead rfl).2

theorem repairs_checkLimit {settings : Settings} (h : total.length ≤ settings.maxErrors) :
    Repairs total (checkLimit settings) ms table () ms table := by
  intro s hs
  refine ⟨s, ?_, hs⟩
  have hcount : s.errorCount ≤ total.length := by
    rw [← hs.noted, List.length_append, Array.length_toList]
    exact Nat.le_add_right _ _
  unfold checkLimit
  rw [if_neg (by omega)]

variable {turn : β → Parser (Option β)} {b b₁ b' : β}

theorem repairs_loop_again (hp : Progressive turn)
    (h : Repairs total (turn b) ms table (some b₁) mid table₁)
    (hrest : Repairs total (loop turn b₁) mid table₁ b' rest table') :
    Repairs total (loop turn b) ms table b' rest table' := by
  rw [loop_unrolls hp]
  exact h.bind hrest

end

/-! ## Assignments and what comes next -/

section

variable (total : List Diagnostic) {w : List Token} {ms rest : Draft} {e : Expr}
  {table : SymbolTable}

theorem spells_starts (h : Draft.Spells w e) (rest : List Token) :
    expressionStart.contains (kindAhead w) = true ∧ kindAhead (w ++ rest) = kindAhead w ∧
      lineAhead (w ++ rest) = lineAhead w := by
  have hstart := (phrase_starts (h [])).1
  rw [List.append_nil] at hstart
  cases w with
  | nil => exact absurd hstart (by decide)
  | cons t w => exact ⟨hstart, rfl, rfl⟩

theorem expressionStart_spec {k : TokenKind} (h : expressionStart.contains k = true) :
    k ≠ .assign ∧ beforeAssign.contains k = true ∧ (k ≠ .leftParen → endsCall k = false) := by
  revert h
  cases k <;> decide

theorem assignment_repairs {target : Name} {value : Expr}
    (h : Draft.Assignment ms target value rest)
    (hrest : continues (kindAhead rest.kept) = false) (table : SymbolTable) :
    Repairs total assignment ms table (value.lowerAssign target.line target table).1 rest
      (value.lowerAssign target.line target table).2 := by
  obtain ⟨ht, hu, he, -⟩ := h
  refine Repairs.bind repairs_here ?_
  rw [if_pos ht]
  refine Repairs.bind (repairs_takeName ht) ?_
  refine Repairs.bind (repairs_expectIn hu (by decide) (by decide) fun _ => ?_) ?_
  · obtain ⟨hstart, hahead, -⟩ := spells_starts he rest.kept
    rw [Draft.kept_whole_append, hahead]
    exact ⟨(expressionStart_spec hstart).1, Or.inl (expressionStart_spec hstart).2.1⟩
  · exact Repairs.bind (repairs_expression he hrest _) (repairs_pure _)

theorem draft_assignment_starts {target : Name} {value : Expr}
    (h : Draft.Assignment ms target value rest) :
    kindAhead ms.kept = .identifier ∧ lineAhead ms.kept = target.line := by
  obtain ⟨ht, -, -, -⟩ := h
  exact ⟨ht, rfl⟩

theorem repairs_optionalSemicolon (h : Draft.OptionalSemicolon ms rest)
    (hrest : kindAhead rest.kept ≠ .semicolon) (table : SymbolTable) :
    ∃ b, Repairs total (accept .semicolon) ms table b rest table := by
  cases h with
  | absent => exact ⟨false, repairs_accept_false hrest⟩
  | present ht => exact ⟨true, repairs_accept ht (by decide)⟩

/-- The condition of a LOOP header, behind its semicolon. -/
theorem repairs_condition (h : Draft.Condition ms e rest)
    (hrest : continues (kindAhead rest.kept) = false) (table : SymbolTable) :
    continues (kindAhead ms.kept) = false ∧ ∃ b mid,
      Repairs total (accept .semicolon) ms table b mid table ∧
      Repairs total expression mid table (e.lower table).1 rest (e.lower table).2 := by
  cases h with
  | @joined w _ _ he hplus hminus =>
    obtain ⟨hstart, hahead, -⟩ := spells_starts he rest.kept
    obtain ⟨hsemicolon, hcontinues⟩ := start_spec hstart
    refine ⟨?_, false, _, repairs_accept_false ?_, repairs_expression he hrest table⟩
    · rw [Draft.kept_whole_append, hahead]
      exact hcontinues hplus hminus
    · rw [Draft.kept_whole_append, hahead]
      exact hsemicolon
  | behind ht he =>
    refine ⟨?_, true, _, repairs_accept ht (by decide), repairs_expression he hrest table⟩
    rw [Draft.kept_cons_true, kindAhead_cons, ht]
    rfl

end

/-! ## Statements -/

/-- The tokens that can stand where a statement is due. -/
def standsFirst (k : TokenKind) : Bool := decide (k ∈ statementOpeners) || followsStatement k

theorem standsFirst_spec {k : TokenKind} (h : standsFirst k = true) : continues k = false ∧
    (k ≠ .kwDo ∧ (beforeDo.contains k = true ∨ k = .endOfFile)) ∧
    (k ≠ .kwThen ∧ (beforeThen.contains k = true ∨ k = .endOfFile)) ∧
    (k ≠ .kwLessThan0 ∧ (beforeLessThan0.contains k = true ∨ k = .endOfFile)) := by
  revert h
  cases k <;> decide

theorem statementOpeners_spec {k : TokenKind} (h : k ∈ statementOpeners) :
    k ≠ .kwEqual0 ∧ beforeEqual0.contains k = true ∧ k ≠ .kwGreaterThan0 ∧
      beforeGreaterThan0.contains k = true ∧ k ≠ .semicolon := by
  revert h
  cases k <;> decide

/-- What the parser of statements does in front of a draft of a statement. -/
def Mends (settings : Settings) (total : List Diagnostic) (ms : Draft) (x : Stmt) (rest : Draft) :
    Prop :=
  followsStatement (kindAhead rest.kept) = true → ∀ table, Repairs total (statement settings) ms
    table (x.lower settings table).1 rest (x.lower settings table).2

/-- What the loop of a statement list does in front of a draft of statements. -/
def MendsAll (settings : Settings) (total : List Diagnostic) (ms : Draft) (xs : List Stmt)
    (rest : Draft) : Prop :=
  closesList (kindAhead rest.kept) → ∀ nodes table,
    Repairs total (loop (listTurn settings (statement settings) (kindAhead rest.kept)) nodes) ms
      table (nodes ++ (Stmt.lowerAll settings xs table).1) rest (Stmt.lowerAll settings xs table).2

section

variable {settings : Settings} {total : List Diagnostic} {ms mid mid' rest : Draft}
  {t u v q : Token}
  {m z : Slot} {b : Bool} {w : List Token} {x x' y y' p p' : Stmt} {xs xs' : List Stmt} {e : Expr}

theorem draft_stands_first (h : Draft.Statement ms x x' rest)
    (hrest : followsStatement (kindAhead rest.kept) = true) :
    standsFirst (kindAhead ms.kept) = true := by
  cases h with
  | empty =>
    rw [standsFirst, hrest]
    exact Bool.or_true _
  | assign h =>
    rw [(draft_assignment_starts h).1]
    rfl
  | block ht | call ht | callEmpty ht | callWith ht | ifThen ht | ifElse ht | whileDo ht
  | repeatUntil ht | loop ht | when ht =>
    rw [Draft.kept_cons_true, kindAhead_cons, ht]
    rfl

/-- In front of a keyword, a statement is read by the parser for it. -/
theorem statement_repairs {table table' : SymbolTable} {n : Node}
    (h : Repairs total (statementLevel settings (statement settings)) ms table n rest table') :
    Repairs total (statement settings) ms table n rest table' := by
  rw [statement_eq]
  exact h

/-- Behind an expression stands a token that ends it, or the one behind that. -/
theorem continues_ahead {k : TokenKind} (hu : u.kind = k) (hk : continues k = false)
    (hmid : continues (kindAhead mid.kept) = false) :
    continues (kindAhead (Draft.kept (⟨u, b⟩ :: mid))) = false := by
  cases b with
  | true =>
    rw [Draft.kept_cons_true, kindAhead_cons, hu]
    exact hk
  | false => exact hmid

theorem mends_empty :
    Mends settings total (⟨t, true⟩ :: rest) (.empty t.line) (⟨t, true⟩ :: rest) := by
  intro hrest table s hs
  have hk : s.kind ∉ statementOpeners := by
    rw [kind_eq_ahead, hs.upcoming]
    exact (followsStatement_spec hrest).2.2.1
  refine ⟨s, ?_, hs⟩
  rw [statement_eq, statementLevel_of_not_opener settings hk, line_eq_ahead, hs.upcoming]
  rfl

theorem list_repairs {closer : TokenKind} {cause : Cause} (hu : u.kind = closer)
    (hcloser : closer = .kwEnd ∨ closer = .kwUntil)
    (h : MendsAll settings total ms xs (⟨u, true⟩ :: rest)) (table : SymbolTable) :
    Repairs total (statementList settings (statement settings) closer cause) ms table
      (Stmt.lowerAll settings xs table).1 rest (Stmt.lowerAll settings xs table).2 := by
  have hclose : closesList (kindAhead (Draft.kept (⟨u, true⟩ :: rest))) := by
    rw [Draft.kept_cons_true, kindAhead_cons, hu]
    rcases hcloser with rfl | rfl <;> simp [closesList]
  have hloop := h hclose [] table
  rw [Draft.kept_cons_true, kindAhead_cons, hu] at hloop
  refine Repairs.bind hloop (Repairs.bind (.of_gives (gives_expect hu ?_) rfl) (repairs_pure _))
  rcases hcloser with rfl | rfl <;> decide

theorem mends_block (ht : t.kind = .kwBegin) (h : MendsAll settings total ms xs (⟨u, true⟩ :: rest))
    (hu : u.kind = .kwEnd) :
    Mends settings total (⟨t, true⟩ :: ms) (.block t.line xs) rest := by
  intro _ table
  refine statement_repairs (repairs_kind.bind ?_)
  rw [Draft.kept_cons_true, kindAhead_cons, ht]
  refine repairs_line.bind ((repairs_advance (isEnd_of_kind ht (by decide))).bind ?_)
  exact Repairs.bind (list_repairs hu (Or.inl rfl) h table) (repairs_pure _)

/-- Behind a name the parser looks one token further. -/
theorem named_repairs {q : Parser Node} {n : Node} {table table' : SymbolTable}
    (ht : t.kind = .identifier)
    (hq : (if endsCall (kindAhead ms.kept) then procedureCall else assignment) = q)
    (h : Repairs total q (⟨t, true⟩ :: ms) table n rest table') :
    Repairs total (statement settings) (⟨t, true⟩ :: ms) table n rest table' := by
  refine statement_repairs (repairs_kind.bind ?_)
  rw [Draft.kept_cons_true, kindAhead_cons, ht]
  refine (repairs_nextKind (isEnd_of_kind ht (by decide))).bind ?_
  rw [hq]
  exact h

theorem mends_assign {target : Name} (h : Draft.Assignment ms target e rest) :
    Mends settings total ms (.assign target e) rest := by
  intro hrest table
  have hassign := assignment_repairs total h (followsStatement_spec hrest).1 table
  cases h with
  | @intro t u b w _ _ ht hu he hparen =>
    refine named_repairs ht (if_neg (Bool.eq_false_iff.mp ?_)) hassign
    cases b with
    | true =>
      rw [Draft.kept_cons_true, kindAhead_cons, hu]
      rfl
    | false =>
      obtain ⟨hstart, hahead, -⟩ := spells_starts he rest.kept
      rw [Draft.kept_cons_false, Draft.kept_whole_append, hahead]
      exact (expressionStart_spec hstart).2.2 (hparen rfl)

theorem mends_call (ht : t.kind = .identifier) :
    Mends settings total (⟨t, true⟩ :: rest) (.call t.asName none) rest := by
  intro hrest table
  obtain ⟨-, hcall, -, hparen⟩ := followsStatement_spec hrest
  exact named_repairs ht (if_pos hcall)
    (.of_gives (procedureCall_gives ht hparen settings table) rfl)

theorem mends_callEmpty (ht : t.kind = .identifier) (hu : u.kind = .leftParen)
    (hv : v.kind = .rightParen) : Mends settings total
      (⟨t, true⟩ :: ⟨u, true⟩ :: ⟨v, true⟩ :: rest) (.call t.asName (some [])) rest := by
  intro _ table
  refine named_repairs ht (if_pos (by rw [Draft.kept_cons_true, kindAhead_cons, hu]; rfl))
    (.of_gives ?_ rfl)
  refine procedureCall_gives_arguments ht hu hv (fun table => ?_) settings table
  refine Gives.bind gives_kind ?_
  rw [Draft.kept_cons_true, kindAhead_cons, if_pos hv]
  exact gives_pure _

theorem arguments_give_all {ts rest : List Token} {args : List Expr}
    (h : Arguments ts args rest) (hrest : kindAhead rest = .rightParen) (table : SymbolTable) :
    Gives arguments ts table (args.mapM Expr.lower table).1 rest
      (args.mapM Expr.lower table).2 := by
  have hstart : kindAhead ts ≠ .rightParen := by
    have hs : expressionStart.contains (kindAhead ts) = true := by
      cases h with
      | last he => exact (phrase_starts he).1
      | more he _ _ => exact (phrase_starts he).1
    intro hk
    rw [hk] at hs
    revert hs
    decide
  refine Gives.bind gives_kind ?_
  rw [if_neg hstart]
  exact arguments_give h hrest [] table

theorem mends_callWith {args : List Expr} (ht : t.kind = .identifier) (hu : u.kind = .leftParen)
    (h : Draft.SpellAll w args) (hv : v.kind = .rightParen) : Mends settings total
      (⟨t, true⟩ :: ⟨u, true⟩ :: (Draft.whole w ++ ⟨v, true⟩ :: rest)) (.call t.asName (some args))
      rest := by
  intro _ table
  refine named_repairs ht (if_pos (by rw [Draft.kept_cons_true, kindAhead_cons, hu]; rfl))
    (.of_gives ?_ (by simp))
  rw [Draft.kept_cons_true, Draft.kept_cons_true, Draft.kept_whole_append, Draft.kept_cons_true]
  exact procedureCall_gives_arguments ht hu hv
    (arguments_give_all (h (v :: rest.kept)) hv) settings table

theorem mends_ifThen {r : Token} (ht : t.kind = .kwIf) (he : Draft.Spells w e)
    (hu : u.kind = .kwThen) (hstmt : Draft.Statement mid x x' (⟨r, true⟩ :: rest))
    (hx : Mends settings total mid x' (⟨r, true⟩ :: rest)) (hr : r.kind ≠ .kwElse) :
    Mends settings total (⟨t, true⟩ :: (Draft.whole w ++ ⟨u, b⟩ :: mid)) (.ifThen t.line e x')
      (⟨r, true⟩ :: rest) := by
  intro hrest table
  obtain ⟨hcontinues, -, hthen, -⟩ := standsFirst_spec (draft_stands_first hstmt hrest)
  refine statement_repairs (repairs_kind.bind ?_)
  rw [Draft.kept_cons_true, kindAhead_cons, ht]
  refine repairs_line.bind ((repairs_advance (isEnd_of_kind ht (by decide))).bind ?_)
  refine Repairs.bind (repairs_expression he (continues_ahead hu rfl hcontinues) table) ?_
  refine Repairs.bind (repairs_expectIn hu (by decide) (by decide) fun _ => hthen) ?_
  exact Repairs.bind (hx hrest _) (Repairs.bind (repairs_accept_false hr) (repairs_pure _))

theorem mends_ifElse (ht : t.kind = .kwIf) (he : Draft.Spells w e)
    (hu : u.kind = .kwThen) (hstmt : Draft.Statement mid x x' (⟨v, true⟩ :: mid'))
    (hx : Mends settings total mid x' (⟨v, true⟩ :: mid')) (hv : v.kind = .kwElse)
    (hy : Mends settings total mid' y' rest) :
    Mends settings total (⟨t, true⟩ :: (Draft.whole w ++ ⟨u, b⟩ :: mid)) (.ifElse t.line e x' y')
      rest := by
  intro hrest table
  have helse : followsStatement (kindAhead (Draft.kept (⟨v, true⟩ :: mid'))) = true := by
    rw [Draft.kept_cons_true, kindAhead_cons, hv]
    rfl
  obtain ⟨hcontinues, -, hthen, -⟩ := standsFirst_spec (draft_stands_first hstmt helse)
  refine statement_repairs (repairs_kind.bind ?_)
  rw [Draft.kept_cons_true, kindAhead_cons, ht]
  refine repairs_line.bind ((repairs_advance (isEnd_of_kind ht (by decide))).bind ?_)
  refine Repairs.bind (repairs_expression he (continues_ahead hu rfl hcontinues) table) ?_
  refine Repairs.bind (repairs_expectIn hu (by decide) (by decide) fun _ => hthen) ?_
  refine Repairs.bind (hx helse _) (Repairs.bind (repairs_accept hv (by decide)) ?_)
  exact Repairs.bind (hy hrest _) (repairs_pure _)

theorem mends_whileDo (ht : t.kind = .kwWhile) (he : Draft.Spells w e) (hu : u.kind = .kwDo)
    (hstmt : Draft.Statement mid x x' rest) (hx : Mends settings total mid x' rest) :
    Mends settings total (⟨t, true⟩ :: (Draft.whole w ++ ⟨u, b⟩ :: mid)) (.whileDo t.line e x')
      rest := by
  intro hrest table
  obtain ⟨hcontinues, hdo, -⟩ := standsFirst_spec (draft_stands_first hstmt hrest)
  refine statement_repairs (repairs_kind.bind ?_)
  rw [Draft.kept_cons_true, kindAhead_cons, ht]
  refine repairs_line.bind ((repairs_advance (isEnd_of_kind ht (by decide))).bind ?_)
  refine Repairs.bind (repairs_expression he (continues_ahead hu rfl hcontinues) table) ?_
  refine Repairs.bind (repairs_expectIn hu (by decide) (by decide) fun _ => hdo) ?_
  exact Repairs.bind (hx hrest _) (repairs_pure _)

theorem mends_repeatUntil (ht : t.kind = .kwRepeat)
    (hxs : MendsAll settings total ms xs' (⟨u, true⟩ :: (Draft.whole w ++ rest)))
    (hu : u.kind = .kwUntil) (he : Draft.Spells w e) :
    Mends settings total (⟨t, true⟩ :: ms) (.repeatUntil t.line xs' (lineAhead w) e) rest := by
  intro hrest table
  refine statement_repairs (repairs_kind.bind ?_)
  rw [Draft.kept_cons_true, kindAhead_cons, ht]
  refine repairs_line.bind ((repairs_advance (isEnd_of_kind ht (by decide))).bind ?_)
  refine Repairs.bind (list_repairs hu (Or.inr rfl) hxs table) (repairs_line.bind ?_)
  rw [Draft.kept_whole_append, (spells_starts he rest.kept).2.2]
  exact Repairs.bind (repairs_expression he (followsStatement_spec hrest).1 _) (repairs_pure _)

variable (total) in
/-- Of the two tokens that close the header of a LOOP, one is there. -/
theorem repairs_header {c d : Bool} (hv : v.kind = .rightParen) (hu : u.kind = .kwDo)
    (hone : c = true ∨ d = true) (table : SymbolTable) :
    continues (kindAhead (Draft.kept (⟨v, c⟩ :: ⟨u, d⟩ :: mid))) = false ∧
    Repairs total (expectIn beforeRightParen .rightParen .missingRightParen)
      (⟨v, c⟩ :: ⟨u, d⟩ :: mid) table () (⟨u, d⟩ :: mid) table := by
  have hahead (hc : c = false) : kindAhead (Draft.kept (⟨u, d⟩ :: mid)) = .kwDo := by
    obtain rfl : d = true := hone.resolve_left (Bool.eq_false_iff.mp hc)
    rw [Draft.kept_cons_true, kindAhead_cons, hu]
  refine ⟨?_, repairs_expectIn hv (by decide) (by decide) fun hc => by rw [hahead hc]; decide⟩
  cases c with
  | true =>
    rw [Draft.kept_cons_true, kindAhead_cons, hv]
    rfl
  | false =>
    rw [Draft.kept_cons_false, hahead rfl]
    rfl

theorem mends_loop {c d : Bool} {afterFirst afterCondition atNext : Draft} {counter target : Name}
    {first condition next : Expr} (ht : t.kind = .kwLoop) (hu : u.kind = .leftParen)
    (hfirst : Draft.Assignment ms counter first afterFirst)
    (hcond : Draft.Condition afterFirst condition afterCondition)
    (hskip : Draft.OptionalSemicolon afterCondition atNext)
    (hnext : Draft.Assignment atNext target next (⟨v, c⟩ :: ⟨q, d⟩ :: mid))
    (hv : v.kind = .rightParen) (hq : q.kind = .kwDo) (hone : c = true ∨ d = true)
    (hstmt : Draft.Statement mid x x' rest) (hx : Mends settings total mid x' rest) :
    Mends settings total (⟨t, true⟩ :: ⟨u, b⟩ :: ms)
      (.loop counter first condition target next x') rest := by
  intro hrest table
  obtain ⟨-, hdo, -⟩ := standsFirst_spec (draft_stands_first hstmt hrest)
  obtain ⟨hcounter, hline⟩ := draft_assignment_starts hfirst
  have hname := (draft_assignment_starts hnext).1
  have hafterCondition : continues (kindAhead afterCondition.kept) = false := by
    cases hskip with
    | absent =>
      rw [hname]
      rfl
    | present hk =>
      rw [Draft.kept_cons_true, kindAhead_cons, hk]
      rfl
  obtain ⟨hafterFirst, a, mid', ha, hcondition⟩ := repairs_condition total hcond
    hafterCondition (first.lowerAssign counter.line counter table).2
  obtain ⟨a', ha'⟩ := repairs_optionalSemicolon total hskip (by rw [hname]; decide)
    (condition.lower (first.lowerAssign counter.line counter table).2).2
  refine statement_repairs (repairs_kind.bind ?_)
  rw [Draft.kept_cons_true, kindAhead_cons, ht]
  refine (repairs_advance (isEnd_of_kind ht (by decide))).bind ?_
  refine Repairs.bind (repairs_expect hu (by decide) fun _ => by rw [hcounter]; decide) ?_
  refine repairs_line.bind ?_
  rw [hline]
  refine Repairs.bind (assignment_repairs total hfirst hafterFirst table) (ha.bind ?_)
  refine Repairs.bind hcondition (ha'.bind ?_)
  obtain ⟨hclose, hparen⟩ := repairs_header total hv hq hone
    (next.lowerAssign counter.line target
      (condition.lower (first.lowerAssign counter.line counter table).2).2).2
  refine Repairs.bind (assignment_repairs total hnext hclose _) (Repairs.bind hparen ?_)
  refine Repairs.bind (repairs_expectIn hq (by decide) (by decide) fun _ => hdo) ?_
  exact Repairs.bind (hx hrest _) (repairs_pure _)

variable (total) in
/-- A later marker of a WHEN statement, which may be missing behind its semicolon. -/
theorem repairs_marker {k : TokenKind} {set : KindSet} (h : Draft.Marker k ms m rest)
    (hk : k = .kwEqual0 ∧ set = beforeEqual0 ∨ k = .kwGreaterThan0 ∧ set = beforeGreaterThan0)
    (table : SymbolTable) : followsStatement (kindAhead ms.kept) = true ∧
      lineAhead (Draft.kept (m :: rest)) = Draft.markerLine m rest ∧
      (∃ a, Repairs total (accept .semicolon) ms table a (m :: rest) table) ∧
      Repairs total (resumeAt set) (m :: rest) table () (m :: rest) table ∧
      Repairs total (expect k (Draft.missing k)) (m :: rest) table () rest table := by
  have hfollow : followsStatement k = true ∧ k ≠ .semicolon ∧ k ≠ .endOfFile ∧
      set.contains k = true := by
    rcases hk with ⟨rfl, rfl⟩ | ⟨rfl, rfl⟩ <;> decide
  have hopener {j : TokenKind} (hj : j ∈ statementOpeners) : j ≠ k ∧ set.contains j = true ∧
      j ≠ .semicolon := by
    obtain ⟨h₁, h₂, h₃, h₄, h₅⟩ := statementOpeners_spec hj
    rcases hk with ⟨rfl, rfl⟩ | ⟨rfl, rfl⟩
    · exact ⟨h₁, h₂, h₅⟩
    · exact ⟨h₃, h₄, h₅⟩
  cases h with
  | bare ht =>
    subst ht
    exact ⟨hfollow.1, rfl, ⟨false, repairs_accept_false hfollow.2.1⟩,
      repairs_resumeAt (Or.inl hfollow.2.2.2),
      repairs_expect rfl hfollow.2.2.1 fun h => by cases h⟩
  | @behind s t b rest hs ht hb =>
    refine ⟨?_, by cases b <;> rfl, ⟨true, repairs_accept hs (by decide)⟩, ?_,
      repairs_expect ht hfollow.2.2.1 fun hf => (hopener (hb hf)).1⟩
    · rw [Draft.kept_cons_true, kindAhead_cons, hs]
      rfl
    · refine repairs_resumeAt (Or.inl ?_)
      cases b with
      | true =>
        rw [Draft.kept_cons_true, kindAhead_cons, ht]
        exact hfollow.2.2.2
      | false => exact (hopener (hb rfl)).2.1

theorem mends_when {afterNegative atZero afterZero beforePositive : Draft} (ht : t.kind = .kwWhen)
    (he : Draft.Spells w e) (hu : u.kind = .kwLessThan0)
    (hstmt : Draft.Statement mid x x' afterNegative)
    (hx : Mends settings total mid x' afterNegative)
    (hm : Draft.Marker .kwEqual0 afterNegative m atZero)
    (hy : Mends settings total atZero y' afterZero)
    (hz : Draft.Marker .kwGreaterThan0 afterZero z beforePositive)
    (hp : Mends settings total beforePositive p' rest) :
    Mends settings total (⟨t, true⟩ :: (Draft.whole w ++ ⟨u, b⟩ :: mid))
      (.when t.line (lineAhead w) e x' (Draft.markerLine m atZero) y' p') rest := by
  intro hrest table
  have hmarker (table : SymbolTable) :=
    repairs_marker total hm (Or.inl ⟨rfl, rfl⟩) table
  have hmarker' (table : SymbolTable) :=
    repairs_marker total hz (Or.inr ⟨rfl, rfl⟩) table
  obtain ⟨hnegative, hline, -⟩ := hmarker table
  obtain ⟨hzero, -⟩ := hmarker' table
  obtain ⟨hcontinues, -, -, hless⟩ := standsFirst_spec (draft_stands_first hstmt hnegative)
  refine statement_repairs (repairs_kind.bind ?_)
  rw [Draft.kept_cons_true, kindAhead_cons, ht]
  refine repairs_line.bind ((repairs_advance (isEnd_of_kind ht (by decide))).bind ?_)
  refine repairs_line.bind ?_
  rw [Draft.kept_whole_append, (spells_starts he _).2.2]
  refine Repairs.bind (repairs_expression he (continues_ahead hu rfl hcontinues) table) ?_
  refine Repairs.bind (.of_gives (gives_enter _ _) rfl) ?_
  refine Repairs.bind (repairs_expectIn hu (by decide) (by decide) fun _ => hless) ?_
  refine Repairs.bind (hx hnegative _) ?_
  obtain ⟨-, -, ⟨a, ha⟩, hresume, hexpect⟩ := hmarker _
  refine ha.bind (hresume.bind (repairs_line.bind (hexpect.bind ?_)))
  rw [hline]
  refine Repairs.bind (hy hzero _) ?_
  obtain ⟨-, -, ⟨a', ha'⟩, hresume', hexpect'⟩ := hmarker' _
  refine ha'.bind (Repairs.bind (hresume'.bind hexpect') ?_)
  exact Repairs.bind (hp hrest _) (repairs_pure _)

/-! ## Lists of statements -/

theorem draft_statement_opens (h : Draft.Statement ms x x' rest) :
    x'.isEmpty = true ∧ ms = rest ∨ x'.isEmpty = false ∧ kindAhead ms.kept ∈ statementOpeners := by
  cases h with
  | empty => exact Or.inl ⟨rfl, rfl⟩
  | assign h =>
    rw [(draft_assignment_starts h).1]
    exact Or.inr ⟨rfl, by decide⟩
  | block ht | call ht | callEmpty ht | callWith ht | ifThen ht | ifElse ht | whileDo ht
  | repeatUntil ht | loop ht | when ht =>
    rw [Draft.kept_cons_true, kindAhead_cons, ht]
    exact Or.inr ⟨rfl, by decide⟩

theorem repairs_closed (nodes : List Node) (table : SymbolTable) :
    Repairs total (loop (listTurn settings (statement settings) (kindAhead ms.kept)) nodes) ms table
      nodes ms table := by
  intro s hs
  refine ⟨s, listLoop_closed settings (statement_isStatementParser settings) nodes (Or.inl ?_), hs⟩
  rw [kind_eq_ahead, hs.upcoming]

/-- A turn of a list in front of a statement and what comes behind it. -/
theorem repairs_listTurn (hlimit : total.length ≤ settings.maxErrors) {closer : TokenKind}
    {n : Node} {table table' : SymbolTable} (nodes : List Node)
    (hk : kindAhead ms.kept ≠ closer ∧ kindAhead ms.kept ≠ .endOfFile)
    (hx : Repairs total (statement settings) ms table n mid table')
    (hmid : (∃ t, mid = ⟨t, true⟩ :: rest ∧ t.kind = .semicolon) ∨
      mid = rest ∧ kindAhead rest.kept = closer ∧ closesList closer) :
    Repairs total (listTurn settings (statement settings) closer nodes) ms table
      (some (nodes ++ [n])) rest table' := by
  unfold listTurn
  dsimp only
  refine repairs_kind.bind ?_
  rw [if_neg (not_or.mpr hk)]
  refine hx.bind ((repairs_checkLimit hlimit).bind ?_)
  rcases hmid with ⟨t, rfl, ht⟩ | ⟨rfl, hclose, hcloser⟩
  · exact (repairs_accept ht (by decide)).bind (repairs_pure _)
  · obtain ⟨-, hne, hno⟩ := closesList_spec hcloser
    rw [← hclose] at hne hno
    have hstart : statementStart.contains (kindAhead mid.kept) = false := by
      rw [Bool.eq_false_iff, Ne, statementStart_contains]
      exact not_or.mpr ⟨hno, hne⟩
    refine (repairs_accept_false hne).bind (repairs_kind.bind ?_)
    rw [hstart, if_neg Bool.false_ne_true, if_neg (fun h => h.1 hclose)]
    exact repairs_pure _

theorem mends_last (hlimit : total.length ≤ settings.maxErrors)
    (hstmt : Draft.Statement ms x x' rest) (hx : Mends settings total ms x' rest) :
    MendsAll settings total ms [x'] rest := by
  intro hclose nodes table
  obtain ⟨hfollow, hne, hno⟩ := closesList_spec hclose
  rcases draft_statement_opens hstmt with ⟨hempty, rfl⟩ | ⟨hempty, hopen⟩
  · rw [Stmt.lowerAll_last_empty hempty, List.append_nil]
    exact repairs_closed nodes table
  · rw [Stmt.lowerAll_cons (Or.inr hempty)]
    have hk : kindAhead ms.kept ≠ kindAhead rest.kept ∧ kindAhead ms.kept ≠ .endOfFile := by
      refine ⟨fun h => hno (h ▸ hopen), fun h => ?_⟩
      rw [h] at hopen
      revert hopen
      decide
    have hturn := repairs_listTurn hlimit nodes hk (hx hfollow table) (Or.inr ⟨rfl, rfl, hclose⟩)
    exact repairs_loop_again
      (listTurn_progressive settings (statement_isStatementParser settings) _) hturn
      (repairs_closed _ _)

theorem mends_more (hlimit : total.length ≤ settings.maxErrors)
    (hstmt : Draft.Statement ms x x' (⟨t, true⟩ :: mid))
    (hx : Mends settings total ms x' (⟨t, true⟩ :: mid)) (ht : t.kind = .semicolon)
    (hne : xs' ≠ []) (hxs : MendsAll settings total mid xs' rest) :
    MendsAll settings total ms (x' :: xs') rest := by
  intro hclose nodes table
  obtain ⟨-, hsemicolon, hno⟩ := closesList_spec hclose
  have hk : kindAhead ms.kept ≠ kindAhead rest.kept ∧ kindAhead ms.kept ≠ .endOfFile := by
    rcases draft_statement_opens hstmt with ⟨-, rfl⟩ | ⟨-, hopen⟩
    · rw [Draft.kept_cons_true, kindAhead_cons, ht]
      exact ⟨hsemicolon.symm, by decide⟩
    · refine ⟨fun h => hno (h ▸ hopen), fun h => ?_⟩
      rw [h] at hopen
      revert hopen
      decide
  have hfollow : followsStatement (kindAhead (Draft.kept (⟨t, true⟩ :: mid))) = true := by
    rw [Draft.kept_cons_true, kindAhead_cons, ht]
    rfl
  have hturn := repairs_listTurn hlimit nodes hk (hx hfollow table) (Or.inl ⟨t, rfl, ht⟩)
  have hrest := hxs hclose (nodes ++ [(x'.lower settings table).1]) (x'.lower settings table).2
  rw [List.append_assoc] at hrest
  rw [Stmt.lowerAll_cons (Or.inl hne)]
  exact repairs_loop_again (listTurn_progressive settings (statement_isStatementParser settings) _)
    hturn hrest

end

/-! ## All drafts -/

mutual
theorem statement_mends {settings : Settings} {total : List Diagnostic}
    (hlimit : total.length ≤ settings.maxErrors) {ms rest : Draft} {x x' : Stmt} :
    Draft.Statement ms x x' rest → Mends settings total ms x' rest
  | .empty => mends_empty
  | .block ht hxs hu => mends_block ht (statements_mend hlimit hxs) hu
  | .assign h => mends_assign h
  | .call ht => mends_call ht
  | .callEmpty ht hu hv => mends_callEmpty ht hu hv
  | .callWith ht hu h hv => mends_callWith ht hu h hv
  | .ifThen ht he hu hx hr => mends_ifThen ht he hu hx (statement_mends hlimit hx) hr
  | .ifElse ht he hu hx hv hy =>
    mends_ifElse ht he hu hx (statement_mends hlimit hx) hv (statement_mends hlimit hy)
  | .whileDo ht he hu hx => mends_whileDo ht he hu hx (statement_mends hlimit hx)
  | .repeatUntil ht hxs hu he => mends_repeatUntil ht (statements_mend hlimit hxs) hu he
  | .loop ht hu hfirst hcond hskip hnext hv hz hone hx =>
    mends_loop ht hu hfirst hcond hskip hnext hv hz hone hx (statement_mends hlimit hx)
  | .when ht he hu hx hm hy hz hp =>
    mends_when ht he hu hx (statement_mends hlimit hx) hm (statement_mends hlimit hy) hz
      (statement_mends hlimit hp)

theorem statements_mend {settings : Settings} {total : List Diagnostic}
    (hlimit : total.length ≤ settings.maxErrors) {ms rest : Draft} {xs xs' : List Stmt} :
    Draft.Statements ms xs xs' rest → MendsAll settings total ms xs' rest
  | .last hx => mends_last hlimit hx (statement_mends hlimit hx)
  | .more hx ht hxs =>
    mends_more hlimit hx (statement_mends hlimit hx) ht hxs.ne_nil.2 (statements_mend hlimit hxs)
end

theorem program_mends {settings : Settings} {total : List Diagnostic}
    (hlimit : total.length ≤ settings.maxErrors) {ms : Draft} {p p' : Source}
    (h : Draft.IsProgram ms p p') (table : SymbolTable) :
    ∃ rest : List Token, Repairs total (program settings) ms table (p'.lower settings table).1
      (Draft.whole rest) (p'.lower settings table).2 := by
  cases h with
  | @block t u v stop ms behind xs xs' ht hxs hu hv hstop =>
    refine ⟨stop :: behind, ?_⟩
    have hend : kindAhead (Draft.kept (Draft.whole (stop :: behind))) = .endOfFile := by
      simpa [Token.isEnd] using hstop
    have hdot (table : SymbolTable) : Repairs total (expect .dot .missingPeriod)
        (Draft.whole (v :: stop :: behind)) table () (Draft.whole (stop :: behind)) table :=
      .of_gives (gives_expect hv (by decide)) rfl
    unfold program
    dsimp only
    refine repairs_kind.bind ?_
    rw [Draft.kept_cons_true, kindAhead_cons, if_pos ht]
    have hcompound : Repairs total (compound settings (statement settings)) (⟨t, true⟩ :: ms) table
        (.statement .compound t.line (Stmt.lowerAll settings xs' table).1)
        (Draft.whole (v :: stop :: behind)) (Stmt.lowerAll settings xs' table).2 := by
      refine repairs_line.bind ((repairs_advance (isEnd_of_kind ht (by decide))).bind ?_)
      exact Repairs.bind (list_repairs hu (Or.inl rfl) (statements_mend hlimit hxs) table)
        (repairs_pure _)
    refine hcompound.bind ((hdot _).bind (repairs_kind.bind ?_))
    rw [if_neg (not_not.mpr hend)]
    exact repairs_pure _
  | @bare t stop ms behind xs xs' ht hxs hstop =>
    refine ⟨stop :: behind, ?_⟩
    have hend : kindAhead (Draft.kept (Draft.whole (stop :: behind))) = .endOfFile := by
      simpa [Token.isEnd] using hstop
    have hloop := statements_mend hlimit hxs (Or.inr (Or.inr hend)) [] table
    rw [hend] at hloop
    unfold program
    dsimp only
    refine repairs_kind.bind ?_
    rw [Draft.kept_cons_true, kindAhead_cons, if_neg ht]
    refine repairs_line.bind (Repairs.bind (Repairs.bind hloop ?_) (repairs_pure _))
    exact Repairs.bind (.of_gives (gives_expect_end hstop) rfl) (repairs_pure _)

end Parser

end PascalFront
