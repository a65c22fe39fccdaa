-- The grammar is exact. A row of tokens is a program of the grammar if and only
-- if the parser notes nothing, and then the tree and the names are those of the
-- lowering of any derivation.
import PascalFront.Proofs.Derivations

namespace PascalFront.Parser

open ParserState ResumePoints

/-! ## Behind a statement -/

/-- The tokens that can stand behind a statement in a program. -/
def followsStatement : TokenKind → Bool
  | .semicolon | .kwEnd | .kwElse | .kwUntil | .kwEqual0 | .kwGreaterThan0 | .endOfFile => true
  | _ => false

theorem followsStatement_spec {k : TokenKind} (h : followsStatement k = true) :
    continues k = false ∧ endsCall k = true ∧ k ∉ statementOpeners ∧ k ≠ .leftParen := by
  revert h
  cases k <;> decide

/-! ## Assignments and calls -/

section

variable {ts rest : List Token}

theorem assignment_gives {target : Name} {value : Expr} (h : Assignment ts target value rest)
    (hrest : continues (kindAhead rest) = false) (table : SymbolTable) :
    Gives assignment ts table (value.lowerAssign target.line target table).1 rest
      (value.lowerAssign target.line target table).2 := by
  obtain ⟨ht, hu, he⟩ := h
  refine Gives.bind gives_here ?_
  rw [if_pos ht]
  refine Gives.bind (gives_takeName ht) ?_
  refine (gives_expectIn hu (by decide) (by decide)).bind ?_
  exact Gives.bind (expression_gives he hrest _) (gives_pure _)

theorem argumentLoop_eq (args : List Node) : loop argumentTurn args = (do
    if ← accept .comma then loop argumentTurn (args ++ [← expression]) else return args) := by
  rw [loop_unrolls argumentTurn_progressive]
  unfold argumentTurn
  rw [bind_assoc]
  congr 1
  funext b
  cases b with
  | false => rfl
  | true => simp only [if_true, bind_assoc, pure_bind]

theorem arguments_give {es : List Expr} (h : Arguments ts es rest)
    (hrest : kindAhead rest = .rightParen) (args : List Node) (table : SymbolTable) :
    Gives (do loop argumentTurn (args ++ [← expression])) ts table
      (args ++ (es.mapM Expr.lower table).1) rest (es.mapM Expr.lower table).2 := by
  induction h generalizing args table with
  | last he =>
    refine Gives.bind (expression_gives he (by rw [hrest]; rfl) table) ?_
    refine gives_loop_done argumentTurn_progressive ?_
    exact (gives_accept_false (by rw [hrest]; decide)).bind (gives_pure none)
  | @more t ts mid rest e es he ht _ ih =>
    have hcomma : continues (kindAhead (t :: mid)) = false := by rw [kindAhead_cons, ht]; rfl
    rw [List.mapM_cons]
    refine Gives.bind (expression_gives he hcomma table) ?_
    rw [argumentLoop_eq]
    refine (gives_accept ht (by decide)).bind ?_
    have hrest := ih hrest (args ++ [(e.lower table).1]) (e.lower table).2
    rw [List.append_assoc] at hrest
    exact hrest

theorem procedureCall_gives {t : Token} (ht : t.kind = .identifier)
    (hrest : kindAhead rest ≠ .leftParen) (settings : Settings) (table : SymbolTable) :
    Gives procedureCall (t :: rest) table ((Stmt.call t.asName none).lower settings table).1 rest
      ((Stmt.call t.asName none).lower settings table).2 := by
  refine Gives.bind gives_line (Gives.bind (gives_takeName ht) ?_)
  exact (gives_accept_false hrest).bind (gives_pure _)

theorem procedureCall_gives_arguments {t u v : Token} {args : List Expr}
    (ht : t.kind = .identifier) (hu : u.kind = .leftParen) (hv : v.kind = .rightParen)
    (h : ∀ table, Gives arguments ts table (args.mapM Expr.lower table).1 (v :: rest)
      (args.mapM Expr.lower table).2) (settings : Settings) (table : SymbolTable) :
    Gives procedureCall (t :: u :: ts) table
      ((Stmt.call t.asName (some args)).lower settings table).1 rest
      ((Stmt.call t.asName (some args)).lower settings table).2 := by
  refine Gives.bind gives_line (Gives.bind (gives_takeName ht) ?_)
  refine (gives_accept hu (by decide)).bind (Gives.bind (h _) ?_)
  exact (gives_expect hv (by decide)).bind (gives_pure _)

end

/-! ## Statements -/

/-- What the parser of statements does in front of a statement that another token follows. -/
def ReadsStatement (settings : Settings) (ts : List Token) (x : Stmt) (rest : List Token) : Prop :=
  followsStatement (kindAhead rest) = true → ∀ table,
    Gives (statement settings) ts table (x.lower settings table).1 rest (x.lower settings table).2

/-- The tokens that close a list of statements. -/
def closesList (k : TokenKind) : Prop := k = .kwEnd ∨ k = .kwUntil ∨ k = .endOfFile

/-- What the loop of a statement list does in front of statements that a closing token follows. -/
def ReadsList (settings : Settings) (ts : List Token) (xs : List Stmt) (rest : List Token) : Prop :=
  closesList (kindAhead rest) → ∀ nodes table,
    Gives (loop (listTurn settings (statement settings) (kindAhead rest)) nodes) ts table
      (nodes ++ (Stmt.lowerAll settings xs table).1) rest (Stmt.lowerAll settings xs table).2

section

variable {settings : Settings} {ts mid mid' rest : List Token} {t u v w : Token} {x y z : Stmt}
  {xs : List Stmt} {e : Expr}

theorem reads_empty : ReadsStatement settings ts (.empty (lineAhead ts)) ts := by
  intro hrest table s hs
  have hk : s.kind ∉ statementOpeners := by
    rw [kind_eq_ahead, hs.upcoming]
    exact (followsStatement_spec hrest).2.2.1
  refine ⟨s, ?_, hs⟩
  rw [statement_eq, statementLevel_of_not_opener settings hk, line_eq_ahead, hs.upcoming]
  rfl

/-- In front of a keyword, a statement is read by the parser for it. -/
theorem statement_gives {table table' : SymbolTable} {n : Node}
    (h : Gives (statementLevel settings (statement settings)) ts table n rest table') :
    Gives (statement settings) ts table n rest table' := by
  rw [statement_eq]
  exact h

theorem list_gives {closer : TokenKind} {missing : Cause} (hu : u.kind = closer)
    (hcloser : closer = .kwEnd ∨ closer = .kwUntil) (h : ReadsList settings ts xs (u :: rest))
    (table : SymbolTable) :
    Gives (statementList settings (statement settings) closer missing) ts table
      (Stmt.lowerAll settings xs table).1 rest (Stmt.lowerAll settings xs table).2 := by
  have hclose : closesList (kindAhead (u :: rest)) := by
    rw [kindAhead_cons, hu]
    rcases hcloser with rfl | rfl <;> simp [closesList]
  have hloop := h hclose [] table
  rw [kindAhead_cons, hu] at hloop
  refine Gives.bind hloop ?_
  refine (gives_expect hu ?_).bind (gives_pure _)
  rcases hcloser with rfl | rfl <;> decide

theorem reads_block (ht : t.kind = .kwBegin) (h : ReadsList settings ts xs (u :: rest))
    (hu : u.kind = .kwEnd) : ReadsStatement settings (t :: ts) (.block t.line xs) rest := by
  intro _ table
  refine statement_gives (gives_kind.bind ?_)
  rw [kindAhead_cons, ht]
  refine Gives.bind gives_line ((gives_advance (isEnd_of_kind ht (by decide))).bind ?_)
  exact Gives.bind (list_gives hu (Or.inl rfl) h table) (gives_pure _)

theorem reads_assign {target : Name} (h : Assignment ts target e rest) :
    ReadsStatement settings ts (.assign target e) rest := by
  intro hrest table
  have hassign := assignment_gives h (followsStatement_spec hrest).1 table
  obtain ⟨ht, hu, -⟩ := h
  refine statement_gives (gives_kind.bind ?_)
  rw [kindAhead_cons, ht]
  refine (gives_nextKind (isEnd_of_kind ht (by decide))).bind ?_
  rw [kindAhead_cons, hu]
  exact hassign

theorem call_gives {n : Node} {table table' : SymbolTable} (ht : t.kind = .identifier)
    (hcall : endsCall (kindAhead ts) = true)
    (h : Gives procedureCall (t :: ts) table n rest table') :
    Gives (statement settings) (t :: ts) table n rest table' := by
  refine statement_gives (gives_kind.bind ?_)
  rw [kindAhead_cons, ht]
  refine (gives_nextKind (isEnd_of_kind ht (by decide))).bind ?_
  rw [if_pos hcall]
  exact h

theorem reads_call (ht : t.kind = .identifier) :
    ReadsStatement settings (t :: rest) (.call t.asName none) rest := by
  intro hrest table
  obtain ⟨-, hcall, -, hparen⟩ := followsStatement_spec hrest
  exact call_gives ht hcall (procedureCall_gives ht hparen settings table)

theorem reads_callEmpty (ht : t.kind = .identifier) (hu : u.kind = .leftParen)
    (hv : v.kind = .rightParen) :
    ReadsStatement settings (t :: u :: v :: rest) (.call t.asName (some [])) rest := by
  intro _ table
  refine call_gives ht (by rw [kindAhead_cons, hu]; rfl) ?_
  refine procedureCall_gives_arguments ht hu hv (fun table => ?_) settings table
  refine Gives.bind gives_kind ?_
  rw [kindAhead_cons, if_pos hv]
  exact gives_pure _

theorem reads_callWith {args : List Expr} (ht : t.kind = .identifier) (hu : u.kind = .leftParen)
    (h : Arguments ts args (v :: rest)) (hv : v.kind = .rightParen) :
    ReadsStatement settings (t :: u :: ts) (.call t.asName (some args)) rest := by
  intro _ table
  refine call_gives ht (by rw [kindAhead_cons, hu]; rfl) ?_
  refine procedureCall_gives_arguments ht hu hv (fun table => ?_) settings table
  have hstart : kindAhead ts ≠ .rightParen := by
    have hs : expressionStart.contains (kindAhead ts) = true := by
      cases h with
      | last he => exact (phrase_starts he).1
      | more he _ _ => exact (phrase_starts he).1
    intro hk
    rw [hk] at hs
    revert hs
    decide
  refine Gives.bind gives_kind ?_
  rw [if_neg hstart]
  exact arguments_give h hv [] table

theorem reads_ifThen (ht : t.kind = .kwIf) (he : Phrase .expression ts e (u :: mid))
    (hu : u.kind = .kwThen) (hx : ReadsStatement settings mid x rest)
    (helse : kindAhead rest ≠ .kwElse) :
    ReadsStatement settings (t :: ts) (.ifThen t.line e x) rest := by
  intro hrest table
  refine statement_gives (gives_kind.bind ?_)
  rw [kindAhead_cons, ht]
  refine Gives.bind gives_line ((gives_advance (isEnd_of_kind ht (by decide))).bind ?_)
  refine Gives.bind (expression_gives he (by rw [kindAhead_cons, hu]; rfl) table) ?_
  refine (gives_expectIn hu (by decide) (by decide)).bind (Gives.bind (hx hrest _) ?_)
  exact (gives_accept_false helse).bind (gives_pure _)

theorem reads_ifElse (ht : t.kind = .kwIf) (he : Phrase .expression ts e (u :: mid))
    (hu : u.kind = .kwThen) (hx : ReadsStatement settings mid x (v :: mid'))
    (hv : v.kind = .kwElse) (hy : ReadsStatement settings mid' y rest) :
    ReadsStatement settings (t :: ts) (.ifElse t.line e x y) rest := by
  intro hrest table
  refine statement_gives (gives_kind.bind ?_)
  rw [kindAhead_cons, ht]
  refine Gives.bind gives_line ((gives_advance (isEnd_of_kind ht (by decide))).bind ?_)
  refine Gives.bind (expression_gives he (by rw [kindAhead_cons, hu]; rfl) table) ?_
  refine (gives_expectIn hu (by decide) (by decide)).bind ?_
  refine Gives.bind (hx (by rw [kindAhead_cons, hv]; rfl) _) ?_
  refine (gives_accept hv (by decide)).bind ?_
  exact Gives.bind (hy hrest _) (gives_pure _)

theorem reads_whileDo (ht : t.kind = .kwWhile) (he : Phrase .expression ts e (u :: mid))
    (hu : u.kind = .kwDo) (hx : ReadsStatement settings mid x rest) :
    ReadsStatement settings (t :: ts) (.whileDo t.line e x) rest := by
  intro hrest table
  refine statement_gives (gives_kind.bind ?_)
  rw [kindAhead_cons, ht]
  refine Gives.bind gives_line ((gives_advance (isEnd_of_kind ht (by decide))).bind ?_)
  refine Gives.bind (expression_gives he (by rw [kindAhead_cons, hu]; rfl) table) ?_
  refine (gives_expectIn hu (by decide) (by decide)).bind ?_
  exact Gives.bind (hx hrest _) (gives_pure _)

theorem reads_repeatUntil (ht : t.kind = .kwRepeat) (hxs : ReadsList settings ts xs (u :: mid))
    (hu : u.kind = .kwUntil) (he : Phrase .expression mid e rest) :
    ReadsStatement settings (t :: ts) (.repeatUntil t.line xs (lineAhead mid) e) rest := by
  intro hrest table
  refine statement_gives (gives_kind.bind ?_)
  rw [kindAhead_cons, ht]
  refine Gives.bind gives_line ((gives_advance (isEnd_of_kind ht (by decide))).bind ?_)
  refine Gives.bind (list_gives hu (Or.inr rfl) hxs table) (Gives.bind gives_line ?_)
  exact Gives.bind (expression_gives he (followsStatement_spec hrest).1 _) (gives_pure _)

theorem start_spec {k : TokenKind} (h : expressionStart.contains k = true) :
    k ≠ .semicolon ∧ (k ≠ .plus → k ≠ .minus → continues k = false) := by
  revert h
  cases k <;> decide

theorem assignment_starts {target : Name} (h : Assignment ts target e rest) :
    kindAhead ts = .identifier ∧ lineAhead ts = target.line := by
  obtain ⟨ht, -, -⟩ := h
  exact ⟨ht, rfl⟩

theorem reads_loop {afterFirst atCondition afterCondition atNext : List Token}
    {counter target : Name} {first condition next : Expr} (ht : t.kind = .kwLoop)
    (hu : u.kind = .leftParen) (hfirst : Assignment ts counter first afterFirst)
    (hskip : OptionalSemicolon afterFirst atCondition)
    (hsign : atCondition = afterFirst →
      kindAhead atCondition ≠ .plus ∧ kindAhead atCondition ≠ .minus)
    (hcond : Phrase .expression atCondition condition afterCondition)
    (hskip' : OptionalSemicolon afterCondition atNext)
    (hnext : Assignment atNext target next (v :: w :: mid)) (hv : v.kind = .rightParen)
    (hw : w.kind = .kwDo) (hx : ReadsStatement settings mid x rest) :
    ReadsStatement settings (t :: u :: ts) (.loop counter first condition target next x) rest := by
  intro hrest table
  obtain ⟨hne, hstart⟩ := start_spec (phrase_starts hcond).1
  have hname := (assignment_starts hnext).1
  have hafterFirst : continues (kindAhead afterFirst) = false := by
    cases hskip with
    | absent => exact hstart (hsign rfl).1 (hsign rfl).2
    | present hk =>
      rw [kindAhead_cons, hk]
      rfl
  have hafterCondition : continues (kindAhead afterCondition) = false := by
    cases hskip' with
    | absent =>
      rw [hname]
      rfl
    | present hk =>
      rw [kindAhead_cons, hk]
      rfl
  obtain ⟨b, hb⟩ := gives_optionalSemicolon hskip hne
    (first.lowerAssign counter.line counter table).2
  obtain ⟨b', hb'⟩ := gives_optionalSemicolon hskip' (by rw [hname]; decide)
    (condition.lower (first.lowerAssign counter.line counter table).2).2
  refine statement_gives (gives_kind.bind ?_)
  rw [kindAhead_cons, ht]
  refine (gives_advance (isEnd_of_kind ht (by decide))).bind ?_
  refine (gives_expect hu (by decide)).bind (gives_line.bind ?_)
  rw [(assignment_starts hfirst).2]
  refine Gives.bind (assignment_gives hfirst hafterFirst table) (hb.bind ?_)
  refine Gives.bind (expression_gives hcond hafterCondition _) (hb'.bind ?_)
  refine Gives.bind (assignment_gives hnext (by rw [kindAhead_cons, hv]; rfl) _) ?_
  refine (gives_expectIn hv (by decide) (by decide)).bind ?_
  refine (gives_expectIn hw (by decide) (by decide)).bind ?_
  exact Gives.bind (hx hrest _) (gives_pure _)

theorem follows_optionalSemicolon {k : TokenKind} (h : OptionalSemicolon ts (t :: rest))
    (ht : t.kind = k) (hk : followsStatement k = true) :
    followsStatement (kindAhead ts) = true := by
  cases h with
  | absent =>
    rw [kindAhead_cons, ht]
    exact hk
  | present hu =>
    rw [kindAhead_cons, hu]
    rfl

theorem reads_when {afterNegative atZero afterZero beforePositive : List Token}
    (ht : t.kind = .kwWhen) (he : Phrase .expression ts e (u :: mid)) (hu : u.kind = .kwLessThan0)
    (hx : ReadsStatement settings mid x afterNegative)
    (hskip : OptionalSemicolon afterNegative (v :: atZero)) (hv : v.kind = .kwEqual0)
    (hy : ReadsStatement settings atZero y afterZero)
    (hskip' : OptionalSemicolon afterZero (w :: beforePositive)) (hw : w.kind = .kwGreaterThan0)
    (hz : ReadsStatement settings beforePositive z rest) :
    ReadsStatement settings (t :: ts) (.when t.line (lineAhead ts) e x v.line y z) rest := by
  intro hrest table
  have hx := hx (follows_optionalSemicolon hskip hv rfl)
  have hy := hy (follows_optionalSemicolon hskip' hw rfl)
  have hsemicolon := gives_optionalSemicolon hskip (by rw [kindAhead_cons, hv]; decide)
  have hsemicolon' := gives_optionalSemicolon hskip' (by rw [kindAhead_cons, hw]; decide)
  refine statement_gives (gives_kind.bind ?_)
  rw [kindAhead_cons, ht]
  refine Gives.bind gives_line ((gives_advance (isEnd_of_kind ht (by decide))).bind ?_)
  refine Gives.bind gives_line ?_
  refine Gives.bind (expression_gives he (by rw [kindAhead_cons, hu]; rfl) table) ?_
  refine Gives.bind (gives_enter _ _) ?_
  refine (gives_expectIn hu (by decide) (by decide)).bind (Gives.bind (hx _) ?_)
  obtain ⟨b, hb⟩ := hsemicolon _
  refine hb.bind ((gives_resumeAt (by rw [kindAhead_cons, hv]; decide)).bind ?_)
  refine gives_line.bind ((gives_expect hv (by decide)).bind (Gives.bind (hy _) ?_))
  obtain ⟨b', hb'⟩ := hsemicolon' _
  refine hb'.bind ((gives_expectIn hw (by decide) (by decide)).bind ?_)
  exact Gives.bind (hz hrest _) (gives_pure _)

/-! ## Lists of statements -/

theorem statement_opens (h : Statement ts x rest) :
    x = .empty (lineAhead ts) ∧ rest = ts ∨
      x.isEmpty = false ∧ kindAhead ts ∈ statementOpeners := by
  cases h with
  | empty => exact Or.inl ⟨rfl, rfl⟩
  | assign h =>
    rw [(assignment_starts h).1]
    exact Or.inr ⟨rfl, by decide⟩
  | block ht | call ht | callEmpty ht | callWith ht | ifThen ht | ifElse ht | whileDo ht
  | repeatUntil ht | loop ht | when ht =>
    rw [kindAhead_cons, ht]
    exact Or.inr ⟨rfl, by decide⟩

theorem closesList_spec {k : TokenKind} (h : closesList k) :
    followsStatement k = true ∧ k ≠ .semicolon ∧ k ∉ statementOpeners := by
  rcases h with rfl | rfl | rfl <;> decide

theorem gives_closed (nodes : List Node) (table : SymbolTable) :
    Gives (loop (listTurn settings (statement settings) (kindAhead ts)) nodes) ts table nodes ts
      table := by
  intro s hs
  refine ⟨s, listLoop_closed settings (statement_isStatementParser settings) nodes (Or.inl ?_), hs⟩
  rw [kind_eq_ahead, hs.upcoming]

/-- A turn of a list in front of a statement and what comes behind it. -/
theorem gives_listTurn {closer : TokenKind} {n : Node} {table table' : SymbolTable}
    (nodes : List Node) (hk : kindAhead ts ≠ closer ∧ kindAhead ts ≠ .endOfFile)
    (hx : Gives (statement settings) ts table n mid table')
    (hmid : (∃ t, mid = t :: rest ∧ t.kind = .semicolon) ∨
      mid = rest ∧ kindAhead rest = closer ∧ closesList closer) :
    Gives (listTurn settings (statement settings) closer nodes) ts table (some (nodes ++ [n]))
      rest table' := by
  unfold listTurn
  dsimp only
  refine gives_kind.bind ?_
  rw [if_neg (not_or.mpr hk)]
  refine hx.bind ((gives_checkLimit settings).bind ?_)
  rcases hmid with ⟨t, rfl, ht⟩ | ⟨rfl, hclose, hcloser⟩
  · exact (gives_accept ht (by decide)).bind (gives_pure _)
  · obtain ⟨-, hne, hno⟩ := closesList_spec hcloser
    rw [← hclose] at hne hno
    have hstart : statementStart.contains (kindAhead mid) = false := by
      rw [Bool.eq_false_iff, Ne, statementStart_contains]
      exact not_or.mpr ⟨hno, hne⟩
    refine (gives_accept_false hne).bind (gives_kind.bind ?_)
    rw [hstart, if_neg Bool.false_ne_true, if_neg (fun h => h.1 hclose)]
    exact gives_pure _

theorem reads_last (hstmt : Statement ts x rest) (hx : ReadsStatement settings ts x rest) :
    ReadsList settings ts [x] rest := by
  intro hclose nodes table
  obtain ⟨hfollow, hne, hno⟩ := closesList_spec hclose
  rcases statement_opens hstmt with ⟨rfl, rfl⟩ | ⟨hempty, hopen⟩
  · rw [Stmt.lowerAll_last_empty rfl, List.append_nil]
    exact gives_closed nodes table
  · rw [Stmt.lowerAll_cons (Or.inr hempty)]
    have hk : kindAhead ts ≠ kindAhead rest ∧ kindAhead ts ≠ .endOfFile := by
      refine ⟨fun h => hno (h ▸ hopen), fun h => ?_⟩
      rw [h] at hopen
      revert hopen
      decide
    have hturn := gives_listTurn nodes hk (hx hfollow table) (Or.inr ⟨rfl, rfl, hclose⟩)
    exact gives_loop_again (listTurn_progressive settings (statement_isStatementParser settings) _)
      hturn (gives_closed _ _)

theorem reads_more (hstmt : Statement ts x (t :: mid))
    (hx : ReadsStatement settings ts x (t :: mid))
    (ht : t.kind = .semicolon) (hne : xs ≠ []) (hxs : ReadsList settings mid xs rest) :
    ReadsList settings ts (x :: xs) rest := by
  intro hclose nodes table
  obtain ⟨-, hsemicolon, hno⟩ := closesList_spec hclose
  have hk : kindAhead ts ≠ kindAhead rest ∧ kindAhead ts ≠ .endOfFile := by
    rcases statement_opens hstmt with ⟨-, rfl⟩ | ⟨-, hopen⟩
    · rw [kindAhead_cons, ht]
      exact ⟨hsemicolon.symm, by decide⟩
    · refine ⟨fun h => hno (h ▸ hopen), fun h => ?_⟩
      rw [h] at hopen
      revert hopen
      decide
  have hturn := gives_listTurn nodes hk (hx (by rw [kindAhead_cons, ht]; rfl) table)
    (Or.inl ⟨t, rfl, ht⟩)
  have hrest := hxs hclose (nodes ++ [(x.lower settings table).1]) (x.lower settings table).2
  rw [List.append_assoc] at hrest
  rw [Stmt.lowerAll_cons (Or.inl hne)]
  exact gives_loop_again (listTurn_progressive settings (statement_isStatementParser settings) _)
    hturn hrest

theorem statements_ne_nil (h : Statements ts xs rest) : xs ≠ [] := by
  cases h <;> exact List.cons_ne_nil _ _

end

/-! ## All derivations -/

mutual
theorem statement_reads (settings : Settings) {ts rest : List Token} {x : Stmt} :
    Statement ts x rest → ReadsStatement settings ts x rest
  | .empty => reads_empty
  | .block ht hxs hu => reads_block ht (statements_read settings hxs) hu
  | .assign h => reads_assign h
  | .call ht => reads_call ht
  | .callEmpty ht hu hv => reads_callEmpty ht hu hv
  | .callWith ht hu h hv => reads_callWith ht hu h hv
  | .ifThen ht he hu hx helse => reads_ifThen ht he hu (statement_reads settings hx) helse
  | .ifElse ht he hu hx hv hy =>
    reads_ifElse ht he hu (statement_reads settings hx) hv (statement_reads settings hy)
  | .whileDo ht he hu hx => reads_whileDo ht he hu (statement_reads settings hx)
  | .repeatUntil ht hxs hu he => reads_repeatUntil ht (statements_read settings hxs) hu he
  | .loop ht hu hfirst hskip hsign hcond hskip' hnext hv hw hx =>
    reads_loop ht hu hfirst hskip hsign hcond hskip' hnext hv hw (statement_reads settings hx)
  | .when ht he hu hx hskip hv hy hskip' hw hz =>
    reads_when ht he hu (statement_reads settings hx) hskip hv (statement_reads settings hy)
      hskip' hw (statement_reads settings hz)

theorem statements_read (settings : Settings) {ts rest : List Token} {xs : List Stmt} :
    Statements ts xs rest → ReadsList settings ts xs rest
  | .last hx => reads_last hx (statement_reads settings hx)
  | .more hx ht hxs => reads_more hx (statement_reads settings hx) ht (statements_ne_nil hxs)
      (statements_read settings hxs)
end

theorem program_gives (settings : Settings) {ts : List Token} {p : Source} (h : IsProgram ts p)
    (table : SymbolTable) :
    ∃ rest, Gives (program settings) ts table (p.lower settings table).1 rest
      (p.lower settings table).2 := by
  cases h with
  | @block t u v stop ts body ht hxs hu hv hstop =>
    refine ⟨[stop], ?_⟩
    have hend : kindAhead [stop] = .endOfFile := by simpa [Token.isEnd] using hstop
    unfold program
    dsimp only
    refine Gives.bind gives_kind ?_
    rw [kindAhead_cons, if_pos ht]
    have hcompound : Gives (compound settings (statement settings)) (t :: ts) table
        (.statement .compound t.line (Stmt.lowerAll settings body table).1) [v, stop]
        (Stmt.lowerAll settings body table).2 := by
      refine Gives.bind gives_line ((gives_advance (isEnd_of_kind ht (by decide))).bind ?_)
      refine Gives.bind ?_ (gives_pure _)
      exact list_gives hu (Or.inl rfl) (statements_read settings hxs) table
    refine hcompound.bind ((gives_expect hv (by decide)).bind (gives_kind.bind ?_))
    rw [if_neg (not_not.mpr hend)]
    exact gives_pure _
  | @bare stop _ body hstart hxs hstop =>
    refine ⟨[stop], ?_⟩
    have hend : kindAhead [stop] = .endOfFile := by simpa [Token.isEnd] using hstop
    have hloop := statements_read settings hxs (Or.inr (Or.inr hend)) [] table
    rw [hend] at hloop
    unfold program
    dsimp only
    refine Gives.bind gives_kind ?_
    rw [if_neg hstart]
    refine Gives.bind gives_line (Gives.bind (Gives.bind hloop ?_) (gives_pure _))
    exact (gives_expect_end hstop).bind (gives_pure _)

/-! ## The law -/

theorem shows_start {ts : List Token} (symbols : SymbolTable) (hends : EndsOnce ts)
    (hkinds : ∀ t ∈ ts, t.kind ≠ .comment ∧ t.kind ≠ .error) :
    Shows (.start ts symbols) ts symbols := by
  have hrow : ts.filter Cursor.isGrammatical = ts := by
    rw [List.filter_eq_self]
    intro t ht
    simpa [Cursor.isGrammatical] using hkinds t ht
  obtain ⟨body, stop, rfl, hstop, -⟩ := hends
  refine ⟨?_, rfl, rfl⟩
  simp [ParserState.start, Cursor.ofTokens, hrow, hstop, upcoming, Cursor.upcoming]

/-- Without comments and faulty tokens, and with one token for the end, a row of tokens is parsed
without a diagnostic if and only if the grammar derives a program from it. The tree and the names
are then those of the program. -/
theorem grammar_is_exact (settings : Settings) (symbols : SymbolTable) (ts : List Token)
    (hends : EndsOnce ts) (hkinds : ∀ t ∈ ts, t.kind ≠ .comment ∧ t.kind ≠ .error) :
    ((∃ tree s', program settings (.start ts symbols) = .ok tree s' ∧ s'.errorCount = 0) ↔
      ∃ p, IsProgram ts p) ∧
    ∀ p, IsProgram ts p → ∃ s', program settings (.start ts symbols) =
      .ok (p.lower settings symbols).1 s' ∧ s'.errorCount = 0 ∧
        s'.symbols = (p.lower settings symbols).2 := by
  have hshows := shows_start symbols hends hkinds
  have hgives : ∀ p, IsProgram ts p → ∃ s', program settings (.start ts symbols) =
      .ok (p.lower settings symbols).1 s' ∧ s'.errorCount = 0 ∧
        s'.symbols = (p.lower settings symbols).2 := by
    intro p hp
    obtain ⟨rest, h⟩ := program_gives settings hp symbols
    obtain ⟨s', hr, hs'⟩ := h _ hshows
    exact ⟨s', hr, by simp [errorCount, show s'.diagnostics = #[] from hs'.clean], hs'.symbols⟩
  refine ⟨⟨?_, ?_⟩, hgives⟩
  · rintro ⟨tree, s', hr, hcount⟩
    have hclean : s'.Clean := Array.size_eq_zero_iff.mp hcount
    have hp := program_passes settings (by rwa [hshows.upcoming]) ⟨hr, hclean⟩
    rwa [hshows.upcoming] at hp
  · rintro ⟨p, hp⟩
    obtain ⟨s', hr, hcount, -⟩ := hgives p hp
    exact ⟨_, s', hr, hcount⟩

/-- The tokens of `BEGIN X := -1; END.` -/
def smallTokens : List Token :=
  let token k text n := ⟨k, text, none, .between n (n + text.length), ⟨1, n + 1⟩⟩
  [token .kwBegin "BEGIN" 0, token .identifier "X" 6, token .assign ":=" 8, token .minus "-" 11,
    { token .integer "1" 12 with value := some (.integer 1) }, token .semicolon ";" 13,
    token .kwEnd "END" 15, token .dot "." 18, token .endOfFile "" 19]

theorem small_program_is_exact :
    ∃ p, IsProgram smallTokens p ∧ ∃ s', program {} (.start smallTokens {}) =
      .ok (p.lower {} {}).1 s' ∧ s'.errorCount = 0 ∧ s'.symbols = (p.lower {} {}).2 := by
  have hp : IsProgram smallTokens
      ⟨1, [.assign ⟨"X", 1⟩ (.negate (.literal (.integer 1))), .empty 1]⟩ :=
    .block rfl (.more (.assign (.intro rfl rfl (.simple (.minus rfl (.factor (.literal rfl)))))) rfl
      (.last .empty)) rfl rfl rfl
  exact ⟨_, hp, (grammar_is_exact {} {} smallTokens ⟨smallTokens.dropLast, _, rfl, rfl, by decide⟩
    (by decide)).2 _ hp⟩

end PascalFront.Parser
