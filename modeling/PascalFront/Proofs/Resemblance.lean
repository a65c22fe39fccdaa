-- What a parser cannot tell apart. A parser looks at the kinds, the values and the
-- places of tokens, and of their texts it reads the names and no more. On tokens
-- that agree in these it does the same, and what it reports differs no more than
-- the tokens do. How far they may differ is left open here.
import PascalFront.Proofs.Branches
import Mathlib.Data.List.Forall2

namespace PascalFront

/-- A way in which tokens can be the same to a parser, and diagnostics to its caller. -/
structure Resemblance where
  tokens : Token → Token → Prop
  diagnostics : Diagnostic → Diagnostic → Prop
  refl : ∀ t, tokens t t
  /-- Tokens may differ in the text and in the span, but not in the name that the text is. -/
  rest : ∀ {t t'}, tokens t t' → t' = { t with text := t'.text, span := t'.span }
  name : ∀ {t t'}, tokens t t' → caseFold t'.text = caseFold t.text
  closing : ∀ {t t'}, tokens t t' → tokens (Cursor.closing t) (Cursor.closing t')
  fault : ∀ {t t'}, tokens t t' →
    Option.Rel diagnostics (Diagnostic.ofErrorToken? t) (Diagnostic.ofErrorToken? t')
  atToken : ∀ {t t'}, tokens t t' → ∀ cause,
    diagnostics (Diagnostic.atToken t cause) (Diagnostic.atToken t' cause)

variable {r : Resemblance}

/-! ## Rows of tokens -/

namespace Resemblance

variable {t t' : Token} {ts ts' : List Token}

theorem kind (h : r.tokens t t') : t'.kind = t.kind := by rw [r.rest h]

theorem position (h : r.tokens t t') : t'.position = t.position := by rw [r.rest h]

theorem isEnd (h : r.tokens t t') : t'.isEnd = t.isEnd := by
  rw [r.rest h]
  rfl

/-- The tokens that count for the grammar are the same ones. -/
theorem grammatical (h : List.Forall₂ r.tokens ts ts') :
    List.Forall₂ r.tokens (ts.filter Cursor.isGrammatical) (ts'.filter Cursor.isGrammatical) := by
  refine List.rel_filter (fun t t' ht => ?_) h
  simp only [Cursor.isGrammatical, kind ht]

theorem dropWhile {p : Token → Bool} (hp : ∀ t t', r.tokens t t' → p t' = p t)
    (h : List.Forall₂ r.tokens ts ts') :
    List.Forall₂ r.tokens (ts.dropWhile p) (ts'.dropWhile p) := by
  induction h with
  | nil => exact .nil
  | @cons t t' _ _ ht hrest ih =>
    rw [List.dropWhile_cons, List.dropWhile_cons, hp t t' ht]
    split
    · exact ih
    · exact .cons ht hrest

theorem headD {stop stop' : Token} (hstop : r.tokens stop stop')
    (h : List.Forall₂ r.tokens ts ts') : r.tokens (ts.headD stop) (ts'.headD stop') := by
  cases h with
  | nil => exact hstop
  | cons ht _ => exact ht

/-- The faults of two texts are the same, if their tokens are. -/
theorem faults (h : List.Forall₂ r.tokens ts ts') :
    List.Forall₂ r.diagnostics (lexicalDiagnostics ts) (lexicalDiagnostics ts') :=
  List.rel_filterMap (fun _ _ ht => r.fault ht) h

end Resemblance

/-! ## States -/

namespace Cursor

/-- Two cursors in front of rows that look the same. -/
structure Alike (r : Resemblance) (c c' : Cursor) : Prop where
  ahead : List.Forall₂ r.tokens c.ahead c'.ahead
  stop : r.tokens c.stop c'.stop

variable {c c' : Cursor}

theorem Alike.here (h : c.Alike r c') : r.tokens c.here c'.here :=
  Resemblance.headD h.stop h.ahead

theorem Alike.second (h : c.Alike r c') : r.tokens c.second c'.second :=
  Resemblance.headD h.stop (List.forall₂_drop 1 h.ahead)

theorem Alike.atEnd (h : c.Alike r c') : c'.atEnd = c.atEnd := Resemblance.isEnd h.here

theorem Alike.advance (h : c.Alike r c') : c.advance.Alike r c'.advance := by
  obtain ⟨passed, ahead, stop, hend⟩ := c
  obtain ⟨passed', ahead', stop', hend'⟩ := c'
  obtain ⟨hahead, hstop⟩ := h
  cases hahead with
  | nil => exact ⟨.nil, hstop⟩
  | cons ht hrest =>
    simp only [Cursor.advance, Resemblance.isEnd ht]
    split
    · exact ⟨.cons ht hrest, hstop⟩
    · exact ⟨hrest, hstop⟩

theorem Alike.skipUntil (p : TokenKind → Bool) (h : c.Alike r c') :
    (c.skipUntil p).Alike r (c'.skipUntil p) := by
  have hp (t t' : Token) (ht : r.tokens t t') :
      (!p t'.kind && !t'.isEnd) = (!p t.kind && !t.isEnd) := by
    rw [Resemblance.kind ht, Resemblance.isEnd ht]
  refine ⟨?_, h.stop⟩
  simp only [Cursor.skipUntil, List.span_eq_takeWhile_dropWhile]
  exact Resemblance.dropWhile hp h.ahead

theorem alike_ofTokens {ts ts' : List Token}
    (hrow : List.Forall₂ r.tokens (ts.filter isGrammatical) (ts'.filter isGrammatical)) :
    (ofTokens ts).Alike r (ofTokens ts') := by
  unfold ofTokens
  dsimp only
  generalize ts.filter isGrammatical = row at hrow ⊢
  generalize ts'.filter isGrammatical = row' at hrow ⊢
  rcases List.eq_nil_or_concat row with rfl | ⟨init, last, rfl⟩
  · cases hrow
    exact ⟨.nil, r.refl _⟩
  · obtain ⟨last', init', hlast, hinit, hrow'⟩ : ∃ last' init', r.tokens last last' ∧
        List.Forall₂ r.tokens init.reverse init' ∧ row'.reverse = last' :: init' := by
      rw [← List.forall₂_reverse_iff, List.concat_eq_append, List.reverse_concat] at hrow
      exact List.forall₂_cons_left_iff.mp hrow
    obtain rfl : row' = init'.reverse ++ [last'] := by
      rw [← List.reverse_reverse row', hrow', List.reverse_cons]
    have hinit : List.Forall₂ r.tokens init init'.reverse := by
      rwa [← List.forall₂_reverse_iff, List.reverse_reverse]
    simp only [List.concat_eq_append, List.getLast?_append, List.getLast?_singleton,
      Option.some_or, Resemblance.isEnd hlast]
    split
    · simpa using ⟨hinit, hlast⟩
    · exact ⟨List.rel_append hinit (.cons hlast .nil), r.closing hlast⟩

end Cursor

namespace ParserState

/-- Two states that look the same. -/
structure Alike (r : Resemblance) (s u : ParserState) : Prop where
  cursor : s.cursor.Alike r u.cursor
  diagnostics : List.Forall₂ r.diagnostics s.diagnostics.toList u.diagnostics.toList
  symbols : u.symbols = s.symbols

namespace Alike

variable {s u : ParserState}

theorem here (h : s.Alike r u) : r.tokens s.here u.here := h.cursor.here

theorem kind (h : s.Alike r u) : u.kind = s.kind := Resemblance.kind h.here

theorem line (h : s.Alike r u) : u.line = s.line :=
  congrArg Position.line (Resemblance.position h.here)

theorem errorCount (h : s.Alike r u) : u.errorCount = s.errorCount := h.diagnostics.length_eq.symm

theorem advance (h : s.Alike r u) : s.advance.Alike r u.advance :=
  ⟨h.cursor.advance, h.diagnostics, h.symbols⟩

theorem flag (h : s.Alike r u) (cause : Cause) : (s.flag cause).Alike r (u.flag cause) := by
  refine ⟨h.cursor, ?_, h.symbols⟩
  simp only [ParserState.flag, note, Array.toList_push]
  exact List.rel_append h.diagnostics (.cons (r.atToken h.here cause) .nil)

theorem enter (h : s.Alike r u) (name : String) (line : Nat) :
    (u.enter name line).1 = (s.enter name line).1 ∧
      (s.enter name line).2.Alike r (u.enter name line).2 := by
  have henter : u.symbols.enterAt name line = s.symbols.enterAt name line := by rw [h.symbols]
  unfold ParserState.enter
  rw [henter]
  exact ⟨rfl, h.cursor, h.diagnostics, rfl⟩

theorem resumeAt (h : s.Alike r u) (set : KindSet) : (s.resumeAt set).Alike r (u.resumeAt set) := by
  unfold ParserState.resumeAt
  rw [h.kind, h.cursor.atEnd]
  split
  · exact h
  · have hflag := h.flag .unexpectedToken
    exact ⟨hflag.cursor.skipUntil _, hflag.diagnostics, hflag.symbols⟩

end Alike

end ParserState

/-! ## Parsers -/

namespace Parser

open ParserState

/-- The same result or the same failure, and states that look the same. -/
inductive SameResult (r : Resemblance) : EStateM.Result Failure ParserState α →
    EStateM.Result Failure ParserState α → Prop
  | ok (a : α) {s u : ParserState} : s.Alike r u → SameResult r (.ok a s) (.ok a u)
  | error (e : Failure) {s u : ParserState} : s.Alike r u → SameResult r (.error e s) (.error e u)

/-- A parser that does the same on both sides of a resemblance. -/
class Blind (r : Resemblance) (p : Parser α) : Prop where
  run : ∀ {s u : ParserState}, s.Alike r u → SameResult r (p s) (p u)

instance (a : α) : Blind r (pure a : Parser α) := ⟨fun h => .ok a h⟩

instance {p : Parser α} {f : α → Parser β} [hp : Blind r p] [hf : ∀ a, Blind r (f a)] :
    Blind r (p >>= f) := by
  constructor
  intro s u h
  rw [bind_apply, bind_apply]
  have hrun := hp.run h
  generalize p s = result at hrun
  generalize p u = result' at hrun
  cases hrun with
  | ok a h' => exact (hf a).run h'
  | error e h' => exact .error e h'

instance {p : Parser α} {q : Parser β} [Blind r p] [Blind r q] : Blind r (p >>= fun _ => q) :=
  inferInstance

instance {c : Prop} [Decidable c] {p q : Parser α} [Blind r p] [Blind r q] :
    Blind r (if c then p else q) := by
  split <;> infer_instance

/-- What a parser does with the token at the cursor is the same when it leaves its text and its span
alone. -/
theorem blind_here_bind {f : Token → Parser α} [hf : ∀ t, Blind r (f t)]
    (hplain : ∀ t text span, f { t with text, span } = f t) : Blind r (here >>= f) := by
  constructor
  intro s u h
  have hsame : f u.here = f s.here := by rw [r.rest h.here, hplain]
  rw [here_bind, here_bind, hsame]
  exact (hf s.here).run h

instance : Blind r kind where
  run h := by
    unfold kind
    rw [h.kind]
    exact .ok _ h

instance : Blind r nextKind where
  run h := by
    unfold nextKind
    rw [Resemblance.kind h.cursor.second]
    exact .ok _ h

instance : Blind r line where
  run h := by
    unfold line
    rw [h.line]
    exact .ok _ h

instance : Blind r advance := ⟨fun h => .ok () h.advance⟩

instance (k : TokenKind) : Blind r (accept k) where
  run h := by
    unfold accept
    rw [h.kind]
    split
    · exact .ok true h.advance
    · exact .ok false h

instance (cause : Cause) : Blind r (flag cause) := ⟨fun h => .ok () (h.flag cause)⟩

instance (k : TokenKind) (missing : Cause) : Blind r (expect k missing) where
  run h := by
    unfold expect
    rw [h.kind]
    split
    · exact .ok () h.advance
    · exact .ok () (h.flag missing)

instance (set : KindSet) : Blind r (resumeAt set) := ⟨fun h => .ok () (h.resumeAt set)⟩

instance (settings : Settings) : Blind r (checkLimit settings) where
  run h := by
    unfold checkLimit
    rw [h.errorCount]
    split
    · exact .error _ h
    · exact .ok () h

instance : Blind r (endedEarly : Parser α) where
  run h := by
    unfold endedEarly
    rw [h.line]
    exact .error _ (h.flag .unexpectedEnd)

instance (name : String) (line : Nat) : Blind r (enter name line) where
  run {s u} h := by
    obtain ⟨hid, hstate⟩ := h.enter name line
    change SameResult r (.ok (s.enter name line).1 _) (.ok (u.enter name line).1 _)
    rw [hid]
    exact .ok _ hstate

/-- The one text that a parser reads is a name. -/
instance : Blind r takeName where
  run {s u} h := by
    obtain ⟨hid, hstate⟩ := h.enter (caseFold s.here.text) s.line
    rw [takeName_eq, takeName_eq, r.name h.here, h.line, hid]
    exact .ok _ hstate.advance

/-! ### Loops and recursion

The tokens ahead are the bound of a loop, and of a bound only the length counts. -/

theorem loopWithin_of_length (turn : β → Parser (Option β)) {bound bound' : List Token}
    (h : bound.length = bound'.length) : loopWithin turn bound = loopWithin turn bound' := by
  induction bound generalizing bound' with
  | nil => rw [List.length_eq_zero_iff.mp h.symm]
  | cons t bound ih =>
    obtain ⟨t', bound', rfl⟩ := List.exists_cons_of_length_eq_add_one h.symm
    have hbound := ih (Nat.succ.inj h)
    funext b
    unfold loopWithin
    rw [hbound]

theorem nestWithin_of_length (last : Parser α) (level : Parser α → Parser α)
    {bound bound' : List Token} (h : bound.length = bound'.length) :
    nestWithin last level bound = nestWithin last level bound' := by
  induction bound generalizing bound' with
  | nil => rw [List.length_eq_zero_iff.mp h.symm]
  | cons t bound ih =>
    obtain ⟨t', bound', rfl⟩ := List.exists_cons_of_length_eq_add_one h.symm
    have hbound := ih (Nat.succ.inj h)
    funext s
    unfold nestWithin
    rw [hbound]

instance (turn : β → Parser (Option β)) [∀ b, Blind r (turn b)] (b : β) :
    Blind r (loop turn b) where
  run {s u} h := by
    have hwithin : Blind r (loopWithin turn s.cursor.ahead b) :=
      loopWithin_of (K := fun p => Blind r p) (fun _ => inferInstance)
        (fun _ _ _ _ => inferInstance) (fun _ => inferInstance) _ b
    unfold loop
    rw [← loopWithin_of_length turn h.cursor.ahead.length_eq]
    exact hwithin.run h

theorem blind_nest {last : Parser α} {level : Parser α → Parser α} [hlast : Blind r last]
    (hlevel : ∀ p, Blind r p → Blind r (level p)) : Blind r (nest last level) where
  run {s u} h := by
    have hwithin (bound : List Token) : Blind r (nestWithin last level bound) := by
      induction bound with
      | nil => exact ⟨fun h => (hlevel last hlast).run h⟩
      | cons t bound ih => exact ⟨fun h => (hlevel _ ih).run h⟩
    unfold nest
    rw [← nestWithin_of_length last level h.cursor.ahead.length_eq]
    exact (hwithin s.cursor.ahead).run h

/-! ### The parsers of the language -/

section

variable {inner : Parser Node} [Blind r inner] (settings : Settings)

instance (set : KindSet) (k : TokenKind) (missing : Cause) : Blind r (expectIn set k missing) := by
  unfold expectIn; infer_instance

instance : Blind r noOperand := by unfold noOperand; infer_instance

instance (n : Node) : Blind r (constant n) := by unfold constant; infer_instance

instance : Blind r (operand inner) := by
  have hkind : ∀ t : Token, Blind r (match t.kind with
      | .identifier => (do return .var (← takeName) : Parser Node)
      | .integer => constant t.integerNode
      | .real => constant t.realNode
      | .string => constant t.stringNode
      | .leftParen => do
        advance
        let n ← inner
        expect .rightParen .missingRightParen
        return n
      | .endOfFile => endedEarly
      | _ => noOperand) := by
    intro t
    split <;> infer_instance
  exact blind_here_bind fun _ _ _ => rfl

instance (n : Nat) : Blind r (negationTurn n) := by unfold negationTurn; infer_instance

instance : Blind r negations := by unfold negations; infer_instance

instance : Blind r (factor inner) := by unfold factor; infer_instance

instance (operator? : TokenKind → Option NodeKind) (left : Node) :
    Blind r (chainTurn operator? inner left) := by
  have hop : ∀ o : Option NodeKind, Blind r (match o with
      | none => pure none
      | some op => do
        advance
        return some (.binary op left (← inner)) : Parser (Option Node)) := by
    intro o
    cases o <;> infer_instance
  unfold chainTurn
  infer_instance

instance (operator? : TokenKind → Option NodeKind) (first : Node) :
    Blind r (chain operator? inner first) := by unfold chain; infer_instance

instance : Blind r (term inner) := by unfold term; infer_instance

instance : Blind r (simpleExpression inner) := by unfold simpleExpression; infer_instance

instance : Blind r (expressionLevel inner) := by
  have hop : ∀ (left : Node) (o : Option NodeKind), Blind r (match o with
      | none => pure left
      | some op => do
        advance
        return .binary op left (← simpleExpression inner) : Parser Node) := by
    intro left o
    cases o <;> infer_instance
  unfold expressionLevel
  infer_instance

instance : Blind r expression := blind_nest fun _ _ => inferInstance

instance : Blind r assignment := by
  unfold assignment
  exact blind_here_bind fun _ _ _ => rfl

instance (args : List Node) : Blind r (argumentTurn args) := by
  unfold argumentTurn; infer_instance

instance : Blind r arguments := by unfold arguments; infer_instance

instance : Blind r procedureCall := by unfold procedureCall; infer_instance

instance (closer : TokenKind) : Blind r (behindItem settings closer) := by
  unfold behindItem; infer_instance

instance (closer : TokenKind) (nodes : List Node) :
    Blind r (listTurn settings inner closer nodes) := by
  rw [listTurn_eq]; infer_instance

instance (closer : TokenKind) (missing : Cause) :
    Blind r (statementList settings inner closer missing) := by
  unfold statementList; infer_instance

instance : Blind r (compound settings inner) := by unfold compound; infer_instance

instance : Blind r (ifStatement inner) := by unfold ifStatement; infer_instance

instance : Blind r (whileStatement inner) := by unfold whileStatement; infer_instance

instance : Blind r (repeatStatement settings inner) := by
  unfold repeatStatement; infer_instance

instance : Blind r (loopStatement inner) := by unfold loopStatement; infer_instance

instance : Blind r (whenStatement settings inner) := by unfold whenStatement; infer_instance

instance : Blind r emptyStatement := by unfold emptyStatement; infer_instance

instance : Blind r (statementLevel settings inner) := by
  have hkind : ∀ k : TokenKind, Blind r (match k with
      | .kwBegin => compound settings inner
      | .identifier => do if endsCall (← nextKind) then procedureCall else assignment
      | .kwIf => ifStatement inner
      | .kwWhile => whileStatement inner
      | .kwRepeat => repeatStatement settings inner
      | .kwLoop => loopStatement inner
      | .kwWhen => whenStatement settings inner
      | _ => emptyStatement) := by
    intro k
    split <;> infer_instance
  unfold statementLevel
  infer_instance

instance : Blind r (statement settings) := blind_nest fun _ _ => inferInstance

instance : Blind r (program settings) := by unfold program; infer_instance

instance : Blind r (loneStatement settings) := by unfold loneStatement; infer_instance

end

end Parser

/-! ## Runs -/

/-- Two outcomes that look the same. -/
structure Outcome.Alike (r : Resemblance) (o o' : Outcome) : Prop where
  tree : o'.tree = o.tree
  symbols : o'.symbols = o.symbols
  diagnostics : List.Forall₂ r.diagnostics o.diagnostics o'.diagnostics

/-- Texts whose grammatical tokens and whose faults look the same have outcomes that do. -/
theorem Parser.runOn_alike {p : Parser Node} [hp : Blind r p] {a b : String}
    (hrow : List.Forall₂ r.tokens ((tokensOf a).filter Cursor.isGrammatical)
      ((tokensOf b).filter Cursor.isGrammatical))
    (hfaults : List.Forall₂ r.diagnostics (lexicalDiagnostics (tokensOf a))
      (lexicalDiagnostics (tokensOf b))) :
    (p.runOn a).Alike r (p.runOn b) := by
  have hstart : (ParserState.start (tokensOf a) {}).Alike r (.start (tokensOf b) {}) :=
    ⟨Cursor.alike_ofTokens hrow, .nil, rfl⟩
  have hrun := hp.run hstart
  unfold runOn runFrom
  dsimp only
  generalize p (.start (tokensOf a) {}) = result at hrun ⊢
  generalize p (.start (tokensOf b) {}) = result' at hrun ⊢
  cases hrun with
  | ok n h => exact ⟨rfl, h.symbols, List.rel_append hfaults h.diagnostics⟩
  | error e h => exact ⟨rfl, h.symbols, List.rel_append hfaults h.diagnostics⟩

end PascalFront
