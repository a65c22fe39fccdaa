-- A run beside another one. The second run is in front of the same tokens up to
-- some place, and it may have noted something that the first one has not. As
-- long as the first run notes nothing and does not go past that place, the second
-- one gives the same results.
import PascalFront.Proofs.CleanRuns
import PascalFront.Proofs.Lockstep

namespace PascalFront.Parser

open ParserState ResumePoints

/-- What sets a run apart from the run beside it: what it has noted before, and what comes behind
the tokens that both of them have ahead. -/
structure Detour (settings : Settings) where
  noted : Array Diagnostic
  tail : List Token
  tail' : List Token
  /-- What is noted does not end the run. -/
  limit : noted.size ≤ settings.maxErrors

/-- Two states with the same tokens ahead up to the place where the rows part. The last of these
tokens is no identifier: behind one, a parser would look further. -/
structure Beside {settings : Settings} (d : Detour settings) (s u : ParserState) : Prop where
  rows : ∃ mid last, last.kind ≠ .identifier ∧ s.upcoming = mid ++ last :: d.tail ∧
    u.upcoming = mid ++ last :: d.tail'
  symbols : u.symbols = s.symbols
  clean : s.Clean
  noted : u.diagnostics = d.noted

theorem length_upcoming (s : ParserState) : s.upcoming.length = s.left + 1 := by
  simp [upcoming, Cursor.upcoming, left]

theorem length_upcoming_le {s v : ParserState} (h : v.left < s.left) :
    v.upcoming.length ≤ s.left := by
  rw [length_upcoming]
  exact h

namespace Beside

variable {settings : Settings} {d : Detour settings} {s u : ParserState}

theorem here (h : Beside d s u) : u.here = s.here := by
  obtain ⟨mid, last, -, hs, hu⟩ := h.rows
  have hs' : s.upcoming.head? = some s.here := Cursor.head?_upcoming s.cursor
  have hu' : u.upcoming.head? = some u.here := Cursor.head?_upcoming u.cursor
  rw [hs] at hs'
  rw [hu] at hu'
  cases mid with
  | nil => exact Option.some.inj (hu'.symm.trans hs')
  | cons t mid => exact Option.some.inj (hu'.symm.trans hs')

theorem kind (h : Beside d s u) : u.kind = s.kind := congrArg Token.kind h.here

theorem line (h : Beside d s u) : u.line = s.line :=
  congrArg (fun t : Token => t.position.line) h.here

theorem atEnd (h : Beside d s u) : u.cursor.atEnd = s.cursor.atEnd := congrArg Token.isEnd h.here

/-- One token further, when that does not pass the last of the common tokens. -/
theorem advance (h : Beside d s u) (hleft : d.tail.length ≤ s.advance.left) :
    Beside d s.advance u.advance := by
  cases hend : s.cursor.atEnd with
  | true =>
    unfold ParserState.advance
    rw [Cursor.advance_of_atEnd hend, Cursor.advance_of_atEnd (h.atEnd.trans hend)]
    exact h
  | false =>
    obtain ⟨mid, last, hlast, hs, hu⟩ := h.rows
    have hs' : s.upcoming = s.here :: s.advance.upcoming := Cursor.upcoming_eq_cons hend
    have hu' : u.upcoming = u.here :: u.advance.upcoming :=
      Cursor.upcoming_eq_cons (h.atEnd.trans hend)
    rw [hs'] at hs
    rw [hu'] at hu
    cases mid with
    | nil =>
      have hlength := congrArg List.length (List.cons.inj hs).2
      rw [length_upcoming] at hlength
      omega
    | cons t mid =>
      exact ⟨⟨mid, last, hlast, (List.cons.inj hs).2, (List.cons.inj hu).2⟩, h.symbols, h.clean,
        h.noted⟩

theorem enter (h : Beside d s u) (name : String) (line : Nat) :
    (u.enter name line).1 = (s.enter name line).1 ∧
      Beside d (s.enter name line).2 (u.enter name line).2 := by
  have henter : u.symbols.enterAt name line = s.symbols.enterAt name line := by rw [h.symbols]
  unfold ParserState.enter
  rw [henter]
  exact ⟨rfl, h.rows, rfl, h.clean, h.noted⟩

/-- Behind an identifier there is another common token. -/
theorem second (h : Beside d s u) (hk : s.kind = .identifier) :
    u.cursor.second = s.cursor.second := by
  have hend := atEnd_of_kind hk (by decide)
  obtain ⟨mid, last, hlast, hs, hu⟩ := h.rows
  have hs' : s.upcoming = s.here :: s.advance.upcoming := Cursor.upcoming_eq_cons hend
  rw [hs'] at hs
  cases mid with
  | nil => exact absurd (congrArg Token.kind (List.cons.inj hs).1 ▸ hk) hlast
  | cons t mid =>
    have hrest : s.advance.upcoming = mid ++ last :: d.tail := (List.cons.inj hs).2
    have hleft : d.tail.length ≤ s.advance.left := by
      have hlength := congrArg List.length hrest
      rw [length_upcoming, List.length_append, List.length_cons] at hlength
      omega
    rw [Cursor.second_eq_here_advance hend, Cursor.second_eq_here_advance (h.atEnd.trans hend)]
    exact (h.advance hleft).here

end Beside

/-! ## Parsers that do the same beside -/

/-- A parser that gives the same beside a run which notes nothing and does not leave the common
tokens. -/
class Follows {settings : Settings} (d : Detour settings) (p : Parser α) : Prop where
  stepwise : Stepwise p := by infer_instance
  run : ∀ {s s' u : ParserState} {a : α}, Beside d s u → p s = .ok a s' → s'.Clean →
    d.tail.length ≤ s'.left → ∃ u', p u = .ok a u' ∧ Beside d s' u'

section

variable {settings : Settings} {d : Detour settings}

instance (a : α) : Follows d (pure a : Parser α) where
  run h hr _ _ := by
    cases hr
    exact ⟨_, rfl, h⟩

instance {p : Parser α} {f : α → Parser β} [hp : Follows d p] [hf : ∀ a, Follows d (f a)] :
    Follows d (p >>= f) where
  stepwise := by
    have := hp.stepwise
    have (a : α) := (hf a).stepwise
    infer_instance
  run h hr hclean hleft := by
    obtain ⟨a, s₁, ha, hb⟩ := bind_eq_ok.mp hr
    have := (hf a).stepwise
    have hlater := Stepwise.ok hb
    obtain ⟨u₁, ha', h₁⟩ := hp.run h ha (hlater.before.clean hclean)
      (Nat.le_trans hleft hlater.before.left_le)
    obtain ⟨u', hb', h'⟩ := (hf a).run h₁ hb hclean hleft
    exact ⟨u', bind_eq_ok.mpr ⟨a, u₁, ha', hb'⟩, h'⟩

instance {p : Parser α} {q : Parser β} [Follows d p] [Follows d q] :
    Follows d (p >>= fun _ => q) :=
  inferInstance

instance {c : Prop} [Decidable c] {p q : Parser α} [Follows d p] [Follows d q] :
    Follows d (if c then p else q) := by
  split <;> assumption

instance : Follows d kind where
  run h hr _ _ := by
    cases hr
    exact ⟨_, congrArg (EStateM.Result.ok · _) h.kind, h⟩

instance : Follows d here where
  run h hr _ _ := by
    cases hr
    exact ⟨_, congrArg (EStateM.Result.ok · _) h.here, h⟩

instance : Follows d line where
  run h hr _ _ := by
    cases hr
    exact ⟨_, congrArg (EStateM.Result.ok · _) h.line, h⟩

theorem follows_here_bind {f : Token → Parser α} (hf : ∀ t, Follows d (f t)) :
    Follows d (here >>= f) where
  stepwise := have (t : Token) := (hf t).stepwise; inferInstance
  run {s s' u a} h hr hclean hleft := by
    rw [here_bind] at hr ⊢
    rw [h.here]
    exact (hf s.here).run h hr hclean hleft

theorem follows_kind_bind {f : TokenKind → Parser α} (hf : ∀ k, Follows d (f k)) :
    Follows d (kind >>= f) where
  stepwise := have (k : TokenKind) := (hf k).stepwise; inferInstance
  run {s s' u a} h hr hclean hleft := by
    rw [kind_bind] at hr ⊢
    rw [h.kind]
    exact (hf s.kind).run h hr hclean hleft

instance : Follows d advance where
  run h hr _ hleft := by
    cases hr
    exact ⟨_, rfl, h.advance hleft⟩

instance (k : TokenKind) : Follows d (accept k) where
  run {s s' u b} h hr _ hleft := by
    unfold accept
    rw [h.kind]
    rcases accept_eq_ok hr with ⟨rfl, hk, rfl⟩ | ⟨rfl, hk, rfl⟩
    · rw [if_pos hk]
      exact ⟨_, rfl, h.advance hleft⟩
    · rw [if_neg hk]
      exact ⟨_, rfl, h⟩

instance (cause : Cause) : Follows d (flag cause) where
  run _ hr hclean _ := by
    cases hr
    exact absurd hclean (not_clean_flag _ _)

instance : Follows d (endedEarly : Parser α) where
  run _ hr _ _ := by cases hr

instance (k : TokenKind) (missing : Cause) : Follows d (expect k missing) where
  run {s s' u b} h hr hclean hleft := by
    unfold expect
    rw [h.kind]
    rcases expect_eq_ok hr with ⟨hk, rfl⟩ | ⟨-, rfl⟩
    · rw [if_pos hk]
      exact ⟨_, rfl, h.advance hleft⟩
    · exact absurd hclean (not_clean_flag _ _)

/-- A run that notes nothing passes nothing over. -/
theorem resumeAt_of_clean {s : ParserState} {set : KindSet} (h : (s.resumeAt set).Clean) :
    (set.contains s.kind || s.cursor.atEnd) = true := by
  unfold ParserState.resumeAt at h
  by_contra hstop
  rw [if_neg hstop] at h
  exact not_clean_flag s _ h

instance (set : KindSet) : Follows d (resumeAt set) where
  run {s s' u b} h hr hclean _ := by
    cases hr
    have hstop := resumeAt_of_clean hclean
    refine ⟨u, ?_, ?_⟩
    · unfold resumeAt ParserState.resumeAt
      rw [h.kind, h.atEnd, if_pos hstop]
    · unfold ParserState.resumeAt
      rw [if_pos hstop]
      exact h

instance : Follows d (checkLimit settings) where
  run {s s' u b} h hr _ _ := by
    obtain ⟨-, rfl⟩ := checkLimit_eq_ok hr
    have hcount : ¬ settings.maxErrors < u.errorCount := by
      rw [errorCount, h.noted]
      exact Nat.not_lt.mpr d.limit
    unfold checkLimit
    rw [if_neg hcount]
    exact ⟨u, rfl, h⟩

instance (name : String) (line : Nat) : Follows d (enter name line) where
  run {s s' u b} h hr _ _ := by
    obtain ⟨hid, h'⟩ := h.enter name line
    cases hr
    exact ⟨_, congrArg (EStateM.Result.ok · _) hid, h'⟩

/-! ## Loops and recursion -/

theorem follows_loopWithin {turn : β → Parser (Option β)} [∀ b, Follows d (turn b)]
    (bound : List Token) (b : β) : Follows d (loopWithin turn bound b) :=
  loopWithin_of (K := fun p => Follows d p) (fun _ => inferInstance)
    (fun _ _ _ _ => inferInstance) (fun _ => inferInstance) bound b

/-- The bounds are the tokens that each run has left, so both are seen with a common bound first. -/
theorem follows_loop {turn : β → Parser (Option β)} [h : ∀ b, Follows d (turn b)]
    (hp : Progressive turn) (b : β) : Follows d (loop turn b) where
  stepwise := have (b : β) := (h b).stepwise; inferInstance
  run {s s' u b'} h hr hclean hleft := by
    have hcommon (v : ParserState) (hv : v.left ≤ (s.cursor.ahead ++ u.cursor.ahead).length) :
        loop turn b v = loopWithin turn (s.cursor.ahead ++ u.cursor.ahead) b v :=
      loopWithin_congr hp _ _ b v (Nat.le_refl _) hv
    rw [hcommon s (by simp [left])] at hr
    rw [hcommon u (by simp [left])]
    exact (follows_loopWithin _ b).run h hr hclean hleft

theorem follows_nest {last : Parser α} {level : Parser α → Parser α} [Stepwise last]
    (hg : Guarded level) (hlevel : ∀ p, Stepwise p → Stepwise (level p)) {K : Parser α → Prop}
    (hlast : K endedEarly) (hkeep : ∀ p, Stepwise p → K p → K (level p))
    (h : ∀ p, Stepwise p → K p → Follows d p → Follows d (level p)) :
    Follows d (nest last level) where
  stepwise := steps_nest hlevel
  run {s s' u a} hsu hr hclean hleft := by
    have within (bound : List Token) : K (nestWithin endedEarly level bound) ∧
        Follows d (nestWithin endedEarly level bound) := by
      induction bound with
      | nil => exact ⟨hkeep _ inferInstance hlast, h _ inferInstance hlast inferInstance⟩
      | cons t bound ih =>
        have hsteps : Stepwise (nestWithin endedEarly level bound) :=
          steps_nestWithin hlevel bound
        exact ⟨hkeep _ hsteps ih.1, h _ hsteps ih.1 ih.2⟩
    have hcommon (v : ParserState) (hv : v.left ≤ (s.cursor.ahead ++ u.cursor.ahead).length) :
        nest last level v = nestWithin endedEarly level (s.cursor.ahead ++ u.cursor.ahead) v :=
      nest_eq_nestWithin hg hlevel hv
    rw [hcommon s (by simp [left])] at hr
    rw [hcommon u (by simp [left])]
    exact (within _).2.run hsu hr hclean hleft

/-! ## The parsers of the language -/

section

instance (set : KindSet) (k : TokenKind) (missing : Cause) :
    Follows d (expectIn set k missing) := by
  unfold expectIn; infer_instance

instance : Follows d takeName := by unfold takeName; infer_instance

instance : Follows d noOperand := by unfold noOperand; infer_instance

instance (n : Node) : Follows d (constant n) := by unfold constant; infer_instance

variable {inner : Parser Node} [hinner : Follows d inner]

instance : Follows d (operand inner) := by
  have hkind (t : Token) : Follows d (match t.kind with
      | .identifier => (do return .var (← takeName) : Parser Node)
      | .integer => constant t.integerNode
      | .real => constant t.realNode
      | .string => constant t.stringNode
      | .leftParen => do
        advance
        let n ← inner
        expect .rightParen .missingRightParen
        return n
      | .endOfFile => endedEarly
      | _ => noOperand) := by
    split <;> infer_instance
  exact follows_here_bind hkind

instance (k : Nat) : Follows d (negationTurn k) := by unfold negationTurn; infer_instance

instance : Follows d negations := follows_loop negationTurn_progressive 0

instance : Follows d (factor inner) := by unfold factor; infer_instance

instance {operator? : TokenKind → Option NodeKind} (left : Node) :
    Follows d (chainTurn operator? inner left) := by
  have hsome (o : Option NodeKind) : Follows d (match o with
      | none => pure none
      | some op => do
        advance
        return some (.binary op left (← inner)) : Parser (Option Node)) := by
    cases o <;> infer_instance
  exact follows_kind_bind fun k => hsome (operator? k)

theorem follows_chain {operator? : TokenKind → Option NodeKind} (hop : operator? .endOfFile = none)
    (first : Node) : Follows d (chain operator? inner first) := by
  have := hinner.stepwise
  exact follows_loop (chainTurn_progressive hop) first

instance : Follows d (term inner) := by
  have (first : Node) : Follows d (chain product? (factor inner) first) := follows_chain rfl first
  unfold term
  infer_instance

instance : Follows d (simpleExpression inner) := by
  have (first : Node) : Follows d (chain sum? (term inner) first) := follows_chain rfl first
  unfold simpleExpression
  infer_instance

instance : Follows d (expressionLevel inner) := by
  have hsome (left : Node) (o : Option NodeKind) : Follows d (match o with
      | none => pure left
      | some op => do
        advance
        return .binary op left (← simpleExpression inner) : Parser Node) := by
    cases o <;> infer_instance
  unfold expressionLevel
  infer_instance

end

instance : Follows d expression :=
  follows_nest expressionLevel_guarded (fun _ _ => inferInstance) (K := fun _ => True) trivial
    (fun _ _ _ => trivial) fun _ _ _ _ => inferInstance

instance : Follows d assignment := by
  have (t : Token) : Follows d (if t.kind = .identifier then do
      let target ← takeName
      expectIn beforeAssign .assign .missingAssign
      let value ← expression
      return .statement .assign t.position.line [.var target, value]
    else if t.isEnd then endedEarly
    else do
      flag .missingIdentifier
      return .statement .noOp t.position.line [] : Parser Node) := inferInstance
  exact follows_here_bind this

instance (args : List Node) : Follows d (argumentTurn args) := by
  unfold argumentTurn; infer_instance

instance : Follows d arguments := by
  have (args : List Node) : Follows d (loop argumentTurn args) :=
    follows_loop argumentTurn_progressive args
  unfold arguments
  infer_instance

instance : Follows d procedureCall := by unfold procedureCall; infer_instance

instance : Follows d emptyStatement := by unfold emptyStatement; infer_instance

instance (closer : TokenKind) : Follows d (behindItem settings closer) := by
  unfold behindItem; infer_instance

section

variable {inner : Parser Node} [hinner : Follows d inner]

instance (closer : TokenKind) (nodes : List Node) :
    Follows d (listTurn settings inner closer nodes) := by
  rw [listTurn_eq]; infer_instance

instance : Follows d (ifStatement inner) := by unfold ifStatement; infer_instance

instance : Follows d (whileStatement inner) := by unfold whileStatement; infer_instance

instance : Follows d (loopStatement inner) := by unfold loopStatement; infer_instance

instance : Follows d (whenStatement settings inner) := by unfold whenStatement; infer_instance

variable (hi : IsStatementParser inner)

include hi

theorem follows_statementList (closer : TokenKind) (missing : Cause) :
    Follows d (statementList settings inner closer missing) := by
  have (nodes : List Node) : Follows d (loop (listTurn settings inner closer) nodes) :=
    follows_loop (listTurn_progressive settings hi closer) nodes
  unfold statementList
  infer_instance

theorem follows_statementLevel : Follows d (statementLevel settings inner) where
  stepwise := have := hinner.stepwise; inferInstance
  run {s s' u n} h hr hclean hleft := by
    have := follows_statementList (d := d) hi
    have hcompound : Follows d (compound settings inner) := by unfold compound; infer_instance
    have hrepeat : Follows d (repeatStatement settings inner) := by
      unfold repeatStatement
      infer_instance
    unfold statementLevel at hr ⊢
    rw [kind_bind] at hr ⊢
    rw [h.kind]
    cases hk : s.kind <;> rw [hk] at hr <;> dsimp only at hr ⊢
    case kwBegin => exact hcompound.run h hr hclean hleft
    case identifier =>
      rw [nextKind_bind] at hr ⊢
      rw [h.second hk]
      have hnamed (b : Bool) : Follows d (if b then procedureCall else assignment) := inferInstance
      exact (hnamed _).run h hr hclean hleft
    case kwIf =>
      exact (inferInstance : Follows d (ifStatement inner)).run h hr hclean hleft
    case kwWhile =>
      exact (inferInstance : Follows d (whileStatement inner)).run h hr hclean hleft
    case kwRepeat => exact hrepeat.run h hr hclean hleft
    case kwLoop =>
      exact (inferInstance : Follows d (loopStatement inner)).run h hr hclean hleft
    case kwWhen =>
      exact (inferInstance : Follows d (whenStatement settings inner)).run h hr hclean hleft
    all_goals exact (inferInstance : Follows d emptyStatement).run h hr hclean hleft

end

instance : Follows d (statement settings) :=
  follows_nest (statementLevel_guarded settings) (fun _ _ => inferInstance) (K := IsStatementParser)
    ⟨fun _ _ _ _ h => (by cases h), fun _ _ _ _ h => (by cases h)⟩
    (fun _ _ _ => statementLevel_isStatementParser settings)
    fun _ _ hi _ => follows_statementLevel hi

end

end PascalFront.Parser
