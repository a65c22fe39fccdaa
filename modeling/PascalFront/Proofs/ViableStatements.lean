-- Statements and programs that break off can be completed. What is still due in
-- a statement is made of the forms of its parts, one behind the other.
import PascalFront.Proofs.ViablePrefixes

namespace PascalFront.Parser

open ParserState ResumePoints Form

/-! ## Assignments and calls -/

theorem assignment_viable : AlwaysViable Form.assignment Parser.assignment := by
  intro s hc
  by_cases hk : s.here.kind = .identifier
  · have h := (takeName_viable hk hc).bind fun target s₁ h₁ =>
      (expectIn_viable (k := .assign) beforeAssign .missingAssign h₁.clean).bind fun _ s₂ h₂ =>
        (expression_viable s₂ h₂.clean).map fun value =>
          Node.statement .assign s.here.position.line [.var target, value]
    refine (h.mono ?_).of_eq ?_
    · rintro _ rest ⟨_, ⟨t, ht, rfl⟩, _, ⟨u, hu, rfl⟩, e, he⟩
      exact ⟨_, e, .intro ht hu he⟩
    · simp only [Parser.assignment, here_bind, if_pos hk]
  · by_cases hend : s.here.isEnd = true
    · refine viable_of_flag .unexpectedEnd hc ?_
      simp only [Parser.assignment, here_bind, if_neg hk, if_pos hend]
      exact Steps.refl _
    · refine viable_of_flag .missingIdentifier hc ?_
      simp only [Parser.assignment, here_bind, if_neg hk, if_neg hend]
      exact Steps.refl _

theorem arguments_viable : AlwaysViable Form.arguments.optional Parser.arguments := by
  intro s hc
  have htail (args : List Node) : AlwaysViable (Tail (· = .comma) (phrase .expression))
      (loop argumentTurn args) := by
    have hcons (ts rest : List Token) : ((token .comma).andThen (phrase .expression)) ts rest →
        Tail (· = .comma) (phrase .expression) ts rest := by
      rintro ⟨_, ⟨t, ht, rfl⟩, h⟩
      exact .cons ht h .nil
    refine loop_viable (T := (token .comma).andThen (phrase .expression)) argumentTurn_progressive
      ?_ ?_ args
    · rintro _ rest ⟨_, ⟨_, ⟨t, ht, rfl⟩, h⟩, h'⟩
      exact .cons ht h h'
    · intro args s hc
      by_cases hk : s.kind = .comma
      · refine viableTurn_of_viable (fun arg => args ++ [arg])
          ((advance_viable hk (by decide) hc).bind (f := fun _ => expression) fun _ s₁ h₁ =>
            expression_viable s₁ h₁.clean) ?_ hcons
        rw [argumentTurn, accept_bind_of_kind hk, bind_assoc]
        rfl
      · refine .done ?_ .nil
        rw [argumentTurn, accept_bind_of_ne hk]
        rfl
  by_cases hk : s.kind = .rightParen
  · refine .clean [] s ⟨?_, hc⟩ (Or.inl rfl)
    simp only [Parser.arguments, kind_bind, if_pos hk]
    rfl
  · have h := (expression_viable s hc).bind fun first s₁ h₁ => htail [first] s₁ h₁.clean
    refine (h.mono ?_).of_eq ?_
    · rintro ts rest ⟨mid, ⟨e, he⟩, h⟩
      refine Or.inr ?_
      induction h generalizing ts e with
      | nil => exact ⟨_, .last he⟩
      | cons ht hitem _ ih =>
        obtain ⟨e', he'⟩ := hitem
        obtain ⟨es, hes⟩ := ih _ e' he'
        exact ⟨_, .more he ht hes⟩
    · simp only [Parser.arguments, kind_bind, if_neg hk]

theorem procedureCall_viable {s : ParserState} (hk : s.kind = .identifier) (hc : s.Clean) :
    Viable Form.statement procedureCall s := by
  have h := (takeName_viable hk hc).bind
    (M := ((token .leftParen).andThen
      (Form.arguments.optional.andThen (token .rightParen))).optional)
    (f := fun id => do
      if ← accept .leftParen then
        let args ← Parser.arguments
        expect .rightParen .missingRightParen
        return {
          kind := .call, line := some s.line, id := some id
          children := [.statement .parameters s.line args] : Node }
      else return { kind := .call, line := some s.line, id := some id : Node })
    fun id s₁ h₁ => accept_bind_viable (by decide) h₁.clean
      ((arguments_viable s₁.advance h₁.clean).bind fun args s₂ h₂ =>
        (expect_viable (k := .rightParen) .missingRightParen h₂.clean).map _)
      (fun _ => .clean _ s₁ ⟨rfl, h₁.clean⟩ (Or.inl rfl)) fun _ _ h => Or.inr h
  refine (h.mono ?_).of_eq rfl
  rintro _ rest ⟨_, ⟨t, ht, rfl⟩, rfl | ⟨_, ⟨u, hu, rfl⟩, _, rfl | ⟨es, hes⟩, v, hv, rfl⟩⟩
  · exact ⟨_, .call ht⟩
  · exact ⟨_, .callEmpty ht hu hv⟩
  · exact ⟨_, .callWith ht hu hes hv⟩

/-! ## Lists -/

section

variable {inner : Parser Node} (settings : Settings)

/-- What a turn of a statement list does behind a statement without a diagnostic. -/
theorem listTurn_behind {closer : TokenKind} {s s₁ : ParserState} {node : Node} (nodes : List Node)
    (hopen : ¬(s.kind = closer ∨ s.kind = .endOfFile)) (hr : CleanRun inner s node s₁) :
    listTurn settings inner closer nodes s =
      if s₁.kind = .semicolon then .ok (some (nodes ++ [node])) s₁.advance
      else if statementStart.contains s₁.kind = true then
        .ok (some (nodes ++ [node])) (s₁.flag .missingSemicolon)
      else if s₁.kind ≠ closer ∧ s₁.kind ≠ .endOfFile then
        .ok (some (nodes ++ [node])) (s₁.flag .unexpectedToken).advance
      else .ok (some (nodes ++ [node])) s₁ := by
  have hlimit : checkLimit settings s₁ = .ok () s₁ := by
    have hcount : s₁.errorCount = 0 := by
      simp [errorCount, show s₁.diagnostics = #[] from hr.clean]
    unfold checkLimit
    rw [hcount, if_neg (Nat.not_lt_zero _)]
  unfold listTurn
  dsimp only
  rw [kind_bind, if_neg hopen, bind_apply, hr.run]
  dsimp only
  rw [bind_apply, hlimit]
  by_cases hk : s₁.kind = .semicolon
  · rw [if_pos hk]
    dsimp only
    rw [accept_bind_of_kind hk]
    rfl
  · rw [if_neg hk]
    dsimp only
    rw [accept_bind_of_ne hk]
    simp only [Bool.not_false, if_true, kind_bind]
    split
    · rfl
    · split <;> rfl

variable [Stepwise inner]

theorem listTurn_viable (hv : AlwaysViable Form.statement inner) (closer : TokenKind)
    (nodes : List Node) {s : ParserState} (hc : s.Clean) :
    ViableTurn (Form.statement.andThen (token .semicolon)) Form.statements
      (listTurn settings inner closer) nodes s := by
  by_cases hclosed : s.kind = closer ∨ s.kind = .endOfFile
  · exact .done (listTurn_closed settings nodes hclosed) ⟨_, .last .empty⟩
  · cases hv s hc with
    | stops taken more hstop hmore =>
      obtain ⟨m, cause, hm, hsteps, hu, hflag⟩ := hstop
      refine .stops taken more ⟨m, cause, hm, hsteps, hu, ?_⟩ (hmore.mono ?_)
      · unfold listTurn
        dsimp only
        rw [kind_bind, if_neg hclosed]
        exact hflag.trans stateBehind_bind
      · rintro ts rest ⟨x, hx⟩
        exact ⟨_, .last hx⟩
    | clean node s₁ hr hphrase =>
      have hturn := listTurn_behind settings nodes hclosed hr
      -- Behind a whole statement the list can always end.
      obtain ⟨w, hw, hmove⟩ := Movable.move hphrase
      have hmore : Completes Form.statements w [] := by
        refine ⟨by simp [Proper], fun rest hrest => ⟨?_, hrest⟩⟩
        obtain ⟨x, hx⟩ := hmove rest (replaces_of_mild hrest)
        exact ⟨_, .last hx⟩
      have hstop (cause : Cause) {r : EStateM.Result Failure ParserState (Option (List Node))}
          (hr' : listTurn settings inner closer nodes s = r)
          (hflag : (s₁.flag cause).Steps (stateBehind r)) :
          StopsBehind (listTurn settings inner closer nodes) s w :=
        ⟨s₁, cause, hr.clean, Stepwise.ok hr.run, hw, hr' ▸ hflag⟩
      split at hturn
      · rename_i hk
        refine .again _ s₁.advance ⟨hturn, hr.clean⟩ ⟨_, hphrase, s₁.here, hk, ?_⟩
        exact upcoming_advance (atEnd_of_kind hk (by decide))
      · split at hturn
        · exact .stops w [] (hstop .missingSemicolon hturn (Steps.refl _)) hmore
        · split at hturn
          · exact .stops w [] (hstop .unexpectedToken hturn (steps_advance _)) hmore
          · rename_i hend
            refine .last _ s₁ ⟨hturn, hr.clean⟩ (listTurn_closed settings _ ?_) ?_
            · by_contra h
              exact hend (not_or.mp h)
            · obtain ⟨x, hx⟩ := hphrase
              exact ⟨_, .last hx⟩

theorem listLoop_viable (hi : IsStatementParser inner) (hv : AlwaysViable Form.statement inner)
    (closer : TokenKind) (nodes : List Node) :
    AlwaysViable Form.statements (loop (listTurn settings inner closer) nodes) := by
  refine loop_viable (listTurn_progressive settings hi closer) ?_
    (fun nodes s hc => listTurn_viable settings hv closer nodes hc) nodes
  rintro ts rest ⟨_, ⟨mid, ⟨x, hx⟩, t, ht, rfl⟩, xs, hxs⟩
  exact ⟨_, .more hx ht hxs⟩

theorem statementList_viable (hi : IsStatementParser inner)
    (hv : AlwaysViable Form.statement inner) (closer : TokenKind) (missing : Cause)
    [Plain closer] : AlwaysViable (Form.statements.andThen (token closer))
      (statementList settings inner closer missing) := fun s hc =>
  (listLoop_viable settings hi hv closer [] s hc).bind fun nodes _ h₁ =>
    (expect_viable (k := closer) missing h₁.clean).map fun _ => nodes

/-! ## Statements in statements -/

variable {s : ParserState}

theorem compound_viable (hi : IsStatementParser inner) (hv : AlwaysViable Form.statement inner)
    (hk : s.kind = .kwBegin) (hc : s.Clean) :
    Viable ((token .kwBegin).andThen (Form.statements.andThen (token .kwEnd)))
      (compound settings inner) s := by
  have h := (advance_viable hk (by decide) hc).bind fun _ s₁ h₁ =>
    (statementList_viable settings hi hv .kwEnd .missingEnd s₁ h₁.clean).map
      (Node.statement .compound s.line)
  exact h.of_eq rfl

theorem ifStatement_viable (hv : AlwaysViable Form.statement inner) (hk : s.kind = .kwIf)
    (hc : s.Clean) : Viable Form.statement (ifStatement inner) s := by
  -- Without an ELSE, none may follow.
  let tail : Form := fun ts rest =>
    ts = rest ∧ kindAhead rest ≠ .kwElse ∨ ((token .kwElse).andThen Form.statement) ts rest
  have htail : Completable tail := completable_nil fun rest hrest => by
    refine Or.inl ⟨rfl, fun hk => ?_⟩
    rw [hk] at hrest
    cases hrest
  have h := (advance_viable hk (by decide) hc).bind fun _ s₁ h₁ =>
    (expression_viable s₁ h₁.clean).bind fun condition s₂ h₂ =>
      (expectIn_viable (k := .kwThen) beforeThen .missingThen h₂.clean).bind fun _ s₃ h₃ =>
        (hv s₃ h₃.clean).bind
          (M := tail) (f := fun yes => do
            if ← accept .kwElse then
              return Node.statement .branch s.line [condition, yes, ← inner]
            else return Node.statement .branch s.line [condition, yes])
          fun yes s₄ h₄ => accept_bind_viable (by decide) h₄.clean
            ((hv s₄.advance h₄.clean).map fun no =>
              Node.statement .branch s.line [condition, yes, no])
            (fun hno => .clean _ s₄ ⟨rfl, h₄.clean⟩ (Or.inl ⟨rfl, kind_eq_ahead s₄ ▸ hno⟩))
            fun _ _ h => Or.inr h
  refine (h.mono ?_).of_eq rfl
  rintro _ rest ⟨_, ⟨t, ht, rfl⟩, _, ⟨e, he⟩, _, ⟨u, hu, rfl⟩, _, ⟨x, hx⟩, htail⟩
  rcases htail with ⟨rfl, hno⟩ | ⟨_, ⟨v, hv, rfl⟩, y, hy⟩
  · exact ⟨_, .ifThen ht he hu hx hno⟩
  · exact ⟨_, .ifElse ht he hu hx hv hy⟩

theorem whileStatement_viable (hv : AlwaysViable Form.statement inner) (hk : s.kind = .kwWhile)
    (hc : s.Clean) : Viable Form.statement (whileStatement inner) s := by
  have h := (advance_viable hk (by decide) hc).bind fun _ s₁ h₁ =>
    (expression_viable s₁ h₁.clean).bind fun condition s₂ h₂ =>
      (expectIn_viable (k := .kwDo) beforeDo .missingDo h₂.clean).bind fun _ s₃ h₃ =>
        (hv s₃ h₃.clean).map fun body =>
          Node.statement .loop s.line [.statement .test s.line [condition], body]
  refine (h.mono ?_).of_eq rfl
  rintro _ rest ⟨_, ⟨t, ht, rfl⟩, _, ⟨e, he⟩, _, ⟨u, hu, rfl⟩, x, hx⟩
  exact ⟨_, .whileDo ht he hu hx⟩

theorem repeatStatement_viable (hi : IsStatementParser inner)
    (hv : AlwaysViable Form.statement inner) (hk : s.kind = .kwRepeat) (hc : s.Clean) :
    Viable Form.statement (repeatStatement settings inner) s := by
  have h := (advance_viable hk (by decide) hc).bind fun _ s₁ h₁ =>
    (statementList_viable settings hi hv .kwUntil .missingUntil s₁ h₁.clean).bind
      (M := phrase .expression) (f := fun nodes => do
        let testLine ← line
        let condition ← expression
        return Node.statement .loop s.line
          (nodes ++ [.statement .test testLine [.operator .not [condition]]]))
      fun nodes s₂ h₂ => ((expression_viable s₂ h₂.clean).map _).of_eq (line_bind _ s₂)
  refine (h.mono ?_).of_eq rfl
  rintro _ rest ⟨_, ⟨t, ht, rfl⟩, _, ⟨_, ⟨xs, hxs⟩, u, hu, rfl⟩, e, he⟩
  exact ⟨_, .repeatUntil ht hxs hu he⟩

/-- The condition of a LOOP with the semicolon in front of it, which may only be left out where no
sign comes next. -/
def nextCondition : Form := fun ts rest => ∃ mid, OptionalSemicolon ts mid ∧
  (mid = ts → kindAhead mid ≠ .plus ∧ kindAhead mid ≠ .minus) ∧ phrase .expression mid rest

instance : Movable nextCondition where
  move := by
    rintro ts rest ⟨mid, hskip, hsign, e, he⟩
    obtain ⟨w, rfl, hw⟩ := optionalSemicolon_moves hskip
    obtain ⟨w', rfl, hw'⟩ := phrase_moves he
    refine ⟨w ++ w', by simp, fun rest' _ => ⟨w' ++ rest', ?_, ?_, e, hw' rest'⟩⟩
    · rw [List.append_assoc]
      exact hw _
    · rw [List.append_assoc]
      exact keepsSign he hsign rest'

instance : Completable nextCondition :=
  completable_mono (L := token .identifier) (by
    rintro _ rest ⟨t, ht, rfl⟩
    refine ⟨_, .absent, fun _ => ?_, phrase_name .expression ht⟩
    rw [kindAhead_cons, ht]
    decide)

theorem nextCondition_viable (hsum : sum? s.kind = none) (hc : s.Clean) :
    Viable nextCondition (do let _ ← accept .semicolon; expression) s := by
  refine accept_bind_viable (by decide) hc (expression_viable s.advance hc) (fun _ => ?_) ?_
  · refine (expression_viable s hc).mono_at fun ts rest hts h => ⟨ts, .absent, fun _ => ?_, h⟩
    rcases hts with hts | hts
    · rw [hts]
      constructor <;> intro hk <;> rw [hk] at hsum <;> cases hsum
    · constructor <;> intro hk <;> rw [hk] at hts <;> cases hts
  · rintro _ rest ⟨_, ⟨t, ht, rfl⟩, h⟩
    exact ⟨_, .present ht, fun hsame => absurd hsame.symm (List.cons_ne_self _ _), h⟩

/-- The header of a LOOP behind its parenthesis, and the body. -/
abbrev loopForm : Form :=
  Form.assignment.andThen (nextCondition.andThen (optionalSemicolon.andThen
    (Form.assignment.andThen ((token .rightParen).andThen
      ((token .kwDo).andThen Form.statement)))))

theorem loopHeader_viable (hv : AlwaysViable Form.statement inner) (line : Nat) (hc : s.Clean) :
    Viable loopForm (do
      let initial ← Parser.assignment
      let _ ← accept .semicolon
      let condition ← expression
      let _ ← accept .semicolon
      let update ← Parser.assignment
      expectIn beforeRightParen .rightParen .missingRightParen
      expectIn beforeDo .kwDo .missingDo
      let body ← inner
      return Node.statement .compound line
        [initial,
          .statement .loop line
            [.statement .test line [condition], body, { update with line := some line }]]) s := by
  refine (assignment_viable s hc).bind fun initial s₁ h₁ => ?_
  have hcondition := (nextCondition_viable (assignment_passes h₁).2 h₁.clean).bind
    fun condition s₂ h₂ => (optionalSemicolon_viable h₂.clean).bind fun _ s₃ h₃ =>
      (assignment_viable s₃ h₃.clean).bind fun update s₄ h₄ =>
        (expectIn_viable (k := .rightParen) beforeRightParen .missingRightParen h₄.clean).bind
          fun _ s₅ h₅ => (expectIn_viable (k := .kwDo) beforeDo .missingDo h₅.clean).bind
            fun _ s₆ h₆ => (hv s₆ h₆.clean).map fun body => Node.statement .compound line
              [initial, .statement .loop line
                [.statement .test line [condition], body, { update with line := some line }]]
  exact hcondition.of_eq (by rw [bind_assoc])

theorem loopStatement_viable (hv : AlwaysViable Form.statement inner) (hk : s.kind = .kwLoop)
    (hc : s.Clean) : Viable Form.statement (loopStatement inner) s := by
  have h := (advance_viable hk (by decide) hc).bind fun _ s₁ h₁ =>
    (expect_viable (k := .leftParen) .missingLeftParen h₁.clean).bind fun _ s₂ h₂ =>
      (loopHeader_viable hv s₂.line h₂.clean).of_eq (line_bind (fun line => do
        let initial ← Parser.assignment
        let _ ← accept .semicolon
        let condition ← expression
        let _ ← accept .semicolon
        let update ← Parser.assignment
        expectIn beforeRightParen .rightParen .missingRightParen
        expectIn beforeDo .kwDo .missingDo
        let body ← inner
        return Node.statement .compound line
          [initial, .statement .loop line
            [.statement .test line [condition], body, { update with line := some line }]]) s₂)
  refine (h.mono ?_).of_eq rfl
  rintro _ rest ⟨_, ⟨t, ht, rfl⟩, _, ⟨u, hu, rfl⟩, _, ⟨counter, first, hfirst⟩, _,
    ⟨_, hskip, hsign, condition, hcond⟩, _, hskip', _, ⟨target, next, hnext⟩, _, ⟨v, hv, rfl⟩, _,
    ⟨w, hw, rfl⟩, x, hx⟩
  exact ⟨_, .loop ht hu hfirst hskip hsign hcond hskip' hnext hv hw hx⟩

/-- The later two branches of a WHEN. -/
theorem laterBranches_viable (hv : AlwaysViable Form.statement inner)
    (g : Nat → Node → Node → Node) (hc : s.Clean) :
    Viable (optionalSemicolon.andThen ((token .kwEqual0).andThen (Form.statement.andThen
        (optionalSemicolon.andThen ((token .kwGreaterThan0).andThen Form.statement)))))
      (do
        let _ ← accept .semicolon
        resumeAt beforeEqual0
        let zeroLine ← line
        expect .kwEqual0 .missingEqual0
        let zero ← inner
        let _ ← accept .semicolon
        expectIn beforeGreaterThan0 .kwGreaterThan0 .missingGreaterThan0
        let positive ← inner
        return g zeroLine zero positive) s := by
  refine (optionalSemicolon_viable hc).bind fun _ s₁ h₁ => resumeAt_bind_viable h₁.clean ?_
  have h := (expect_viable (k := .kwEqual0) .missingEqual0 h₁.clean).bind fun _ s₂ h₂ =>
    (hv s₂ h₂.clean).bind fun zero s₃ h₃ =>
      (optionalSemicolon_viable h₃.clean).bind fun _ s₄ h₄ =>
        (expectIn_viable (k := .kwGreaterThan0) beforeGreaterThan0 .missingGreaterThan0
          h₄.clean).bind fun _ s₅ h₅ => (hv s₅ h₅.clean).map (g s₁.line zero)
  exact h.of_eq rfl

/-- The branches of a WHEN, behind its expression. -/
theorem branches_viable (hv : AlwaysViable Form.statement inner)
    (g : SymbolId → Node → Nat → Node → Node → Node) (name : String) (valueLine : Nat)
    (hc : s.Clean) :
    Viable ((token .kwLessThan0).andThen (Form.statement.andThen
        (optionalSemicolon.andThen ((token .kwEqual0).andThen (Form.statement.andThen
          (optionalSemicolon.andThen ((token .kwGreaterThan0).andThen Form.statement)))))))
      (do
        let hidden ← enter name valueLine
        expectIn beforeLessThan0 .kwLessThan0 .missingLessThan0
        let negative ← inner
        let _ ← accept .semicolon
        resumeAt beforeEqual0
        let zeroLine ← line
        expect .kwEqual0 .missingEqual0
        let zero ← inner
        let _ ← accept .semicolon
        expectIn beforeGreaterThan0 .kwGreaterThan0 .missingGreaterThan0
        let positive ← inner
        return g hidden negative zeroLine zero positive) s := by
  -- Entering the hidden variable passes nothing.
  have hentered : (s.enter name valueLine).2.Clean := hc
  have h := (expectIn_viable (k := .kwLessThan0) beforeLessThan0 .missingLessThan0 hentered).bind
    fun _ s₁ h₁ => (hv s₁ h₁.clean).bind fun negative s₂ h₂ =>
      laterBranches_viable hv (g (s.enter name valueLine).1 negative) h₂.clean
  exact h.after (Step.enter s name valueLine).steps rfl rfl

theorem whenStatement_viable (hv : AlwaysViable Form.statement inner) (hk : s.kind = .kwWhen)
    (hc : s.Clean) : Viable Form.statement (whenStatement settings inner) s := by
  let node (value : Node) (valueLine : Nat) (hidden : SymbolId) (negative : Node) (zeroLine : Nat)
      (zero positive : Node) : Node :=
    .statement .compound s.line
      [.statement .assign valueLine [.var hidden, value],
        .statement .branch s.line
          [againstZero .lt hidden, negative,
            .statement .branch zeroLine [againstZero .eq hidden, zero, positive]]]
  have h := (advance_viable hk (by decide) hc).bind fun _ s₁ h₁ =>
    Viable.of_eq ((expression_viable s₁ h₁.clean).bind fun value s₂ h₂ =>
      branches_viable hv (node value s₁.line) (settings.whenName s₁.line) s₁.line h₂.clean)
      (line_bind (fun valueLine => do
        let value ← expression
        let hidden ← enter (settings.whenName valueLine) valueLine
        expectIn beforeLessThan0 .kwLessThan0 .missingLessThan0
        let negative ← inner
        let _ ← accept .semicolon
        resumeAt beforeEqual0
        let zeroLine ← line
        expect .kwEqual0 .missingEqual0
        let zero ← inner
        let _ ← accept .semicolon
        expectIn beforeGreaterThan0 .kwGreaterThan0 .missingGreaterThan0
        let positive ← inner
        return node value valueLine hidden negative zeroLine zero positive) s₁)
  refine (h.mono ?_).of_eq rfl
  rintro _ rest ⟨_, ⟨t, ht, rfl⟩, _, ⟨e, he⟩, _, ⟨u, hu, rfl⟩, _, ⟨x, hx⟩, _, hskip, _,
    ⟨v, hv, rfl⟩, _, ⟨y, hy⟩, _, hskip', _, ⟨w, hw, rfl⟩, z, hz⟩
  exact ⟨_, .when ht he hu hx hskip hv hy hskip' hw hz⟩

theorem statementLevel_viable (hi : IsStatementParser inner)
    (hv : AlwaysViable Form.statement inner) :
    AlwaysViable Form.statement (statementLevel settings inner) := by
  intro s hc
  by_cases hopen : s.kind ∈ statementOpeners
  · simp only [statementOpeners, List.mem_cons, List.not_mem_nil, or_false] at hopen
    rcases hopen with hk | hk | hk | hk | hk | hk | hk
    · refine ((compound_viable settings hi hv hk hc).mono ?_).of_eq
        (by simp only [statementLevel, kind_bind, hk])
      rintro _ rest ⟨_, ⟨t, ht, rfl⟩, _, ⟨xs, hxs⟩, u, hu, rfl⟩
      exact ⟨_, .block ht hxs hu⟩
    · have hname (b : Bool) :
          Viable Form.statement (if b then procedureCall else Parser.assignment) s := by
        cases b
        · refine (assignment_viable s hc).mono ?_
          rintro ts rest ⟨target, value, h⟩
          exact ⟨_, .assign h⟩
        · exact procedureCall_viable hk hc
      exact (hname (endsCall s.cursor.second.kind)).of_eq
        (by simp only [statementLevel, kind_bind, hk, nextKind_bind])
    · exact (ifStatement_viable hv hk hc).of_eq (by simp only [statementLevel, kind_bind, hk])
    · exact (whileStatement_viable hv hk hc).of_eq (by simp only [statementLevel, kind_bind, hk])
    · exact (repeatStatement_viable settings hi hv hk hc).of_eq
        (by simp only [statementLevel, kind_bind, hk])
    · exact (loopStatement_viable hv hk hc).of_eq (by simp only [statementLevel, kind_bind, hk])
    · exact (whenStatement_viable settings hv hk hc).of_eq
        (by simp only [statementLevel, kind_bind, hk])
  · exact .clean _ s ⟨statementLevel_of_not_opener settings hopen, hc⟩ ⟨_, .empty⟩

end

theorem statement_viable (settings : Settings) :
    AlwaysViable Form.statement (Parser.statement settings) := by
  intro s hc
  refine (statement_induction settings
    (R := fun s r => s.Clean → Viable Form.statement (fun _ => r) s) ?_ ?_ s hc).of_eq rfl
  · exact fun s hc => viable_of_flag .unexpectedEnd hc (Steps.refl _)
  · exact fun inner _ hi hv s hc =>
      (statementLevel_viable settings hi (fun s hc => (hv s hc).of_eq rfl) s hc).of_eq rfl

/-! ## Programs -/

/-- Whole programs, in front of the token for the end. -/
def programForm : Form := fun ts rest =>
  ∀ stop, rest = [stop] → stop.isEnd = true → ∃ p, IsProgram ts p

theorem program_viable (settings : Settings) : AlwaysViable programForm (program settings) := by
  have hi := statement_isStatementParser settings
  have hv := statement_viable settings
  intro s hc
  by_cases hk : s.kind = .kwBegin
  · have h := (compound_viable settings hi hv hk hc).bind fun root s₁ h₁ =>
      (expect_viable (k := .dot) .missingPeriod h₁.clean).bind (M := nothing)
        (f := fun _ => do
          if (← kind) ≠ .endOfFile then flag .unexpectedToken
          return root)
        fun _ s₂ h₂ => by
          by_cases hend : s₂.kind = .endOfFile
          · refine .clean root s₂ ⟨?_, h₂.clean⟩ rfl
            rw [kind_bind, if_neg (not_not.mpr hend)]
            rfl
          · refine viable_of_flag .unexpectedToken h₂.clean ?_
            rw [kind_bind, if_pos hend]
            exact Steps.refl _
    refine (h.mono ?_).of_eq (by simp only [program, kind_bind, if_pos hk])
    rintro _ _ ⟨_, ⟨_, ⟨t, ht, rfl⟩, _, ⟨xs, hxs⟩, u, hu, rfl⟩, _, ⟨v, hv, rfl⟩, rfl⟩ stop rfl hstop
    exact ⟨_, .block ht hxs hu hv hstop⟩
  · have hclose (s₁ : ParserState) (hc₁ : s₁.Clean) :
        Viable nothing (expect .endOfFile .unexpectedEnd) s₁ := by
      by_cases hend : s₁.kind = .endOfFile
      · refine .clean () s₁ ⟨?_, hc₁⟩ rfl
        unfold expect ParserState.advance
        rw [if_pos hend, Cursor.advance_of_atEnd (by rw [atEnd_eq, hend]; rfl)]
      · refine viable_of_flag .unexpectedEnd hc₁ ?_
        unfold expect
        rw [if_neg hend]
        exact Steps.refl _
    have h := (listLoop_viable settings hi hv .endOfFile [] s hc).bind fun nodes s₁ h₁ =>
      (hclose s₁ h₁.clean).map fun _ => nodes
    refine ((h.map (Node.statement .compound s.line)).mono_at ?_).of_eq ?_
    · rintro ts _ hts ⟨_, ⟨xs, hxs⟩, rfl⟩ stop rfl hstop
      refine ⟨_, .bare ?_ hxs hstop⟩
      intro hbegin
      rw [hbegin] at hts
      rcases hts with hts | hts
      · exact hk hts.symm
      · cases hts
    · simp only [program, kind_bind, if_neg hk]
      rfl

end PascalFront.Parser
