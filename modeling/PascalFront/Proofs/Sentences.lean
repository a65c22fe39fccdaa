-- What the clean runs of statements and programs pass: sentences of the grammar
-- and nothing else.
import PascalFront.Proofs.CleanRuns

namespace PascalFront.Parser

open ParserState ResumePoints

/-! ## Where an expression stops -/

theorem chain_stops {operator? : TokenKind → Option NodeKind} {item : Parser Node} [Stepwise item]
    (hend : operator? .endOfFile = none) {first n : Node} {s s' : ParserState}
    (h : chain operator? item first s = .ok n s') : operator? s'.kind = none := by
  refine loop_induction (R := fun _ _ _ s' => operator? s'.kind = none)
    (chainTurn_progressive hend) ?_ (fun _ _ _ _ _ _ _ _ hR => hR) h
  intro left s s' ht
  rcases chainTurn_eq_ok ht with ⟨hstop, -, rfl⟩ | ⟨op, right, -, -, ho⟩
  · exact hstop
  · cases ho

theorem simpleExpression_stops {inner : Parser Node} [Stepwise inner] {s s' : ParserState}
    {n : Node} (h : simpleExpression inner s = .ok n s') : sum? s'.kind = none := by
  obtain ⟨s₀, first, s₁, -, -, hrest⟩ := simpleExpression_eq_ok h
  exact chain_stops rfl hrest

/-- No sign stands behind an expression: it would be part of it. -/
theorem expression_stops {s s' : ParserState} {n : Node} (h : expression s = .ok n s') :
    sum? s'.kind = none := by
  rw [expression_eq] at h
  obtain ⟨left, s₁, hl, hcase⟩ := expressionLevel_eq_ok h
  rcases hcase with ⟨-, -, rfl⟩ | ⟨op, right, -, hr, -⟩
  · exact simpleExpression_stops hl
  · exact simpleExpression_stops hr

/-! ## Assignments and calls -/

theorem assignment_passes {s s' : ParserState} {n : Node} (h : CleanRun assignment s n s') :
    (∃ target value, Assignment s.upcoming target value s'.upcoming) ∧ sum? s'.kind = none := by
  obtain ⟨hr, hc⟩ := h
  unfold assignment at hr
  rw [here_bind] at hr
  split at hr
  · rename_i hk
    obtain ⟨target, s₁, hname, h⟩ := cleanRun_bind ⟨hr, hc⟩
    obtain ⟨_, s₂, hassign, h⟩ := cleanRun_bind h
    obtain ⟨value, s₃, hvalue, h⟩ := cleanRun_bind h
    cases h.run
    obtain ⟨t, ht, -, hu⟩ := hname.takeName hk
    obtain ⟨u, hu', hu₁⟩ := hassign.expectIn (by decide)
    obtain ⟨e, he⟩ := expression_passes _ _ _ hvalue
    rw [hu, hu₁]
    exact ⟨⟨_, e, .intro ht hu' he⟩, expression_stops hvalue.run⟩
  · split at hr
    · cases hr
    · cases hr
      exact absurd hc (not_clean_flag s _)

theorem argumentLoop_passes {args args' : List Node} {s s' : ParserState}
    (h : CleanRun (loop argumentTurn args) s args' s') {ts : List Token} {e : Expr}
    (he : Phrase .expression ts e s.upcoming) : ∃ es, Arguments ts es s'.upcoming := by
  refine loop_induction (R := fun _ s _ s' => s'.Clean → ∀ ts e,
    Phrase .expression ts e s.upcoming → ∃ es, Arguments ts es s'.upcoming)
    argumentTurn_progressive ?_ ?_ h.run h.clean ts e he
  · intro args s s' ht _ ts e he
    rcases argumentTurn_eq_ok ht with ⟨-, rfl⟩ | ⟨arg, -, -, ho⟩
    · exact ⟨_, .last he⟩
    · cases ho
  · intro args s args₁ s₁ args' s' ht hloop ih hc ts e he
    have hc₁ : s₁.Clean := (Stepwise.ok hloop).before.clean hc
    rcases argumentTurn_eq_ok ht with ⟨ho, -⟩ | ⟨arg, hk, harg, -⟩
    · cases ho
    · obtain ⟨e', he'⟩ := expression_passes _ _ _ ⟨harg, hc₁⟩
      obtain ⟨es, hes⟩ := ih hc _ _ he'
      rw [upcoming_advance (atEnd_of_kind hk (by decide))] at he
      exact ⟨_, .more he hk hes⟩

theorem arguments_passes {s s' : ParserState} {args : List Node}
    (h : CleanRun arguments s args s') :
    s' = s ∧ s.kind = .rightParen ∨ ∃ es, Arguments s.upcoming es s'.upcoming := by
  obtain ⟨hr, hc⟩ := h
  unfold arguments at hr
  rw [kind_bind] at hr
  split at hr
  · rename_i hk
    cases hr
    exact Or.inl ⟨rfl, hk⟩
  · obtain ⟨first, s₁, hf, h⟩ := cleanRun_bind ⟨hr, hc⟩
    obtain ⟨e, he⟩ := expression_passes _ _ _ hf
    exact Or.inr (argumentLoop_passes h he)

/-- A clean run passes a statement. -/
def PassesStatement (p : Parser Node) : Prop :=
  ∀ s n s', CleanRun p s n s' → ∃ x, Statement s.upcoming x s'.upcoming

theorem procedureCall_passes {s s' : ParserState} {n : Node} (hk : s.kind = .identifier)
    (h : CleanRun procedureCall s n s') : ∃ x, Statement s.upcoming x s'.upcoming := by
  obtain ⟨hr, hc⟩ := h
  unfold procedureCall at hr
  rw [line_bind] at hr
  obtain ⟨id, s₁, hid, h⟩ := cleanRun_bind ⟨hr, hc⟩
  obtain ⟨paren, s₂, hparen, hrest⟩ := cleanRun_bind h
  obtain ⟨t, ht, -, hu⟩ := hid.takeName hk
  rw [hu]
  rcases hparen.accept (by decide) with ⟨rfl, u, hopen, hu₁⟩ | ⟨rfl, -, rfl⟩
  · obtain ⟨args, s₃, hargs, h⟩ := cleanRun_bind hrest
    obtain ⟨_, s₄, hclose, h⟩ := cleanRun_bind h
    cases h.run
    obtain ⟨v, hv, -, hu₃⟩ := hclose.expect (by decide)
    rw [hu₁]
    rcases arguments_passes hargs with ⟨rfl, -⟩ | ⟨es, hes⟩
    · rw [hu₃]
      exact ⟨_, .callEmpty ht hopen hv⟩
    · rw [hu₃] at hes
      exact ⟨_, .callWith ht hopen hes hv⟩
  · cases hrest.run
    exact ⟨_, .call ht⟩

/-! ## Lists -/

section

variable {inner : Parser Node} (settings : Settings)

theorem listLoop_closed (hi : IsStatementParser inner) {closer : TokenKind} {s : ParserState}
    (nodes : List Node) (h : s.kind = closer ∨ s.kind = .endOfFile) :
    loop (listTurn settings inner closer) nodes s = .ok nodes s := by
  rw [loop_unrolls (listTurn_progressive settings hi closer), bind_apply,
    listTurn_closed settings nodes h]
  rfl

variable [Stepwise inner]

theorem listLoop_passes (hi : IsStatementParser inner) (hp : PassesStatement inner)
    {closer : TokenKind} {nodes nodes' : List Node} {s s' : ParserState}
    (h : CleanRun (loop (listTurn settings inner closer) nodes) s nodes' s') :
    ∃ xs, Statements s.upcoming xs s'.upcoming := by
  refine loop_induction (R := fun _ s _ s' => s'.Clean →
    ∃ xs, Statements s.upcoming xs s'.upcoming) (listTurn_progressive settings hi closer)
    ?_ ?_ h.run h.clean
  · intro nodes s s' ht _
    obtain ⟨-, rfl⟩ := listTurn_eq_none settings ht
    exact ⟨_, .last .empty⟩
  · intro nodes s nodes₁ s₁ nodes' s' ht hloop ih hc
    have hc₁ : s₁.Clean := (Stepwise.ok hloop).before.clean hc
    obtain ⟨-, -, node, s₂, hnode, -, -, hcase⟩ := listTurn_eq_some settings ht
    rcases hcase with ⟨hk, rfl⟩ | ⟨-, rfl⟩ | ⟨-, hk, rfl⟩ | ⟨-, -, -, rfl⟩
    · obtain ⟨x, hx⟩ := hp _ _ _ ⟨hnode, (steps_advance s₂).before.clean hc₁⟩
      obtain ⟨xs, hxs⟩ := ih hc
      rw [upcoming_advance (atEnd_of_kind hk (by decide))] at hx
      exact ⟨x :: xs, .more hx hk hxs⟩
    · exact absurd hc₁ (not_clean_flag s₂ _)
    · obtain ⟨x, hx⟩ := hp _ _ _ ⟨hnode, hc₁⟩
      rw [listLoop_closed settings hi nodes₁ hk] at hloop
      cases hloop
      exact ⟨[x], .last hx⟩
    · exact absurd ((steps_advance _).before.clean hc₁) (not_clean_flag s₂ _)

theorem statementList_passes (hi : IsStatementParser inner) (hp : PassesStatement inner)
    {closer : TokenKind} {missing : Cause} {nodes : List Node} {s s' : ParserState}
    (hcloser : closer ≠ .endOfFile)
    (h : CleanRun (statementList settings inner closer missing) s nodes s') :
    ∃ xs t, Statements s.upcoming xs (t :: s'.upcoming) ∧ t.kind = closer := by
  obtain ⟨nodes', s₁, hloop, h⟩ := cleanRun_bind h
  obtain ⟨_, s₂, hclose, h⟩ := cleanRun_bind h
  cases h.run
  obtain ⟨xs, hxs⟩ := listLoop_passes settings hi hp hloop
  obtain ⟨t, ht, -, hu⟩ := hclose.expect hcloser
  rw [hu] at hxs
  exact ⟨xs, t, hxs, ht⟩

/-! ## Statements in statements -/

variable {s s' : ParserState} {n : Node}

theorem compound_passes (hi : IsStatementParser inner) (hp : PassesStatement inner)
    (hk : s.kind = .kwBegin) (h : CleanRun (compound settings inner) s n s') :
    ∃ t u ts xs, t.kind = .kwBegin ∧ s.upcoming = t :: ts ∧ t.line = s.line ∧
      Statements ts xs (u :: s'.upcoming) ∧ u.kind = .kwEnd := by
  obtain ⟨hr, hc⟩ := h
  unfold compound at hr
  rw [line_bind] at hr
  obtain ⟨_, s₁, hadv, h⟩ := cleanRun_bind ⟨hr, hc⟩
  obtain ⟨nodes, s₂, hnodes, h⟩ := cleanRun_bind h
  cases h.run
  obtain ⟨t, ht, hline, hu⟩ := hadv.advance hk (by decide)
  obtain ⟨xs, u, hxs, hu'⟩ := statementList_passes settings hi hp (by decide) hnodes
  exact ⟨t, u, _, xs, ht, hu, hline, hxs, hu'⟩

theorem ifStatement_passes (hp : PassesStatement inner) (hk : s.kind = .kwIf)
    (h : CleanRun (ifStatement inner) s n s') : ∃ x, Statement s.upcoming x s'.upcoming := by
  obtain ⟨hr, hc⟩ := h
  unfold ifStatement at hr
  rw [line_bind] at hr
  obtain ⟨_, s₁, hadv, h⟩ := cleanRun_bind ⟨hr, hc⟩
  obtain ⟨condition, s₂, hcond, h⟩ := cleanRun_bind h
  obtain ⟨_, s₃, hthen, h⟩ := cleanRun_bind h
  obtain ⟨yes, s₄, hyes, h⟩ := cleanRun_bind h
  obtain ⟨b, s₅, helse, hrest⟩ := cleanRun_bind h
  obtain ⟨t, ht, -, hu⟩ := hadv.advance hk (by decide)
  obtain ⟨c, hc⟩ := expression_passes _ _ _ hcond
  obtain ⟨u, hu', hu₂⟩ := hthen.expectIn (by decide)
  obtain ⟨y, hy⟩ := hp _ _ _ hyes
  rw [hu]
  rw [hu₂] at hc
  rcases helse.accept (by decide) with ⟨rfl, v, hv, hu₄⟩ | ⟨rfl, hno, rfl⟩
  · obtain ⟨no, s₆, hno, h⟩ := cleanRun_bind hrest
    cases h.run
    obtain ⟨z, hz⟩ := hp _ _ _ hno
    rw [hu₄] at hy
    exact ⟨_, .ifElse ht hc hu' hy hv hz⟩
  · cases hrest.run
    rw [kind_eq_ahead] at hno
    exact ⟨_, .ifThen ht hc hu' hy hno⟩

theorem whileStatement_passes (hp : PassesStatement inner) (hk : s.kind = .kwWhile)
    (h : CleanRun (whileStatement inner) s n s') : ∃ x, Statement s.upcoming x s'.upcoming := by
  obtain ⟨hr, hc⟩ := h
  unfold whileStatement at hr
  rw [line_bind] at hr
  obtain ⟨_, s₁, hadv, h⟩ := cleanRun_bind ⟨hr, hc⟩
  obtain ⟨condition, s₂, hcond, h⟩ := cleanRun_bind h
  obtain ⟨_, s₃, hdo, h⟩ := cleanRun_bind h
  obtain ⟨body, s₄, hbody, h⟩ := cleanRun_bind h
  cases h.run
  obtain ⟨t, ht, -, hu⟩ := hadv.advance hk (by decide)
  obtain ⟨c, hc⟩ := expression_passes _ _ _ hcond
  obtain ⟨u, hu', hu₂⟩ := hdo.expectIn (by decide)
  obtain ⟨x, hx⟩ := hp _ _ _ hbody
  rw [hu₂] at hc
  rw [hu]
  exact ⟨_, .whileDo ht hc hu' hx⟩

theorem repeatStatement_passes (hi : IsStatementParser inner) (hp : PassesStatement inner)
    (hk : s.kind = .kwRepeat) (h : CleanRun (repeatStatement settings inner) s n s') :
    ∃ x, Statement s.upcoming x s'.upcoming := by
  obtain ⟨hr, hc⟩ := h
  unfold repeatStatement at hr
  rw [line_bind] at hr
  obtain ⟨_, s₁, hadv, h⟩ := cleanRun_bind ⟨hr, hc⟩
  obtain ⟨nodes, s₂, hnodes, h⟩ := cleanRun_bind h
  obtain ⟨hr, hc⟩ := h
  rw [line_bind] at hr
  obtain ⟨condition, s₃, hcond, h⟩ := cleanRun_bind ⟨hr, hc⟩
  cases h.run
  obtain ⟨t, ht, -, hu⟩ := hadv.advance hk (by decide)
  obtain ⟨xs, u, hxs, hu'⟩ := statementList_passes settings hi hp (by decide) hnodes
  obtain ⟨c, hc⟩ := expression_passes _ _ _ hcond
  rw [hu]
  exact ⟨_, .repeatUntil ht hxs hu' hc⟩

theorem loopStatement_passes (hp : PassesStatement inner) (hk : s.kind = .kwLoop)
    (h : CleanRun (loopStatement inner) s n s') : ∃ x, Statement s.upcoming x s'.upcoming := by
  obtain ⟨_, s₁, hadv, h⟩ := cleanRun_bind h
  obtain ⟨_, s₂, hopen, h⟩ := cleanRun_bind h
  obtain ⟨hr, hc⟩ := h
  rw [line_bind] at hr
  obtain ⟨initial, s₃, hinitial, h⟩ := cleanRun_bind ⟨hr, hc⟩
  obtain ⟨_, s₄, hsemicolon, h⟩ := cleanRun_bind h
  obtain ⟨condition, s₅, hcond, h⟩ := cleanRun_bind h
  obtain ⟨_, s₆, hsemicolon', h⟩ := cleanRun_bind h
  obtain ⟨update, s₇, hupdate, h⟩ := cleanRun_bind h
  obtain ⟨_, s₈, hclose, h⟩ := cleanRun_bind h
  obtain ⟨_, s₉, hdo, h⟩ := cleanRun_bind h
  obtain ⟨body, s₁₀, hbody, h⟩ := cleanRun_bind h
  cases h.run
  obtain ⟨t, ht, -, hu⟩ := hadv.advance hk (by decide)
  obtain ⟨u, hu', -, hu₁⟩ := hopen.expect (by decide)
  obtain ⟨⟨counter, first, hfirst⟩, hstop⟩ := assignment_passes hinitial
  obtain ⟨c, hc⟩ := expression_passes _ _ _ hcond
  obtain ⟨⟨target, next, hnext⟩, -⟩ := assignment_passes hupdate
  obtain ⟨v, hv, hu₇⟩ := hclose.expectIn (by decide)
  obtain ⟨w, hw, hu₈⟩ := hdo.expectIn (by decide)
  obtain ⟨x, hx⟩ := hp _ _ _ hbody
  rw [hu₇, hu₈] at hnext
  rw [kind_eq_ahead] at hstop
  rw [hu, hu₁]
  refine ⟨_, .loop ht hu' hfirst hsemicolon.optionalSemicolon ?_ hc
    hsemicolon'.optionalSemicolon hnext hv hw hx⟩
  intro hsame
  rw [hsame]
  constructor <;> intro hsign <;> rw [hsign] at hstop <;> cases hstop

theorem whenStatement_passes (hp : PassesStatement inner) (hk : s.kind = .kwWhen)
    (h : CleanRun (whenStatement settings inner) s n s') :
    ∃ x, Statement s.upcoming x s'.upcoming := by
  obtain ⟨hr, hc⟩ := h
  unfold whenStatement at hr
  rw [line_bind] at hr
  obtain ⟨_, s₁, hadv, hr, hc⟩ := cleanRun_bind ⟨hr, hc⟩
  rw [line_bind] at hr
  obtain ⟨value, s₂, hvalue, h⟩ := cleanRun_bind ⟨hr, hc⟩
  obtain ⟨hidden, s₃, hhidden, h⟩ := cleanRun_bind h
  obtain ⟨_, s₄, hless, h⟩ := cleanRun_bind h
  obtain ⟨negative, s₅, hneg, h⟩ := cleanRun_bind h
  obtain ⟨_, s₆, hsemicolon, h⟩ := cleanRun_bind h
  obtain ⟨_, s₇, hresume, hr, hc⟩ := cleanRun_bind h
  rw [line_bind] at hr
  obtain ⟨_, s₈, hequal, h⟩ := cleanRun_bind ⟨hr, hc⟩
  obtain ⟨zero, s₉, hzero, h⟩ := cleanRun_bind h
  obtain ⟨_, s₁₀, hsemicolon', h⟩ := cleanRun_bind h
  obtain ⟨_, s₁₁, hgreater, h⟩ := cleanRun_bind h
  obtain ⟨positive, s₁₂, hpos, h⟩ := cleanRun_bind h
  cases h.run
  have hsame : s₃.upcoming = s₂.upcoming := by
    cases hhidden.run
    rfl
  obtain ⟨t, ht, -, hu⟩ := hadv.advance hk (by decide)
  obtain ⟨e, he⟩ := expression_passes _ _ _ hvalue
  obtain ⟨u, hu', hu₃⟩ := hless.expectIn (by decide)
  obtain ⟨x, hx⟩ := hp _ _ _ hneg
  obtain ⟨v, hv, -, hu₇⟩ := hequal.expect (by decide)
  obtain ⟨y, hy⟩ := hp _ _ _ hzero
  obtain ⟨w, hw, hu₁₀⟩ := hgreater.expectIn (by decide)
  obtain ⟨z, hz⟩ := hp _ _ _ hpos
  have hskip := hsemicolon.optionalSemicolon
  have hskip' := hsemicolon'.optionalSemicolon
  rw [← hresume.resumeAt, hu₇] at hskip
  rw [hu₁₀] at hskip'
  rw [← hsame, hu₃] at he
  rw [hu]
  exact ⟨_, .when ht he hu' hx hskip hv hy hskip' hw hz⟩

theorem statementLevel_passes (hi : IsStatementParser inner) (hp : PassesStatement inner) :
    PassesStatement (statementLevel settings inner) := by
  intro s n s' h
  cases statementLevel_eq_ok settings h.run with
  | compound hk hr =>
    obtain ⟨t, u, ts, xs, ht, hu, -, hxs, hu'⟩ := compound_passes settings hi hp hk ⟨hr, h.clean⟩
    rw [hu]
    exact ⟨_, .block ht hxs hu'⟩
  | call hk hr => exact procedureCall_passes hk ⟨hr, h.clean⟩
  | assignment _ hr =>
    obtain ⟨⟨target, value, hassign⟩, -⟩ := assignment_passes ⟨hr, h.clean⟩
    exact ⟨_, .assign hassign⟩
  | branch hk hr => exact ifStatement_passes hp hk ⟨hr, h.clean⟩
  | whileLoop hk hr => exact whileStatement_passes hp hk ⟨hr, h.clean⟩
  | repeatLoop hk hr => exact repeatStatement_passes settings hi hp hk ⟨hr, h.clean⟩
  | countingLoop hk hr => exact loopStatement_passes hp hk ⟨hr, h.clean⟩
  | sign hk hr => exact whenStatement_passes settings hp hk ⟨hr, h.clean⟩
  | empty _ _ hs =>
    rw [hs]
    exact ⟨_, .empty⟩

end

theorem statement_passes (settings : Settings) : PassesStatement (statement settings) := by
  suffices h : ∀ s n s', statement settings s = .ok n s' → s'.Clean →
      ∃ x, Statement s.upcoming x s'.upcoming from
    fun s n s' hr => h s n s' hr.run hr.clean
  intro s
  refine statement_induction settings (R := fun s r => ∀ n s', r = .ok n s' → s'.Clean →
    ∃ x, Statement s.upcoming x s'.upcoming) ?_ ?_ s
  · exact fun _ _ _ h => (by cases h)
  · exact fun inner _ hi h s n s' hr hc =>
      statementLevel_passes settings hi (fun s n s' hr => h s n s' hr.run hr.clean) s n s' ⟨hr, hc⟩

/-! ## Programs -/

/-- A row of tokens with the token for the end as its last one and nowhere else. -/
def EndsOnce (ts : List Token) : Prop :=
  ∃ body stop, ts = body ++ [stop] ∧ stop.isEnd = true ∧ ∀ t ∈ body, t.isEnd = false

theorem EndsOnce.upcoming_eq {s s' : ParserState} (hends : EndsOnce s.upcoming) (h : s.Before s')
    (hk : s'.kind = .endOfFile) : s'.upcoming = [s'.here] ∧ s'.here.isEnd = true := by
  obtain ⟨body, stop, hrow, -, hbody⟩ := hends
  obtain ⟨taken, -, hu, -⟩ := h.row
  have happend : (taken ++ s'.cursor.ahead) ++ [s'.cursor.stop] = body ++ [stop] := by
    rw [← hrow, hu, List.append_assoc]
    rfl
  have hsame := (List.append_inj' happend rfl).1
  have hend : s'.here.isEnd = true := beq_iff_eq.mpr hk
  refine ⟨?_, hend⟩
  rcases ha : s'.cursor.ahead with _ | ⟨t, rest⟩
  · simp [upcoming, Cursor.upcoming, ParserState.here, Cursor.here, ha]
  · have ht : t.isEnd = false := hbody t (by simp [← hsame, ha])
    simp [ParserState.here, Cursor.here, ha, ht] at hend

theorem program_passes (settings : Settings) {s s' : ParserState} {n : Node}
    (hends : EndsOnce s.upcoming) (h : CleanRun (program settings) s n s') :
    ∃ p, IsProgram s.upcoming p := by
  have hi := statement_isStatementParser settings
  have hp := statement_passes settings
  obtain ⟨hr, hc⟩ := h
  have hsteps : s.Steps s' := Stepwise.ok hr
  unfold program at hr
  dsimp only at hr
  rw [kind_bind] at hr
  split at hr
  · rename_i hk
    obtain ⟨root, s₁, hroot, h⟩ := cleanRun_bind ⟨hr, hc⟩
    obtain ⟨_, s₂, hdot, hr, hc⟩ := cleanRun_bind h
    rw [kind_bind] at hr
    split at hr
    · cases hr
      exact absurd hc (not_clean_flag s₂ _)
    · rename_i hend
      cases hr
      obtain ⟨t, u, ts, xs, ht, hu, -, hxs, hu'⟩ := compound_passes settings hi hp hk hroot
      obtain ⟨v, hv, -, hu₁⟩ := hdot.expect (by decide)
      obtain ⟨hstop, hstopEnd⟩ := hends.upcoming_eq hsteps.before (by simpa using hend)
      rw [hu₁, hstop] at hxs
      rw [hu]
      exact ⟨_, .block ht hxs hu' hv hstopEnd⟩
  · rename_i hk
    rw [line_bind] at hr
    obtain ⟨nodes, s₁, hnodes, h⟩ := cleanRun_bind ⟨hr, hc⟩
    cases h.run
    obtain ⟨nodes', s₂, hloop, h⟩ := cleanRun_bind hnodes
    obtain ⟨_, s₃, hclose, h⟩ := cleanRun_bind h
    cases h.run
    obtain ⟨xs, hxs⟩ := listLoop_passes settings hi hp hloop
    have hclosed : s₂.kind = .endOfFile := by
      have hr := hclose.run
      unfold expect at hr
      split at hr
      · assumption
      · cases hr
        exact absurd hclose.clean (not_clean_flag s₂ _)
    have hsteps : s.Steps s₂ := Stepwise.ok hloop.run
    obtain ⟨hstop, hstopEnd⟩ := hends.upcoming_eq hsteps.before hclosed
    rw [hstop] at hxs
    rw [kind_eq_ahead] at hk
    exact ⟨_, .bare hk hxs hstopEnd⟩

end PascalFront.Parser
