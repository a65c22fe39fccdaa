-- What a parser has passed without a diagnostic can always be completed. Each
-- parser either passes a phrase of its form, or notes its first diagnostic
-- behind the beginning of one. Wherever it stops, all that is still open is
-- closed with what is due there.
import PascalFront.Proofs.Forms
import PascalFront.Proofs.Lockstep
import PascalFront.Proofs.Sentences

namespace PascalFront.Parser

open ParserState ResumePoints Form

/-! ## Runs that can be completed -/

/-- The run notes its first diagnostic behind `taken`. -/
def StopsBehind (p : Parser α) (s : ParserState) (taken : List Token) : Prop :=
  ∃ m cause, m.Clean ∧ s.Steps m ∧ s.upcoming = taken ++ m.upcoming ∧
    (m.flag cause).Steps (stateBehind (p s))

/-- The run passes a phrase of the form, or stops behind what can be completed to one. -/
inductive Viable (L : Form) (p : Parser α) (s : ParserState) : Prop
  | clean (a : α) (s' : ParserState) : CleanRun p s a s' → L s.upcoming s'.upcoming → Viable L p s
  | stops (taken more : List Token) : StopsBehind p s taken → Completes L taken more → Viable L p s

section

variable {L M : Form} {p q : Parser α} {f : α → Parser β} {s s₁ : ParserState}

theorem Viable.mono (h : Viable L p s) (hLM : ∀ ts rest, L ts rest → M ts rest) :
    Viable M p s := by
  cases h with
  | clean a s' hr hL => exact .clean _ _ hr (hLM _ _ hL)
  | stops taken more hs hL => exact .stops _ _ hs (hL.mono hLM)

/-- A change of form that depends on the next token. -/
theorem Viable.mono_at (h : Viable L p s) (hLM : ∀ ts rest,
    kindAhead ts = s.kind ∨ mild (kindAhead ts) = true → L ts rest → M ts rest) :
    Viable M p s := by
  cases h with
  | clean a s' hr hL => exact .clean _ _ hr (hLM _ _ (Or.inl (kind_eq_ahead s).symm) hL)
  | stops taken more hstop hL =>
    refine .stops _ _ hstop ⟨hL.proper, fun rest hrest => ?_⟩
    obtain ⟨hphrase, hk⟩ := hL.derives rest hrest
    refine ⟨hLM _ _ ?_ hphrase, hk⟩
    rcases taken with _ | ⟨t, taken⟩
    · exact Or.inr hk
    · obtain ⟨m, cause, -, -, hu, -⟩ := hstop
      rw [kind_eq_ahead, hu]
      exact Or.inl rfl

/-- A parser that goes on as `q` does, behind steps that pass nothing. -/
theorem Viable.after (h : Viable L q s₁) (hs : s.Steps s₁) (hu : s₁.upcoming = s.upcoming)
    (hsame : p s = q s₁) : Viable L p s := by
  cases h with
  | clean a s' hr hL => exact .clean _ _ ⟨hsame.trans hr.run, hr.clean⟩ (hu ▸ hL)
  | stops taken more hstop hL =>
    obtain ⟨m, cause, hm, hsteps, htaken, hflag⟩ := hstop
    exact .stops _ _ ⟨m, cause, hm, hs.trans hsteps, hu ▸ htaken, hsame ▸ hflag⟩ hL

theorem Viable.of_eq (h : Viable L q s) (hsame : p s = q s) : Viable L p s :=
  h.after (Steps.refl s) rfl hsame

/-- One parser behind another: the phrases stand one behind the other, and where the first one
stops, the second one adds a phrase of its own. -/
theorem Viable.bind [Stepwise p] [∀ a, Stepwise (f a)] [hL : Movable L] [Completable M]
    (h : Viable L p s) (hf : ∀ a s₁, CleanRun p s a s₁ → Viable M (f a) s₁) :
    Viable (L.andThen M) (p >>= f) s := by
  cases h with
  | clean a s₁ hr hphrase =>
    have hsame : (p >>= f) s = f a s₁ := by rw [bind_apply, hr.run]
    cases hf a s₁ hr with
    | clean b s' hr' hphrase' =>
      exact .clean b s' ⟨hsame.trans hr'.run, hr'.clean⟩ ⟨_, hphrase, hphrase'⟩
    | stops taken more hstop hmore =>
      obtain ⟨m, cause, hm, hsteps, hu, hflag⟩ := hstop
      obtain ⟨w, hw, hmove⟩ := hL.move hphrase
      refine .stops (w ++ taken) more ⟨m, cause, hm, (Stepwise.ok hr.run).trans hsteps, ?_, ?_⟩
        ⟨hmore.proper, fun rest hrest => ?_⟩
      · rw [hw, hu, List.append_assoc]
      · rw [hsame]
        exact hflag
      · obtain ⟨hM, hk⟩ := hmore.derives rest hrest
        rw [List.append_assoc]
        refine ⟨⟨_, hmove _ ?_, hM⟩, hk⟩
        rw [hu]
        exact (replaces_of_mild hk).append taken
  | stops taken more hstop hmore =>
    obtain ⟨m, cause, hm, hsteps, hu, hflag⟩ := hstop
    obtain ⟨more, hmore⟩ := hmore.andThen (M := M)
    exact .stops _ _ ⟨m, cause, hm, hsteps, hu, hflag.trans stateBehind_bind⟩ hmore

/-- A result made of what a parser gives. -/
theorem Viable.map (h : Viable L p s) (g : α → β) : Viable L (p >>= fun a => pure (g a)) s := by
  cases h with
  | clean a s' hr hL => exact .clean _ _ ⟨bind_eq_ok.mpr ⟨_, _, hr.run, rfl⟩, hr.clean⟩ hL
  | stops taken more hstop hL =>
    obtain ⟨m, cause, hm, hsteps, hu, hflag⟩ := hstop
    exact .stops _ _ ⟨m, cause, hm, hsteps, hu, hflag.trans stateBehind_bind⟩ hL

/-- A parser that notes a diagnostic at once has passed nothing. -/
theorem viable_of_flag (cause : Cause) [hL : Completable L] (hc : s.Clean)
    (h : (s.flag cause).Steps (stateBehind (p s))) : Viable L p s := by
  obtain ⟨more, hmore⟩ := hL.complete
  exact .stops [] more ⟨s, cause, hc, Steps.refl s, rfl, h⟩ hmore

end

/-! ## The small parsers -/

section

variable {L M : Form} {s : ParserState} {k : TokenKind} {f : Bool → Parser α}

theorem advance_viable (hk : s.kind = k) (hend : k ≠ .endOfFile) (hc : s.Clean) :
    Viable (token k) advance s :=
  .clean _ _ ⟨rfl, hc⟩ ⟨s.here, hk, upcoming_advance (atEnd_of_kind hk hend)⟩

theorem takeName_viable (hk : s.kind = .identifier) (hc : s.Clean) :
    Viable (token .identifier) takeName s :=
  .clean _ _ ⟨rfl, hc⟩ ⟨s.here, hk, upcoming_advance (atEnd_of_kind hk (by decide))⟩

theorem expect_viable (missing : Cause) [hk : Plain k] (hc : s.Clean) :
    Viable (token k) (expect k missing) s := by
  by_cases h : s.kind = k
  · refine .clean () s.advance ⟨?_, hc⟩
      ⟨s.here, h, upcoming_advance (atEnd_of_kind h hk.plain.1)⟩
    unfold expect
    rw [if_pos h]
  · refine viable_of_flag missing hc ?_
    unfold expect
    rw [if_neg h]
    exact Steps.refl _

/-- Where tokens are passed over, the diagnostic for that comes first. -/
theorem resumeAt_bind_viable {set : KindSet} {f : Unit → Parser α} [Stepwise (f ())]
    [Completable L] (hc : s.Clean) (h : Viable L (f ()) s) : Viable L (resumeAt set >>= f) s := by
  by_cases hstop : (set.contains s.kind || s.cursor.atEnd) = true
  · refine h.of_eq ?_
    rw [bind_apply]
    unfold resumeAt ParserState.resumeAt
    rw [if_pos hstop]
  · refine viable_of_flag .unexpectedToken hc ?_
    rw [bind_apply]
    unfold resumeAt ParserState.resumeAt
    rw [if_neg hstop]
    exact (steps_skipUntil _ (s.flag _)).trans (Stepwise.behind (f ()) _)

theorem expectIn_viable (set : KindSet) (missing : Cause) [Plain k] (hc : s.Clean) :
    Viable (token k) (expectIn set k missing) s :=
  resumeAt_bind_viable hc (expect_viable missing hc)

/-- Either a token of the kind is taken, and then comes what belongs behind it, or not. -/
theorem accept_bind_viable [Stepwise (f true)] [Completable M] (hend : k ≠ .endOfFile)
    (hc : s.Clean) (hyes : Viable M (f true) s.advance)
    (hno : s.kind ≠ k → Viable L (f false) s)
    (hL : ∀ ts rest, ((token k).andThen M) ts rest → L ts rest) :
    Viable L (accept k >>= f) s := by
  by_cases hk : s.kind = k
  · have h : Viable ((token k).andThen M) (advance >>= fun _ => f true) s :=
      (advance_viable hk hend hc).bind fun _ s₁ h₁ => by
        cases h₁.run
        exact hyes
    exact (h.mono hL).of_eq (accept_bind_of_kind hk f)
  · exact (hno hk).of_eq (accept_bind_of_ne hk f)

theorem optionalSemicolon_viable (hc : s.Clean) :
    Viable optionalSemicolon (accept .semicolon) s := by
  by_cases hk : s.kind = .semicolon
  · refine .clean true s.advance ⟨?_, hc⟩ ?_
    · unfold accept
      rw [if_pos hk]
    · rw [upcoming_advance (atEnd_of_kind hk (by decide))]
      exact .present hk
  · refine .clean false s ⟨?_, hc⟩ .absent
    unfold accept
    rw [if_neg hk]

end

/-! ## Loops -/

/-- A turn of a loop of the form `L`: the loop is over, or the turn passes a phrase of the form `T`,
or it is the last one, or it stops. -/
inductive ViableTurn (T L : Form) (turn : β → Parser (Option β)) (b : β) (s : ParserState) : Prop
  | done : turn b s = .ok none s → L s.upcoming s.upcoming → ViableTurn T L turn b s
  | again (b₁ : β) (s₁ : ParserState) : CleanRun (turn b) s (some b₁) s₁ →
      T s.upcoming s₁.upcoming → ViableTurn T L turn b s
  | last (b₁ : β) (s₁ : ParserState) : CleanRun (turn b) s (some b₁) s₁ →
      turn b₁ s₁ = .ok none s₁ → L s.upcoming s₁.upcoming → ViableTurn T L turn b s
  | stops (taken more : List Token) : StopsBehind (turn b) s taken → Completes L taken more →
      ViableTurn T L turn b s

section

variable {T L : Form} {turn : β → Parser (Option β)} [∀ b, Stepwise (turn b)] [Movable T]
  [Completable L]

theorem loop_viable (ht : Progressive turn) (hTL : ∀ ts rest, (T.andThen L) ts rest → L ts rest)
    (hturn : ∀ b s, s.Clean → ViableTurn T L turn b s) (b : β) (s : ParserState) (hc : s.Clean) :
    Viable L (loop turn b) s := by
  generalize hn : s.left = n
  induction n using Nat.strongRecOn generalizing b s with
  | ind n ih =>
    subst hn
    have hcont := stepwise_option (pure b) (loop turn)
    have hdone {b : β} {s : ParserState} (h : turn b s = .ok none s) : loop turn b s = .ok b s := by
      rw [loop_unrolls ht, bind_apply, h]
      rfl
    cases hturn b s hc with
    | done hr hL => exact .clean b s ⟨hdone hr, hc⟩ hL
    | again b₁ s₁ hr hT =>
      rw [loop_unrolls ht]
      refine Viable.mono (Viable.bind (.clean _ _ hr hT) fun o s₂ hr' => ?_) hTL
      have hsame := hr'.run
      rw [hr.run] at hsame
      cases hsame
      exact ih s₁.left (ht b s b₁ s₁ hr.run) b₁ s₁ hr.clean rfl
    | last b₁ s₁ hr hr' hL =>
      refine .clean b₁ s₁ ⟨?_, hr.clean⟩ hL
      rw [loop_unrolls ht, bind_apply, hr.run]
      exact hdone hr'
    | stops taken more hstop hmore =>
      obtain ⟨m, cause, hm, hsteps, hu, hflag⟩ := hstop
      rw [loop_unrolls ht]
      exact .stops taken more ⟨m, cause, hm, hsteps, hu, hflag.trans stateBehind_bind⟩ hmore

omit [∀ b, Stepwise (turn b)] [Movable T] [Completable L] in
/-- A turn that gives what a parser gives. -/
theorem viableTurn_of_viable {q : Parser α} {s : ParserState} {b : β} (g : α → β)
    (h : Viable T q s) (hsame : turn b s = (q >>= fun a => pure (some (g a))) s)
    (hTL : ∀ ts rest, T ts rest → L ts rest) : ViableTurn T L turn b s := by
  cases h with
  | clean a s' hr hT =>
    exact .again (g a) s' ⟨hsame.trans (bind_eq_ok.mpr ⟨a, s', hr.run, rfl⟩), hr.clean⟩ hT
  | stops taken more hstop hT =>
    obtain ⟨m, cause, hm, hsteps, hu, hflag⟩ := hstop
    refine .stops taken more ⟨m, cause, hm, hsteps, hu, ?_⟩ (hT.mono hTL)
    rw [hsame]
    exact hflag.trans stateBehind_bind

end

/-! ## Expressions -/

/-- The tokens of the operators of a layer. -/
def isOperator (layer : Layer) (k : TokenKind) : Prop :=
  ∃ op : Operator, op.token = k ∧ op.layer = layer

/-- Behind a phrase, operators with their right operands make a phrase again. -/
theorem phrase_tail {layer below : Layer}
    (hstep : ∀ {t : Token} {ts mid rest : List Token} {op : Operator} {left right : Expr},
      op.layer = layer → Phrase layer ts left (t :: mid) → t.kind = op.token →
      Phrase below mid right rest → Phrase layer ts (.binary op left right) rest)
    {ts mid rest : List Token} {e : Expr} (he : Phrase layer ts e mid)
    (h : Tail (isOperator layer) (phrase below) mid rest) : phrase layer ts rest := by
  induction h generalizing e with
  | nil => exact ⟨e, he⟩
  | cons hop hright _ ih =>
    obtain ⟨op, htoken, hlayer⟩ := hop
    obtain ⟨right, hright⟩ := hright
    exact ih (hstep hlayer he htoken.symm hright)

/-- A parser of a form that stops nowhere but behind what can be completed. -/
def AlwaysViable (L : Form) (p : Parser α) : Prop := ∀ s : ParserState, s.Clean → Viable L p s

theorem negations_viable :
    AlwaysViable (Tail (· = .kwNot) nothing) negations := by
  refine loop_viable (T := token .kwNot) negationTurn_progressive ?_ ?_ 0
  · rintro _ rest ⟨_, ⟨t, ht, rfl⟩, h⟩
    exact .cons ht rfl h
  · intro k s hc
    by_cases hk : s.kind = .kwNot
    · refine .again (k + 1) s.advance ⟨?_, hc⟩
        ⟨s.here, hk, upcoming_advance (atEnd_of_kind hk (by decide))⟩
      rw [negationTurn, accept_bind_of_kind hk]
      rfl
    · refine .done ?_ .nil
      rw [negationTurn, accept_bind_of_ne hk]
      rfl

section

variable {inner : Parser Node} [Stepwise inner]

theorem operand_viable (hi : AlwaysViable (phrase .expression) inner) :
    AlwaysViable (phrase .factor) (operand inner) := by
  intro s hc
  have hconstant (n : Node) (hk : s.here.kind = .integer ∨ s.here.kind = .real ∨
      s.here.kind = .string) : Viable (phrase .factor) (constant n) s := by
    obtain ⟨v, hv⟩ := exists_constant hk
    have hend : s.here.kind ≠ .endOfFile := by rcases hk with h | h | h <;> rw [h] <;> decide
    exact .clean n s.advance ⟨rfl, hc⟩
      ⟨_, by rw [upcoming_advance (atEnd_of_kind rfl hend)]; exact .literal hv⟩
  cases hk : s.here.kind
  case identifier =>
    have hname := ((takeName_viable hk hc).map Node.var).mono (M := phrase .factor) (by
      rintro _ rest ⟨t, ht, rfl⟩
      exact ⟨_, .name ht⟩)
    exact hname.of_eq (by simp only [operand, here_bind, hk])
  case leftParen =>
    have hopen := advance_viable hk (by decide) hc
    have hparens := (hopen.bind (f := fun _ => do
      let n ← inner
      expect .rightParen .missingRightParen
      return n) fun _ s₁ h₁ => (hi s₁ h₁.clean).bind fun n s₂ h₂ =>
        (expect_viable (k := .rightParen) .missingRightParen h₂.clean).map fun _ => n).mono
      (M := phrase .factor) (by
        rintro _ rest ⟨_, ⟨t, ht, rfl⟩, _, ⟨e, he⟩, u, hu, rfl⟩
        exact ⟨e, .parens ht he hu⟩)
    exact hparens.of_eq (by simp only [operand, here_bind, hk])
  case integer =>
    exact (hconstant s.here.integerNode (Or.inl hk)).of_eq (by simp only [operand, here_bind, hk])
  case real =>
    exact (hconstant s.here.realNode (Or.inr (Or.inl hk))).of_eq
      (by simp only [operand, here_bind, hk])
  case string =>
    exact (hconstant s.here.stringNode (Or.inr (Or.inr hk))).of_eq
      (by simp only [operand, here_bind, hk])
  case endOfFile =>
    refine viable_of_flag .unexpectedEnd hc ?_
    simp only [operand, here_bind, hk]
    exact Steps.refl _
  all_goals
    refine viable_of_flag .unexpectedToken hc ?_
    simp only [operand, here_bind, hk]
    exact Steps.refl _

theorem factor_viable (hi : AlwaysViable (phrase .expression) inner) :
    AlwaysViable (phrase .factor) (factor inner) := by
  intro s hc
  refine Viable.mono ((negations_viable s hc).bind fun k s₁ h₁ =>
    (operand_viable hi s₁ h₁.clean).map (negated k)) ?_
  rintro ts rest ⟨mid, hnots, e, he⟩
  induction hnots with
  | nil => exact ⟨e, he⟩
  | cons ht hitem _ ih =>
    cases hitem
    obtain ⟨e', he'⟩ := ih he
    exact ⟨_, .not ht he'⟩

theorem chain_viable {layer below : Layer} {operator? : TokenKind → Option NodeKind}
    (hend : operator? .endOfFile = none)
    (hop : ∀ k n, operator? k = some n → isOperator layer k)
    (hi : AlwaysViable (phrase below) inner) (first : Node) :
    AlwaysViable (Tail (isOperator layer) (phrase below)) (chain operator? inner first) := by
  have hcons (ts rest : List Token) : ((opener (isOperator layer)).andThen (phrase below)) ts rest →
      Tail (isOperator layer) (phrase below) ts rest := by
    rintro ⟨_, ⟨t, ht, rfl⟩, h⟩
    exact .cons ht h .nil
  refine loop_viable (T := (opener (isOperator layer)).andThen (phrase below))
    (chainTurn_progressive hend) ?_ ?_ first
  · rintro _ rest ⟨_, ⟨_, ⟨t, ht, rfl⟩, h⟩, h'⟩
    exact .cons ht h h'
  · intro left s hc
    rcases ho : operator? s.kind with _ | op
    · refine .done ?_ .nil
      simp only [chainTurn, kind_bind, ho]
      rfl
    · have hne : s.kind ≠ .endOfFile := by
        intro hk
        rw [hk, hend] at ho
        cases ho
      have hopen : Viable (opener (isOperator layer)) advance s :=
        .clean () s.advance ⟨rfl, hc⟩
          ⟨s.here, hop _ _ ho, upcoming_advance (atEnd_of_kind rfl hne)⟩
      refine viableTurn_of_viable (Node.binary op left)
        (hopen.bind (f := fun _ => inner) fun _ s₁ h₁ => hi s₁ h₁.clean) ?_ hcons
      simp only [chainTurn, kind_bind, ho, bind_assoc]

theorem term_viable (hi : AlwaysViable (phrase .expression) inner) :
    AlwaysViable (phrase .term) (term inner) := by
  intro s hc
  refine Viable.mono ((factor_viable hi s hc).bind fun n s₁ h₁ =>
    chain_viable rfl product?_operator (factor_viable hi) n s₁ h₁.clean) ?_
  rintro ts rest ⟨mid, ⟨e, he⟩, h⟩
  exact phrase_tail .product (.factor he) h

theorem simpleExpression_viable (hi : AlwaysViable (phrase .expression) inner) :
    AlwaysViable (phrase .simple) (simpleExpression inner) := by
  have hrest (g : Node → Node) : AlwaysViable
      ((phrase .term).andThen (Tail (isOperator .simple) (phrase .term)))
      (do chain sum? (term inner) (g (← term inner))) := fun s hc =>
    (term_viable hi s hc).bind fun n s₁ h₁ =>
      chain_viable rfl sum?_operator (term_viable hi) (g n) s₁ h₁.clean
  intro s hc
  by_cases hk : s.kind = .plus ∨ s.kind = .minus
  · have hsign : Viable (opener fun k => k = .plus ∨ k = .minus) advance s :=
      .clean () s.advance ⟨rfl, hc⟩ ⟨s.here, hk, upcoming_advance (atEnd_of_kind rfl (by
        rcases hk with h | h <;> rw [h] <;> decide))⟩
    have h := hsign.bind fun _ s₁ h₁ =>
      hrest (fun n => if s.kind = .minus then .operator .negate [n] else n) s₁ h₁.clean
    refine (h.mono ?_).of_eq ?_
    · rintro _ rest ⟨_, ⟨t, ht | ht, rfl⟩, mid, ⟨e, he⟩, htail⟩
      · exact phrase_tail .sum (.plus ht he) htail
      · exact phrase_tail .sum (.minus ht he) htail
    · simp only [simpleExpression, kind_bind, if_pos hk]
  · have h := hrest (fun n => if s.kind = .minus then .operator .negate [n] else n) s hc
    refine (h.mono ?_).of_eq ?_
    · rintro _ rest ⟨mid, ⟨e, he⟩, htail⟩
      exact phrase_tail .sum (.term he) htail
    · simp only [simpleExpression, kind_bind, if_neg hk]

theorem expressionLevel_viable (hi : AlwaysViable (phrase .expression) inner) :
    AlwaysViable (phrase .expression) (expressionLevel inner) := by
  have hop := stepwise_relation inner
  intro s hc
  refine Viable.mono ((simpleExpression_viable hi s hc).bind
    (M := ((opener (isOperator .expression)).andThen (phrase .simple)).optional)
    fun n s₁ h₁ => ?_) ?_
  · rcases ho : relation? s₁.kind with _ | op
    · refine .clean n s₁ ⟨?_, h₁.clean⟩ (Or.inl rfl)
      simp only [kind_bind, ho]
      rfl
    · have hne : s₁.kind ≠ .endOfFile := by
        intro hk
        rw [hk] at ho
        cases ho
      have hopen : Viable (opener (isOperator .expression)) advance s₁ :=
        .clean () s₁.advance ⟨rfl, h₁.clean⟩
          ⟨s₁.here, relation?_operator _ _ ho, upcoming_advance (atEnd_of_kind rfl hne)⟩
      have h := hopen.bind fun _ s₂ h₂ =>
        (simpleExpression_viable hi s₂ h₂.clean).map (Node.binary op n)
      refine (h.mono fun ts rest h => Or.inr h).of_eq ?_
      simp only [kind_bind, ho]
  · rintro ts rest ⟨mid, ⟨e, he⟩, rfl | ⟨_, ⟨t, ⟨op, htoken, hlayer⟩, rfl⟩, e', he'⟩⟩
    · exact ⟨e, .simple he⟩
    · exact ⟨_, .relation hlayer he htoken.symm he'⟩

end

theorem expression_viable : AlwaysViable (phrase .expression) expression := by
  intro s hc
  refine (expression_induction
    (R := fun s r => s.Clean → Viable (phrase .expression) (fun _ => r) s) ?_ ?_ s hc).of_eq rfl
  · exact fun s hc => viable_of_flag .unexpectedEnd hc (Steps.refl _)
  · exact fun inner _ hi s hc =>
      (expressionLevel_viable (fun s hc => (hi s hc).of_eq rfl) s hc).of_eq rfl

end PascalFront.Parser
