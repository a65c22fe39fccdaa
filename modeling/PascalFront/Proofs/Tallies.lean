-- What becomes of the identifiers: each one that is passed is used once in the
-- tree, also behind syntax errors. Only the hidden variables of WHEN statements
-- are used without being passed.
import PascalFront.Proofs.CrossReference
import PascalFront.Proofs.Twins

namespace PascalFront

namespace Parser

open ParserState ResumePoints

namespace Watch

variable {v : Watch} {s u : ParserState} {c : Nat}

/-! ## Expressions -/

section

variable {p q : Parser Node} [Stepwise p] [Stepwise q] [Abreast p q]

theorem tallies_noOperand : v.Tallies v.uses 0 noOperand noOperand :=
  .after fun _ _ _ => tallies_pure (by simp [uses])

theorem tally_constant (hsu : Twin s u) (hk : s.kind ≠ .identifier) {n n' : Node}
    (h : v.uses n = 0) : v.Tally v.uses 0 (constant n) (constant n') s u :=
  .advance hsu hk (tallies_pure h)

theorem uses_integerNode (t : Token) : v.uses t.integerNode = 0 := by
  unfold Token.integerNode
  split <;> simp [uses]

theorem uses_realNode (t : Token) : v.uses t.realNode = 0 := by
  unfold Token.realNode
  split <;> simp [uses]

theorem uses_stringNode (t : Token) : v.uses t.stringNode = 0 := by
  unfold Token.stringNode
  split <;> simp [uses]

theorem tallies_operand (hp : v.Tallies v.uses 0 p q) :
    v.Tallies v.uses 0 (operand p) (operand q) := by
  intro s u hsu
  have hne {k : TokenKind} (hk : s.here.kind = k) (h : k ≠ .identifier) : s.kind ≠ .identifier :=
    fun hs => h (hk.symm.trans hs)
  unfold operand
  refine .here hsu ?_
  cases hk : s.here.kind
  case identifier =>
    exact .takeName hsu hk fun id id' => tallies_pure (by simp [uses, weight])
  case leftParen =>
    refine .advance hsu (hne hk (by decide)) (.bind hp fun n n' _ => ?_)
    exact .after fun _ _ _ => tallies_pure rfl
  case integer => exact tally_constant hsu (hne hk (by decide)) (uses_integerNode _)
  case real => exact tally_constant hsu (hne hk (by decide)) (uses_realNode _)
  case string => exact tally_constant hsu (hne hk (by decide)) (uses_stringNode _)
  case endOfFile => exact tallies_endedEarly s u hsu
  all_goals exact tallies_noOperand s u hsu

theorem uses_negated (k : Nat) (n : Node) : v.uses (negated k n) = v.uses n := by
  induction k with
  | zero => rfl
  | succ k ih =>
    rw [← ih]
    simp [negated, uses]

theorem tallies_negations : v.Tallies (fun _ => 0) 0 negations negations :=
  tallies_loop (w := fun _ => 0) (fun _ _ => .accept (tallies_pure rfl) (tallies_pure rfl)) 0 0

theorem tallies_factor (hp : v.Tallies v.uses 0 p q) :
    v.Tallies v.uses 0 (factor p) (factor q) :=
  .bind tallies_negations fun k _ _ =>
    .bind (tallies_operand hp) fun n _ _ => tallies_pure (uses_negated k n)

/-- Kinds that no node with a name has. -/
def Operators (operator? : TokenKind → Option NodeKind) : Prop :=
  operator? .identifier = none ∧ ∀ k op, operator? k = some op → op ≠ .var ∧ op ≠ .call

theorem tallies_chain {operator? : TokenKind → Option NodeKind} (hop : Operators operator?)
    (hp : v.Tallies v.uses 0 p q) (first first' : Node) :
    v.Tallies v.uses (v.uses first) (chain operator? p first) (chain operator? q first') := by
  refine tallies_loop (fun left left' => ?_) first first'
  intro s u hsu
  unfold chainTurn
  refine .kind hsu ?_
  cases ho : operator? s.kind with
  | none => exact tallies_pure rfl s u hsu
  | some op =>
    have hk : s.kind ≠ .identifier := fun hk => by rw [hk, hop.1] at ho; cases ho
    obtain ⟨hv, hc⟩ := hop.2 _ op ho
    refine .advance hsu hk (.bind (hp.behind _) fun right right' _ => tallies_pure ?_)
    simp [uses, hv, hc]

theorem operators_product : Operators product? :=
  ⟨rfl, fun k op h => by cases k <;> cases h <;> decide⟩

theorem operators_sum : Operators sum? := ⟨rfl, fun k op h => by cases k <;> cases h <;> decide⟩

theorem operators_relation : Operators relation? :=
  ⟨rfl, fun k op h => by cases k <;> cases h <;> decide⟩

theorem tallies_term (hp : v.Tallies v.uses 0 p q) : v.Tallies v.uses 0 (term p) (term q) :=
  have : Abreast (factor p) (factor q) := inferInstance
  .bind (tallies_factor hp) fun first first' _ =>
    tallies_chain operators_product (tallies_factor hp) first first'

theorem tallies_simpleExpression (hp : v.Tallies v.uses 0 p q) :
    v.Tallies v.uses 0 (simpleExpression p) (simpleExpression q) := by
  have hchain (minus : Prop) [Decidable minus] (first first' : Node) :
      v.Tallies v.uses (v.uses first)
        (chain sum? (term p) (if minus then .operator .negate [first] else first))
        (chain sum? (term q) (if minus then .operator .negate [first'] else first')) := by
    have h := tallies_chain (v := v) operators_sum (tallies_term hp)
      (if minus then .operator .negate [first] else first)
      (if minus then .operator .negate [first'] else first')
    have hfirst : v.uses (if minus then .operator .negate [first] else first) = v.uses first := by
      split <;> simp [uses]
    rwa [hfirst] at h
  have hterms (minus : Prop) [Decidable minus] :=
    Tallies.bind (tallies_term hp) fun first first' _ => hchain minus first first'
  intro s u hsu
  unfold simpleExpression
  dsimp only
  refine .kind hsu ?_
  split
  · rename_i hsign
    have hk : s.kind ≠ .identifier := fun hk => by rw [hk] at hsign; revert hsign; decide
    exact .advance hsu hk (hterms _)
  · exact hterms _ s u hsu

theorem tallies_expressionLevel (hp : v.Tallies v.uses 0 p q) :
    v.Tallies v.uses 0 (expressionLevel p) (expressionLevel q) := by
  have hop := stepwise_relation p
  have hop' := stepwise_relation q
  refine .bind (tallies_simpleExpression hp) fun left left' _ => ?_
  intro s u hsu
  refine .kind hsu ?_
  cases ho : relation? s.kind with
  | none => exact tallies_pure rfl s u hsu
  | some op =>
    have hk : s.kind ≠ .identifier := fun hk => by rw [hk] at ho; cases ho
    obtain ⟨hv, hc⟩ := operators_relation.2 _ op ho
    refine .advance hsu hk (.bind ((tallies_simpleExpression hp).behind _) fun right _ _ =>
      tallies_pure ?_)
    simp [uses, hv, hc]

end

theorem tallies_expression : v.Tallies v.uses 0 expression expression :=
  tallies_nest (K := fun _ => True) expressionLevel_guarded expressionLevel_guarded trivial
    (fun _ _ h =>
      have := h.left
      have := h.right
      have := h.abreast
      ⟨inferInstance, inferInstance, trivial, trivial, inferInstance,
        tallies_expressionLevel h.tallies⟩)
    (fun _ _ => inferInstance) fun _ _ => inferInstance

/-! ## Statements -/

theorem tallies_assignment : v.Tallies v.uses 0 assignment assignment := by
  intro s u hsu
  unfold assignment
  refine .here hsu ?_
  dsimp only
  split
  · rename_i hk
    refine .takeName hsu hk fun target _ => .after fun _ _ _ => ?_
    refine .bind (tallies_expression.behind _) fun value _ _ => tallies_pure ?_
    simp [uses, weight]
  · refine Tallies.ite tallies_endedEarly (.after fun _ _ _ => tallies_pure ?_) s u hsu
    simp [uses]

theorem tallies_argumentTurn (args args' : List Node) :
    v.Tallies (fun o => v.usesIn (o.getD args)) (v.usesIn args) (argumentTurn args)
      (argumentTurn args') := by
  refine .accept (.bind (tallies_expression.behind _) fun arg _ _ => tallies_pure ?_)
    (tallies_pure rfl)
  simp [usesIn, uses, Node.usesIn_append]

theorem tallies_arguments : v.Tallies v.usesIn 0 arguments arguments := by
  refine .after ?_
  rintro k _ rfl
  refine .ite (tallies_pure (by simp [usesIn])) (.bind tallies_expression fun first first' _ => ?_)
  have h := tallies_loop (v := v) tallies_argumentTurn [first] [first']
  have hfirst : v.usesIn [first] = v.uses first := by simp [usesIn, uses]
  rwa [hfirst] at h

theorem tally_procedureCall (hsu : Twin s u) (hk : s.kind = .identifier) :
    v.Tally v.uses 0 procedureCall procedureCall s u := by
  unfold procedureCall
  refine .line hsu (.takeName hsu hk fun id _ => .accept ?_ ?_)
  · refine .bind (tallies_arguments.behind _) fun args _ _ => .after fun _ _ _ => tallies_pure ?_
    simp [uses, weight, usesIn]
  · exact tallies_pure (by simp [uses, weight])

section

variable {p q : Parser Node} (h : v.Inner IsStatementParser p q)

include h

theorem tally_ifStatement (hsu : Twin s u) (hk : s.kind ≠ .identifier) :
    v.Tally v.uses 0 (ifStatement p) (ifStatement q) s u := by
  have := h.left
  have := h.right
  have := h.abreast
  refine .line hsu (.advance hsu hk (.bind tallies_expression fun condition _ _ => ?_))
  refine .after fun _ _ _ => .bind (h.tallies.behind _) fun yes _ _ => .accept ?_ ?_
  · refine .bind (h.tallies.behind _) fun no _ _ => tallies_pure ?_
    simp [uses, Nat.add_assoc]
  · exact tallies_pure (by simp [uses])

theorem tally_whileStatement (hsu : Twin s u) (hk : s.kind ≠ .identifier) :
    v.Tally v.uses 0 (whileStatement p) (whileStatement q) s u := by
  have := h.left
  have := h.right
  have := h.abreast
  refine .line hsu (.advance hsu hk (.bind tallies_expression fun condition _ _ => ?_))
  refine .after fun _ _ _ => .bind (h.tallies.behind _) fun body _ _ => tallies_pure ?_
  simp [uses]

theorem tally_loopStatement (hsu : Twin s u) (hk : s.kind ≠ .identifier) :
    v.Tally v.uses 0 (loopStatement p) (loopStatement q) s u := by
  have := h.left
  have := h.right
  have := h.abreast
  refine .advance hsu hk (.after fun _ _ _ => .after fun _ _ _ => ?_)
  refine .bind tallies_assignment fun initial _ _ => .after fun _ _ _ => ?_
  refine .bind (tallies_expression.behind _) fun condition _ _ => .after fun _ _ _ => ?_
  refine .bind (tallies_assignment.behind _) fun update _ _ => ?_
  refine .after fun _ _ _ => .after fun _ _ _ => ?_
  refine .bind (h.tallies.behind _) fun body _ _ => tallies_pure ?_
  simp [uses]
  omega

/-- The three tests of a WHEN statement use its hidden variable, which is not the watched name. -/
theorem tally_whenStatement (hsu : Twin s u) (hk : s.kind ≠ .identifier) :
    v.Tally v.uses 0 (whenStatement v.settings p) (whenStatement v.other q) s u := by
  have := h.left
  have := h.right
  have := h.abreast
  refine .line hsu (.advance hsu hk fun s₁ u₁ hsu₁ => ?_)
  refine .line hsu₁ (.bind hsu₁ (tallies_expression s₁ u₁ hsu₁) fun value _ _ => ?_)
  refine fun s₂ u₂ hsu₂ => .hidden hsu₂ fun hidden _ hhidden => ?_
  refine .after fun _ _ _ => .bind (h.tallies.behind _) fun negative _ _ => ?_
  refine .after fun _ _ _ => .after fun _ _ _ => .after fun _ _ _ => .after fun _ _ _ => ?_
  refine .bind (h.tallies.behind _) fun zero _ _ => ?_
  refine .after fun _ _ _ => .after fun _ _ _ => ?_
  refine .bind (h.tallies.behind _) fun positive _ _ => tallies_pure ?_
  simp only [weight] at hhidden
  simp [uses, againstZero, hhidden]
  omega

section

variable [SameLimit v.settings v.other]

theorem tallies_listTurn (closer : TokenKind)
    (nodes nodes' : List Node) :
    v.Tallies (fun o => v.usesIn (o.getD nodes)) (v.usesIn nodes)
      (listTurn v.settings p closer nodes) (listTurn v.other q closer nodes') := by
  have := h.left
  have := h.right
  have := h.abreast
  rw [listTurn_eq, listTurn_eq]
  refine .after ?_
  rintro k _ rfl
  refine .ite (tallies_pure rfl) (.bind (h.tallies.behind _) fun node node' _ => ?_)
  exact .after fun _ _ _ => tallies_pure (by simp [usesIn, uses, Node.usesIn_append])

theorem tallies_statementList (closer : TokenKind) [Nameless closer] (missing : Cause) :
    v.Tallies v.usesIn 0 (statementList v.settings p closer missing)
      (statementList v.other q closer missing) := by
  have := h.left
  have := h.right
  have := h.abreast
  have (nodes nodes' : List Node) : Abreast (loop (listTurn v.settings p closer) nodes)
      (loop (listTurn v.other q closer) nodes') :=
    loop_abreast (listTurn_progressive v.settings h.kept closer)
      (listTurn_progressive v.other h.kept' closer) nodes nodes'
  have hloop := tallies_loop (tallies_listTurn h closer) [] []
  have hnil : v.usesIn [] = 0 := by simp [usesIn]
  rw [hnil] at hloop
  exact .bind hloop fun nodes _ _ => .after fun _ _ _ => tallies_pure rfl

theorem tally_compound (hsu : Twin s u) (hk : s.kind ≠ .identifier) :
    v.Tally v.uses 0 (compound v.settings p) (compound v.other q) s u := by
  have := h.left
  have := h.right
  have : Abreast (statementList v.settings p .kwEnd .missingEnd)
      (statementList v.other q .kwEnd .missingEnd) :=
    have := h.abreast
    statementList_abreast h.kept h.kept' _ _
  refine .line hsu (.advance hsu hk ?_)
  refine .bind (tallies_statementList h _ _) fun nodes _ _ => tallies_pure ?_
  simp [uses, usesIn]

theorem tally_repeatStatement (hsu : Twin s u) (hk : s.kind ≠ .identifier) :
    v.Tally v.uses 0 (repeatStatement v.settings p) (repeatStatement v.other q) s u := by
  have := h.left
  have := h.right
  have : Abreast (statementList v.settings p .kwUntil .missingUntil)
      (statementList v.other q .kwUntil .missingUntil) :=
    have := h.abreast
    statementList_abreast h.kept h.kept' _ _
  refine .line hsu (.advance hsu hk (.bind (tallies_statementList h _ _) fun nodes _ _ => ?_))
  refine .after fun _ _ _ => .bind (tallies_expression.behind _) fun condition _ _ =>
    tallies_pure ?_
  simp [uses, usesIn, Node.usesIn_append]

theorem tallies_statementLevel :
    v.Tallies v.uses 0 (statementLevel v.settings p) (statementLevel v.other q) := by
  intro s u hsu
  have hne {k : TokenKind} (hk : s.kind = k) (h : k ≠ .identifier) : s.kind ≠ .identifier :=
    fun hs => h (hk.symm.trans hs)
  have hempty : v.Tallies v.uses 0 emptyStatement emptyStatement :=
    .after fun _ _ _ => tallies_pure (by simp [uses])
  unfold statementLevel
  refine .kind hsu ?_
  cases hk : s.kind
  case kwBegin => exact tally_compound h hsu (hne hk (by decide))
  case identifier =>
    refine .nextKind hsu ?_
    split
    · exact tally_procedureCall hsu hk
    · exact tallies_assignment s u hsu
  case kwIf => exact tally_ifStatement h hsu (hne hk (by decide))
  case kwWhile => exact tally_whileStatement h hsu (hne hk (by decide))
  case kwRepeat => exact tally_repeatStatement h hsu (hne hk (by decide))
  case kwLoop => exact tally_loopStatement h hsu (hne hk (by decide))
  case kwWhen => exact tally_whenStatement h hsu (hne hk (by decide))
  all_goals exact hempty s u hsu

theorem inner_statementLevel :
    v.Inner IsStatementParser (statementLevel v.settings p) (statementLevel v.other q) := by
  have hl := h.left
  have hr := h.right
  have ha := h.abreast
  exact ⟨inferInstance, inferInstance, statementLevel_isStatementParser v.settings,
    statementLevel_isStatementParser v.other, statementLevel_abreast h.kept h.kept',
    tallies_statementLevel h⟩

end

end

section

variable [SameLimit v.settings v.other]

theorem inner_statement :
    v.Inner IsStatementParser (statement v.settings) (statement v.other) :=
  ⟨inferInstance, inferInstance, statement_isStatementParser v.settings,
    statement_isStatementParser v.other, inferInstance,
    tallies_nest (statementLevel_guarded v.settings) (statementLevel_guarded v.other)
      ⟨fun _ _ _ _ h => (by cases h), fun _ _ _ _ h => (by cases h)⟩
      (fun _ _ h => inner_statementLevel h) (fun _ _ => inferInstance) fun _ _ => inferInstance⟩

theorem tallies_program :
    v.Tallies v.uses 0 (program v.settings) (program v.other) := by
  have h := inner_statement (v := v)
  have : Abreast (compound v.settings (statement v.settings))
      (compound v.other (statement v.other)) := compound_abreast h.kept h.kept'
  have : Abreast (statementList v.settings (statement v.settings) .endOfFile .unexpectedEnd)
      (statementList v.other (statement v.other) .endOfFile .unexpectedEnd) :=
    statementList_abreast h.kept h.kept' _ _
  intro s u hsu
  unfold program
  refine .kind hsu ?_
  by_cases hk : s.kind = .kwBegin
  · rw [if_pos hk, if_pos hk]
    refine .bind hsu (tally_compound h hsu (by rw [hk]; decide)) fun root root' _ => ?_
    refine .after fun _ _ _ => .after ?_
    rintro k _ rfl
    exact .ite (.after fun _ _ _ => tallies_pure rfl) (tallies_pure rfl)
  · rw [if_neg hk, if_neg hk]
    refine .line hsu ?_
    refine .bind hsu (tallies_statementList h _ _ s u hsu) fun nodes _ _ => tallies_pure ?_
    simp [uses, usesIn]

end

end Watch

/-! ## The law -/

/-- Where the statement list of a program without BEGIN ends. -/
theorem atEnd_of_statementList {settings : Settings} {inner : Parser Node}
    (hp : IsStatementParser inner) {missing : Cause} {nodes : List Node} {s s' : ParserState}
    (h : statementList settings inner .endOfFile missing s = .ok nodes s') :
    s'.cursor.atEnd = true := by
  obtain ⟨nodes₁, s₁, hloop, h⟩ := bind_eq_ok.mp h
  have hkind : s₁.kind = .endOfFile := (listLoop_closes settings hp hloop).elim id id
  have hend : s₁.cursor.atEnd = true := by rw [atEnd_eq, hkind]; rfl
  obtain ⟨_, s₂, hexpect, h⟩ := bind_eq_ok.mp h
  cases h
  rcases expect_eq_ok hexpect with ⟨-, rfl⟩ | ⟨hne, -⟩
  · unfold ParserState.advance
    rwa [Cursor.advance_of_atEnd hend]
  · exact absurd hkind hne

/-- The names of the hidden variables that the WHEN statements of this run have made. These are the
statements whose expression was read, as `isTemporary_iff` says. What such a variable is called
never matters to the run, so the variable of a line was made when the table has it whatever the stem
is: no identifier is written like it under every stem. -/
def IsTemporary (settings : Settings) (ts : List Token) (name : String) : Prop :=
  ∃ line, name = settings.whenName line ∧ ∀ stem, { settings with whenStem := stem }.whenName line ∈
    (stateBehind (program { settings with whenStem := stem } (.start ts {}))).symbols.names

theorem whenName_injective (settings : Settings) {line line' : Nat}
    (h : settings.whenName line = settings.whenName line') : line = line' := by
  have hdigits := congrArg String.toList h
  rw [toList_whenName, toList_whenName, List.append_cancel_left_eq] at hdigits
  exact toDigits_injective hdigits

/-- For a name that is not temporary there is another stem under which the run has no hidden
variable in its place. -/
theorem exists_stem {settings : Settings} {ts : List Token} {name : String}
    (h : ¬ IsTemporary settings ts name) :
    ∃ stem, ∀ line, settings.whenName line = name →
      { settings with whenStem := stem }.whenName line ∉
        (stateBehind (program { settings with whenStem := stem }
          (.start ts {}))).symbols.names := by
  by_cases hline : ∃ line, settings.whenName line = name
  · obtain ⟨line, hname⟩ := hline
    unfold IsTemporary at h
    push Not at h
    obtain ⟨stem, hstem⟩ := h line hname.symm
    refine ⟨stem, fun line' hname' => ?_⟩
    rwa [whenName_injective settings (hname'.trans hname.symm)]
  · exact ⟨"", fun line hname => absurd ⟨line, hname⟩ hline⟩

/-- A name is used as often as it was passed, where a run under some stem keeps it from every hidden
variable. -/
theorem uses_eq_mentions {settings : Settings} {ts : List Token} {tree : Node} {s' : ParserState}
    (h : program settings (.start ts {}) = .ok tree s') {name : String} (stem : String)
    (hstem : ∀ line, settings.whenName line = name →
      { settings with whenStem := stem }.whenName line ∉
        (stateBehind (program { settings with whenStem := stem }
          (.start ts {}))).symbols.names) :
    tree.uses s'.symbols name = s'.mentions name := by
  let v : Watch := ⟨settings, { settings with whenStem := stem }, s'.symbols, name⟩
  have : SameLimit v.settings v.other := ⟨rfl⟩
  have htally := Watch.tallies_program (v := v) _ _ (twin_start ts {}) tree s' h hstem
    (List.prefix_refl _)
  have hnone : (ParserState.start ts {}).mentions name = 0 := by
    rw [mentions, identifiers, start_passed]
    rfl
  have htotal : tree.uses s'.symbols name + (ParserState.start ts {}).mentions name =
      0 + s'.mentions name := htally
  omega

/-- Panic mode neither loses an identifier nor uses one twice: whatever errors were noted, each
identifier that the parse of a row has passed is used once in the tree, as an operand or as a call.
Without a BEGIN in front, these are all identifiers up to the end. -/
theorem every_identifier_is_used_once (settings : Settings) (ts : List Token) {tree : Node}
    {s' : ParserState} (h : program settings (.start ts {}) = .ok tree s') :
    (∀ name, ¬ IsTemporary settings ts name →
      tree.uses s'.symbols name = s'.mentions name) ∧
    ((ParserState.start ts {}).kind ≠ .kwBegin → s'.cursor.atEnd = true) := by
  constructor
  · intro name hname
    obtain ⟨stem, hstem⟩ := exists_stem hname
    exact uses_eq_mentions h stem hstem
  · intro hk
    unfold program at h
    rw [kind_bind, if_neg hk, line_bind] at h
    obtain ⟨nodes, s₁, hlist, h⟩ := bind_eq_ok.mp h
    cases h
    exact atEnd_of_statementList (statement_isStatementParser settings) hlist

/-- The tokens of `X WHEN $when_1 IF`, where the assignment passes over a WHEN to a name that is
written like a hidden variable. -/
def passedTokens : List Token :=
  let token k text n := ⟨k, text, none, .between n (n + text.length), ⟨1, n + 1⟩⟩
  [token .identifier "X" 0, token .kwWhen "WHEN" 2, token .identifier "$when_1" 7,
    token .comma "," 15, token .identifier "x" 17, token .endOfFile "" 18]

theorem not_isTemporary_passedTokens : ¬ IsTemporary {} passedTokens "$when_1" := by
  rintro ⟨line, hname, h⟩
  have hone : ({} : Settings).whenName 1 = "$when_1" := by decide +kernel
  obtain rfl := whenName_injective {} (hone.trans hname)
  exact absurd (h "A") (by decide +kernel)

theorem passedTokens_are_used :
    ∃ tree s', program {} (.start passedTokens {}) = .ok tree s' ∧ s'.errorCount = 3 ∧
      s'.mentions "$when_1" = 1 ∧ tree.uses s'.symbols "$when_1" = s'.mentions "$when_1" ∧
      s'.cursor.atEnd = true := by
  have h : ((program {}).runFrom (.start passedTokens {})).1.isOk = true ∧
      ((program {}).runFrom (.start passedTokens {})).2.errorCount = 3 ∧
      ((program {}).runFrom (.start passedTokens {})).2.mentions "$when_1" = 1 := by
    decide +kernel
  unfold runFrom at h
  rcases hr : program {} (.start passedTokens {}) with ⟨tree, s'⟩ | ⟨e, s'⟩
  · rw [hr] at h
    have hlaw := every_identifier_is_used_once {} passedTokens hr
    exact ⟨tree, s', rfl, h.2.1, h.2.2, hlaw.1 _ not_isTemporary_passedTokens,
      hlaw.2 (by decide +kernel)⟩
  · rw [hr] at h
    cases h.1

end Parser

end PascalFront
