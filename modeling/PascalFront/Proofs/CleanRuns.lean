-- Runs without a diagnostic. Such a run took the branch without a fault at every
-- choice, so what it passed is a sentence of the grammar. No diagnostic ever
-- goes away, so each part of a clean run is clean.
import PascalFront.Proofs.Progress
import PascalFront.Proofs.Grammar

namespace PascalFront

namespace ParserState

theorem upcoming_advance {s : ParserState} (h : s.cursor.atEnd = false) :
    s.upcoming = s.here :: s.advance.upcoming := Cursor.upcoming_eq_cons h

theorem kind_eq_ahead (s : ParserState) : s.kind = kindAhead s.upcoming := by
  have h : s.upcoming.head? = some s.here := Cursor.head?_upcoming s.cursor
  simp [kindAhead, h, kind]

theorem line_eq_ahead (s : ParserState) : s.line = lineAhead s.upcoming := by
  have h : s.upcoming.head? = some s.here := Cursor.head?_upcoming s.cursor
  simp [lineAhead, h, line]

/-- Nothing is noted yet. -/
def Clean (s : ParserState) : Prop := s.diagnostics = #[]

theorem Before.clean {s s' : ParserState} (h : s.Before s') (hc : s'.Clean) : s.Clean := by
  have hp := h.diagnostics
  unfold Clean at *
  rw [hc, Array.toList_empty, List.prefix_nil] at hp
  exact Array.toList_eq_nil_iff.mp hp

theorem not_clean_flag (s : ParserState) (cause : Cause) : ¬ (s.flag cause).Clean := by
  simp [Clean, ParserState.flag, note]

end ParserState

namespace Parser

open ParserState ResumePoints

/-! ## Clean runs of the small parsers -/

/-- A run that ends with a result and no diagnostic. -/
structure CleanRun (p : Parser α) (s : ParserState) (a : α) (s' : ParserState) : Prop where
  run : p s = .ok a s'
  clean : s'.Clean

theorem CleanRun.start {p : Parser α} [Stepwise p] {s s' : ParserState} {a : α}
    (h : CleanRun p s a s') : s.Clean := (Stepwise.ok h.run).before.clean h.clean

theorem cleanRun_bind {p : Parser α} {f : α → Parser β} [∀ a, Stepwise (f a)]
    {s s' : ParserState} {b : β} (h : CleanRun (p >>= f) s b s') :
    ∃ a s₁, CleanRun p s a s₁ ∧ CleanRun (f a) s₁ b s' := by
  obtain ⟨a, s₁, hp, hf⟩ := bind_eq_ok.mp h.run
  have hfa : CleanRun (f a) s₁ b s' := ⟨hf, h.clean⟩
  exact ⟨a, s₁, ⟨hp, hfa.start⟩, hfa⟩

section

variable {s s' : ParserState} {u : Unit} {k : TokenKind}

theorem CleanRun.advance (h : CleanRun advance s u s') (hk : s.kind = k) (hend : k ≠ .endOfFile) :
    ∃ t, t.kind = k ∧ t.line = s.line ∧ s.upcoming = t :: s'.upcoming := by
  have hr := h.run
  cases hr
  exact ⟨s.here, hk, rfl, upcoming_advance (atEnd_of_kind hk hend)⟩

theorem CleanRun.accept {b : Bool} (h : CleanRun (accept k) s b s') (hend : k ≠ .endOfFile) :
    (b = true ∧ ∃ t, t.kind = k ∧ s.upcoming = t :: s'.upcoming) ∨
      (b = false ∧ s.kind ≠ k ∧ s' = s) := by
  rcases accept_eq_ok h.run with ⟨hb, hk, rfl⟩ | hcase
  · exact Or.inl ⟨hb, s.here, hk, upcoming_advance (atEnd_of_kind hk hend)⟩
  · exact Or.inr hcase

theorem CleanRun.expect {missing : Cause} (h : CleanRun (expect k missing) s u s')
    (hend : k ≠ .endOfFile) :
    ∃ t, t.kind = k ∧ t.line = s.line ∧ s.upcoming = t :: s'.upcoming := by
  have hr := h.run
  unfold Parser.expect at hr
  split at hr
  · rename_i hk
    cases hr
    exact ⟨s.here, hk, rfl, upcoming_advance (atEnd_of_kind hk hend)⟩
  · cases hr
    exact absurd h.clean (not_clean_flag s missing)

theorem CleanRun.resumeAt {set : KindSet} (h : CleanRun (resumeAt set) s u s') : s' = s := by
  have hr := h.run
  unfold Parser.resumeAt at hr
  cases hr
  have hc := h.clean
  unfold ParserState.resumeAt at hc ⊢
  by_cases hstop : (set.contains s.kind || s.cursor.atEnd) = true
  · rw [if_pos hstop]
  · rw [if_neg hstop] at hc
    exact absurd hc (not_clean_flag s _)

theorem CleanRun.expectIn {set : KindSet} {missing : Cause}
    (h : CleanRun (expectIn set k missing) s u s') (hend : k ≠ .endOfFile) :
    ∃ t, t.kind = k ∧ s.upcoming = t :: s'.upcoming := by
  obtain ⟨_, s₁, hset, hk⟩ := cleanRun_bind h
  rw [hset.resumeAt] at hk
  obtain ⟨t, ht, -, hu⟩ := hk.expect hend
  exact ⟨t, ht, hu⟩

theorem CleanRun.takeName {id : SymbolId} (h : CleanRun takeName s id s')
    (hk : s.kind = .identifier) :
    ∃ t, t.kind = .identifier ∧ t.asName = s.here.asName ∧ s.upcoming = t :: s'.upcoming := by
  have hr := h.run
  rw [takeName_eq] at hr
  cases hr
  exact ⟨s.here, hk, rfl, upcoming_advance (atEnd_of_kind hk (by decide))⟩

theorem CleanRun.optionalSemicolon {b : Bool} (h : CleanRun (Parser.accept .semicolon) s b s') :
    OptionalSemicolon s.upcoming s'.upcoming := by
  rcases h.accept (by decide) with ⟨-, t, ht, hu⟩ | ⟨-, -, rfl⟩
  · rw [hu]
    exact .present ht
  · exact .absent

end

/-! ## Expressions -/

/-- A clean run passes a phrase. -/
def Passes (layer : Layer) (p : Parser Node) : Prop :=
  ∀ s n s', CleanRun p s n s' → ∃ e, Phrase layer s.upcoming e s'.upcoming

theorem exists_constant {t : Token} (h : t.kind = .integer ∨ t.kind = .real ∨ t.kind = .string) :
    ∃ v, t.constant? = some v := by
  unfold Token.constant?
  rcases h with h | h | h <;> rw [h] <;> rcases t.value with _ | ⟨_ | _ | _ | _⟩ <;>
    exact ⟨_, rfl⟩

theorem constant_passes {t : Token} {n m : Node} {s s' : ParserState} (ht : s.here = t)
    (hk : t.kind = .integer ∨ t.kind = .real ∨ t.kind = .string)
    (h : CleanRun (constant n) s m s') : ∃ e, Phrase .factor s.upcoming e s'.upcoming := by
  obtain ⟨v, hv⟩ := exists_constant hk
  have hend : s.cursor.atEnd = false := by
    rw [atEnd_eq, ParserState.kind, ht]
    rcases hk with h | h | h <;> rw [h] <;> rfl
  have hr := h.run
  unfold constant at hr
  cases hr
  refine ⟨.literal v, ?_⟩
  rw [upcoming_advance hend, ht]
  exact .literal hv

section

variable {inner : Parser Node} [Stepwise inner]

theorem operand_passes (hi : Passes .expression inner) : Passes .factor (operand inner) := by
  intro s n s' h
  obtain ⟨hr, hc⟩ := h
  unfold operand at hr
  rw [here_bind] at hr
  cases hk : s.here.kind
  case identifier =>
    rw [hk] at hr
    obtain ⟨id, s₁, hname, h⟩ := cleanRun_bind ⟨hr, hc⟩
    cases h.run
    obtain ⟨t, ht, -, hu⟩ := hname.takeName hk
    rw [hu]
    exact ⟨_, .name ht⟩
  case integer =>
    rw [hk] at hr
    exact constant_passes rfl (Or.inl hk) ⟨hr, hc⟩
  case real =>
    rw [hk] at hr
    exact constant_passes rfl (Or.inr (Or.inl hk)) ⟨hr, hc⟩
  case string =>
    rw [hk] at hr
    exact constant_passes rfl (Or.inr (Or.inr hk)) ⟨hr, hc⟩
  case leftParen =>
    rw [hk] at hr
    obtain ⟨_, s₁, hopen, h⟩ := cleanRun_bind ⟨hr, hc⟩
    obtain ⟨e, s₂, he, h⟩ := cleanRun_bind h
    obtain ⟨_, s₃, hclose, h⟩ := cleanRun_bind h
    cases h.run
    obtain ⟨t, ht, -, hu⟩ := hopen.advance hk (by decide)
    obtain ⟨u, hu', -, hu₂⟩ := hclose.expect (by decide)
    obtain ⟨e, hphrase⟩ := hi _ _ _ he
    rw [hu₂] at hphrase
    rw [hu]
    exact ⟨e, .parens ht hphrase hu'⟩
  case endOfFile =>
    rw [hk] at hr
    cases hr
  all_goals
    rw [hk] at hr
    cases hr
    exact absurd hc (not_clean_flag s _)

theorem factor_passes (hi : Passes .expression inner) : Passes .factor (factor inner) := by
  intro s n s' h
  obtain ⟨k, s₁, hnots, h⟩ := cleanRun_bind h
  obtain ⟨e, s₂, he, h⟩ := cleanRun_bind h
  cases h.run
  -- What NOTs in front make of a factor is a factor.
  have hprefix : ∀ e rest, Phrase .factor s₁.upcoming e rest →
      ∃ e', Phrase .factor s.upcoming e' rest := by
    refine loop_invariant (I := fun _ s₁ => ∀ e rest, Phrase .factor s₁.upcoming e rest →
      ∃ e', Phrase .factor s.upcoming e' rest) ?_ (fun e rest h => ⟨e, h⟩) hnots.run
    intro k s₁ o s₂ hI ht
    rcases negationTurn_eq_ok ht with ⟨rfl, hk, rfl⟩ | ⟨rfl, rfl⟩
    · intro e rest he
      refine hI (.not e) rest ?_
      rw [upcoming_advance (atEnd_of_kind hk (by decide))]
      exact .not hk he
    · exact hI
  obtain ⟨e, hphrase⟩ := operand_passes hi _ _ _ he
  exact hprefix e _ hphrase

theorem chain_passes {operator? : TokenKind → Option NodeKind} {layer below : Layer}
    (hop : ∀ k n, operator? k = some n → ∃ op : Operator, op.token = k ∧ op.layer = layer)
    (hstep : ∀ {t : Token} {ts mid rest : List Token} {op : Operator} {left right : Expr},
      op.layer = layer → Phrase layer ts left (t :: mid) → t.kind = op.token →
      Phrase below mid right rest → Phrase layer ts (.binary op left right) rest)
    (hi : Passes below inner) {ts : List Token} {first n : Node} {s s' : ParserState} {e : Expr}
    (hf : Phrase layer ts e s.upcoming) (h : CleanRun (chain operator? inner first) s n s') :
    ∃ e, Phrase layer ts e s'.upcoming := by
  refine loop_invariant (I := fun _ s => s.Clean → ∃ e, Phrase layer ts e s.upcoming) ?_
    (fun _ => ⟨e, hf⟩) h.run h.clean
  intro left s o s' hl ht hc
  obtain ⟨l, hl⟩ := hl ((Stepwise.ok ht).before.clean hc)
  rcases chainTurn_eq_ok ht with ⟨-, -, rfl⟩ | ⟨node, right, ho, hr, -⟩
  · exact ⟨l, hl⟩
  · obtain ⟨op, htoken, hlayer⟩ := hop _ _ ho
    obtain ⟨r, hr⟩ := hi _ _ _ ⟨hr, hc⟩
    rw [upcoming_advance (atEnd_of_kind htoken.symm (by cases op <;> decide))] at hl
    exact ⟨_, hstep hlayer hl htoken.symm hr⟩

theorem relation?_operator (k : TokenKind) (n : NodeKind) (h : relation? k = some n) :
    ∃ op : Operator, op.token = k ∧ op.layer = .expression := by
  cases k <;> cases h
  exacts [⟨.equal, rfl, rfl⟩, ⟨.notEqual, rfl, rfl⟩, ⟨.less, rfl, rfl⟩, ⟨.lessEqual, rfl, rfl⟩,
    ⟨.greaterEqual, rfl, rfl⟩, ⟨.greater, rfl, rfl⟩]

theorem sum?_operator (k : TokenKind) (n : NodeKind) (h : sum? k = some n) :
    ∃ op : Operator, op.token = k ∧ op.layer = .simple := by
  cases k <;> cases h
  exacts [⟨.or, rfl, rfl⟩, ⟨.plus, rfl, rfl⟩, ⟨.minus, rfl, rfl⟩]

theorem product?_operator (k : TokenKind) (n : NodeKind) (h : product? k = some n) :
    ∃ op : Operator, op.token = k ∧ op.layer = .term := by
  cases k <;> cases h
  exacts [⟨.and, rfl, rfl⟩, ⟨.div, rfl, rfl⟩, ⟨.mod, rfl, rfl⟩, ⟨.times, rfl, rfl⟩,
    ⟨.slash, rfl, rfl⟩]

theorem term_passes (hi : Passes .expression inner) : Passes .term (term inner) := by
  intro s n s' h
  obtain ⟨first, s₁, hf, h⟩ := cleanRun_bind h
  obtain ⟨e, he⟩ := factor_passes hi _ _ _ hf
  exact chain_passes product?_operator .product (factor_passes hi) (.factor he) h

theorem simpleExpression_passes (hi : Passes .expression inner) :
    Passes .simple (simpleExpression inner) := by
  intro s n s' h
  obtain ⟨s₀, first, s₁, hsign, hf, hrest⟩ := simpleExpression_eq_ok h.run
  have hchain : CleanRun (chain sum? (term inner) _) s₁ n s' := ⟨hrest, h.clean⟩
  obtain ⟨e, he⟩ := term_passes hi _ _ _ ⟨hf, hchain.start⟩
  have hfirst : ∃ e, Phrase .simple s.upcoming e s₁.upcoming := by
    rcases hsign with ⟨hk | hk, rfl⟩ | ⟨-, rfl⟩
    · rw [upcoming_advance (atEnd_of_kind hk (by decide))]
      exact ⟨_, .plus hk he⟩
    · rw [upcoming_advance (atEnd_of_kind hk (by decide))]
      exact ⟨_, .minus hk he⟩
    · exact ⟨e, .term he⟩
  obtain ⟨e, he⟩ := hfirst
  exact chain_passes sum?_operator .sum (term_passes hi) he hchain

theorem expressionLevel_passes (hi : Passes .expression inner) :
    Passes .expression (expressionLevel inner) := by
  intro s n s' h
  obtain ⟨left, s₁, hl, hcase⟩ := expressionLevel_eq_ok h.run
  rcases hcase with ⟨-, -, rfl⟩ | ⟨node, right, ho, hr, -⟩
  · obtain ⟨l, hleft⟩ := simpleExpression_passes hi _ _ _ ⟨hl, h.clean⟩
    exact ⟨l, .simple hleft⟩
  · have hright : CleanRun (simpleExpression inner) s₁.advance right s' := ⟨hr, h.clean⟩
    have hc₁ : s₁.Clean := (steps_advance s₁).before.clean hright.start
    obtain ⟨op, htoken, hlayer⟩ := relation?_operator _ _ ho
    obtain ⟨l, hleft⟩ := simpleExpression_passes hi _ _ _ ⟨hl, hc₁⟩
    obtain ⟨r, hright⟩ := simpleExpression_passes hi _ _ _ hright
    rw [upcoming_advance (atEnd_of_kind htoken.symm (by cases op <;> decide))] at hleft
    exact ⟨_, .relation hlayer hleft htoken.symm hright⟩

end

theorem expression_passes : Passes .expression expression := by
  suffices h : ∀ s n s', expression s = .ok n s' → s'.Clean →
      ∃ e, Phrase .expression s.upcoming e s'.upcoming from
    fun s n s' hr => h s n s' hr.run hr.clean
  intro s
  refine expression_induction (R := fun s r => ∀ n s', r = .ok n s' → s'.Clean →
    ∃ e, Phrase .expression s.upcoming e s'.upcoming) ?_ ?_ s
  · exact fun _ _ _ h => (by cases h)
  · exact fun inner _ h s n s' hr hc =>
      expressionLevel_passes (fun s n s' hr => h s n s' hr.run hr.clean) s n s' ⟨hr, hc⟩

end Parser

end PascalFront
