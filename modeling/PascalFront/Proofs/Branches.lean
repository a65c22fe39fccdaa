-- What a run of each parser can be, by the token that comes next. The proofs
-- about parsers go by these cases and do not open the parsers again.
import PascalFront.Proofs.Steps

namespace PascalFront.Parser

open ParserState ResumePoints

/-! ## One look at the state -/

theorem here_bind (f : Token → Parser α) (s : ParserState) : (here >>= f) s = f s.here s := rfl

theorem kind_bind (f : TokenKind → Parser α) (s : ParserState) : (kind >>= f) s = f s.kind s := rfl

theorem nextKind_bind (f : TokenKind → Parser α) (s : ParserState) :
    (nextKind >>= f) s = f s.cursor.second.kind s := rfl

theorem line_bind (f : Nat → Parser α) (s : ParserState) : (line >>= f) s = f s.line s := rfl

theorem advance_bind (f : Unit → Parser α) (s : ParserState) :
    (advance >>= f) s = f () s.advance := rfl

theorem takeName_eq (s : ParserState) :
    takeName s = .ok (s.enter (caseFold s.here.text) s.line).1
      (s.enter (caseFold s.here.text) s.line).2.advance := rfl

section

variable {s s' : ParserState}

theorem accept_eq_ok {k : TokenKind} {b : Bool} (h : accept k s = .ok b s') :
    (b = true ∧ s.kind = k ∧ s' = s.advance) ∨ (b = false ∧ s.kind ≠ k ∧ s' = s) := by
  unfold accept at h
  by_cases hk : s.kind = k
  · rw [if_pos hk] at h
    cases h
    exact Or.inl ⟨rfl, hk, rfl⟩
  · rw [if_neg hk] at h
    cases h
    exact Or.inr ⟨rfl, hk, rfl⟩

theorem accept_bind_of_kind {k : TokenKind} (h : s.kind = k) (f : Bool → Parser α) :
    (accept k >>= f) s = f true s.advance := by
  rw [bind_apply]
  unfold accept
  rw [if_pos h]

theorem accept_bind_of_ne {k : TokenKind} (h : s.kind ≠ k) (f : Bool → Parser α) :
    (accept k >>= f) s = f false s := by
  rw [bind_apply]
  unfold accept
  rw [if_neg h]

theorem expect_eq_ok {k : TokenKind} {missing : Cause} {u : Unit}
    (h : expect k missing s = .ok u s') :
    (s.kind = k ∧ s' = s.advance) ∨ (s.kind ≠ k ∧ s' = s.flag missing) := by
  unfold expect at h
  by_cases hk : s.kind = k
  · rw [if_pos hk] at h
    cases h
    exact .inl ⟨hk, rfl⟩
  · rw [if_neg hk] at h
    cases h
    exact .inr ⟨hk, rfl⟩

theorem checkLimit_eq_ok {settings : Settings} {u : Unit} (h : checkLimit settings s = .ok u s') :
    s.errorCount ≤ settings.maxErrors ∧ s' = s := by
  unfold checkLimit at h
  by_cases hcount : settings.maxErrors < s.errorCount
  · rw [if_pos hcount] at h
    cases h
  · rw [if_neg hcount] at h
    cases h
    exact ⟨Nat.le_of_not_lt hcount, rfl⟩

/-! ## Expressions -/

theorem negationTurn_eq_ok {n : Nat} {o : Option Nat} (h : negationTurn n s = .ok o s') :
    (o = some (n + 1) ∧ s.kind = .kwNot ∧ s' = s.advance) ∨ (o = none ∧ s' = s) := by
  unfold negationTurn at h
  obtain ⟨b, s₁, hb, hrest⟩ := bind_eq_ok.mp h
  rcases accept_eq_ok hb with ⟨rfl, hk, rfl⟩ | ⟨rfl, -, rfl⟩
  · cases hrest
    exact Or.inl ⟨rfl, hk, rfl⟩
  · cases hrest
    exact Or.inr ⟨rfl, rfl⟩

theorem chainTurn_eq_ok {operator? : TokenKind → Option NodeKind} {item : Parser Node}
    {left : Node} {o : Option Node} (h : chainTurn operator? item left s = .ok o s') :
    (operator? s.kind = none ∧ o = none ∧ s' = s) ∨
      ∃ op right, operator? s.kind = some op ∧ item s.advance = .ok right s' ∧
        o = some (.binary op left right) := by
  unfold chainTurn at h
  rw [kind_bind] at h
  rcases ho : operator? s.kind with _ | op
  · rw [ho] at h
    cases h
    exact Or.inl ⟨rfl, rfl, rfl⟩
  · rw [ho] at h
    dsimp only at h
    rw [advance_bind] at h
    obtain ⟨right, s₁, hright, hrest⟩ := bind_eq_ok.mp h
    cases hrest
    exact Or.inr ⟨op, right, rfl, hright, rfl⟩

/-- A sign in front is passed; then come a term and the rest of the sum. -/
theorem simpleExpression_eq_ok {inner : Parser Node} {n : Node}
    (h : simpleExpression inner s = .ok n s') : ∃ s₀ first s₁,
      ((s.kind = .plus ∨ s.kind = .minus) ∧ s₀ = s.advance ∨
        ¬(s.kind = .plus ∨ s.kind = .minus) ∧ s₀ = s) ∧
      term inner s₀ = .ok first s₁ ∧
      chain sum? (term inner) (if s.kind = .minus then .operator .negate [first] else first) s₁ =
        .ok n s' := by
  unfold simpleExpression at h
  dsimp only at h
  rw [kind_bind] at h
  by_cases hk : s.kind = .plus ∨ s.kind = .minus
  · rw [if_pos hk, advance_bind] at h
    obtain ⟨first, s₁, hfirst, hrest⟩ := bind_eq_ok.mp h
    exact ⟨s.advance, first, s₁, Or.inl ⟨hk, rfl⟩, hfirst, hrest⟩
  · rw [if_neg hk] at h
    obtain ⟨first, s₁, hfirst, hrest⟩ := bind_eq_ok.mp h
    exact ⟨s, first, s₁, Or.inr ⟨hk, rfl⟩, hfirst, hrest⟩

theorem expressionLevel_eq_ok {inner : Parser Node} {n : Node}
    (h : expressionLevel inner s = .ok n s') : ∃ left s₁,
      simpleExpression inner s = .ok left s₁ ∧
      ((relation? s₁.kind = none ∧ n = left ∧ s' = s₁) ∨
        ∃ op right, relation? s₁.kind = some op ∧
          simpleExpression inner s₁.advance = .ok right s' ∧ n = .binary op left right) := by
  unfold expressionLevel at h
  obtain ⟨left, s₁, hleft, h⟩ := bind_eq_ok.mp h
  refine ⟨left, s₁, hleft, ?_⟩
  rw [kind_bind] at h
  rcases ho : relation? s₁.kind with _ | op
  · rw [ho] at h
    cases h
    exact Or.inl ⟨rfl, rfl, rfl⟩
  · rw [ho] at h
    dsimp only at h
    rw [advance_bind] at h
    obtain ⟨right, s₂, hright, hrest⟩ := bind_eq_ok.mp h
    cases hrest
    exact Or.inr ⟨op, right, rfl, hright, rfl⟩

/-! ## Statements -/

theorem argumentTurn_eq_ok {args : List Node} {o : Option (List Node)}
    (h : argumentTurn args s = .ok o s') :
    (o = none ∧ s' = s) ∨ ∃ arg, s.kind = .comma ∧ expression s.advance = .ok arg s' ∧
      o = some (args ++ [arg]) := by
  unfold argumentTurn at h
  obtain ⟨b, s₁, hb, hrest⟩ := bind_eq_ok.mp h
  rcases accept_eq_ok hb with ⟨rfl, hk, rfl⟩ | ⟨rfl, -, rfl⟩
  · rw [if_pos rfl] at hrest
    obtain ⟨arg, s₂, harg, hlast⟩ := bind_eq_ok.mp hrest
    cases hlast
    exact Or.inr ⟨arg, hk, harg, rfl⟩
  · cases hrest
    exact Or.inl ⟨rfl, rfl⟩

/-- The tokens that open a statement. -/
def statementOpeners : List TokenKind :=
  [.kwBegin, .identifier, .kwIf, .kwWhile, .kwRepeat, .kwLoop, .kwWhen]

/-- A statement list takes these tokens, and semicolons, for the start of a statement. -/
theorem statementStart_contains (k : TokenKind) :
    statementStart.contains k = true ↔ k ∈ statementOpeners ∨ k = .semicolon := by
  cases k <;> decide

variable {inner : Parser Node} (settings : Settings)

/-- How a statement can be read: by the parser for the token that opens it, or as the empty
statement. -/
inductive StatementRun (settings : Settings) (inner : Parser Node) (s : ParserState) (n : Node)
    (s' : ParserState) : Prop
  | compound : s.kind = .kwBegin → compound settings inner s = .ok n s' →
      StatementRun settings inner s n s'
  | call : s.kind = .identifier → procedureCall s = .ok n s' → StatementRun settings inner s n s'
  | assignment : s.kind = .identifier → assignment s = .ok n s' →
      StatementRun settings inner s n s'
  | branch : s.kind = .kwIf → ifStatement inner s = .ok n s' → StatementRun settings inner s n s'
  | whileLoop : s.kind = .kwWhile → whileStatement inner s = .ok n s' →
      StatementRun settings inner s n s'
  | repeatLoop : s.kind = .kwRepeat → repeatStatement settings inner s = .ok n s' →
      StatementRun settings inner s n s'
  | countingLoop : s.kind = .kwLoop → loopStatement inner s = .ok n s' →
      StatementRun settings inner s n s'
  | sign : s.kind = .kwWhen → whenStatement settings inner s = .ok n s' →
      StatementRun settings inner s n s'
  | empty : s.kind ∉ statementOpeners → n = .statement .noOp s.line [] → s' = s →
      StatementRun settings inner s n s'

theorem statementLevel_of_not_opener (hk : s.kind ∉ statementOpeners) :
    statementLevel settings inner s = .ok (.statement .noOp s.line []) s := by
  unfold statementLevel
  rw [kind_bind]
  revert hk
  cases s.kind <;> first | (intro _; rfl) | (intro hk; exact absurd (by decide) hk)

theorem statementLevel_eq_ok {n : Node} (h : statementLevel settings inner s = .ok n s') :
    StatementRun settings inner s n s' := by
  by_cases hopen : s.kind ∈ statementOpeners
  · unfold statementLevel at h
    rw [kind_bind] at h
    simp only [statementOpeners, List.mem_cons, List.not_mem_nil, or_false] at hopen
    rcases hopen with hk | hk | hk | hk | hk | hk | hk <;> rw [hk] at h
    · exact .compound hk h
    · simp only [nextKind_bind] at h
      split at h
      · exact .call hk h
      · exact .assignment hk h
    · exact .branch hk h
    · exact .whileLoop hk h
    · exact .repeatLoop hk h
    · exact .countingLoop hk h
    · exact .sign hk h
  · rw [statementLevel_of_not_opener settings hopen] at h
    cases h
    exact .empty hopen rfl rfl

/-- How a turn of a statement list goes on: behind a semicolon, with a diagnostic in front of the
start of a statement, at the end of the list, or behind a token that belongs nowhere. -/
theorem listTurn_eq_some {closer : TokenKind} {nodes nodes' : List Node}
    (h : listTurn settings inner closer nodes s = .ok (some nodes') s') :
    s.kind ≠ closer ∧ s.kind ≠ .endOfFile ∧
      ∃ node s₁, inner s = .ok node s₁ ∧ nodes' = nodes ++ [node] ∧
        s₁.errorCount ≤ settings.maxErrors ∧
        (s₁.kind = .semicolon ∧ s' = s₁.advance ∨
          s₁.kind ∈ statementOpeners ∧ s' = s₁.flag .missingSemicolon ∨
          s₁.kind ∉ statementOpeners ∧ (s₁.kind = closer ∨ s₁.kind = .endOfFile) ∧ s' = s₁ ∨
          s₁.kind ∉ statementOpeners ∧ s₁.kind ≠ closer ∧ s₁.kind ≠ .endOfFile ∧
            s' = (s₁.flag .unexpectedToken).advance) := by
  unfold listTurn at h
  dsimp only at h
  rw [kind_bind] at h
  split at h
  · cases h
  · rename_i hk
    simp only [not_or] at hk
    refine ⟨hk.1, hk.2, ?_⟩
    obtain ⟨node, s₁, hnode, hcheck⟩ := bind_eq_ok.mp h
    obtain ⟨_, s₂, hlimit, hsemicolon⟩ := bind_eq_ok.mp hcheck
    obtain ⟨hle, rfl⟩ := checkLimit_eq_ok hlimit
    refine ⟨node, s₂, hnode, ?_⟩
    obtain ⟨semicolon, s₃, haccept, hrest⟩ := bind_eq_ok.mp hsemicolon
    rcases accept_eq_ok haccept with ⟨rfl, hs, rfl⟩ | ⟨rfl, hs, rfl⟩
    · cases hrest
      exact ⟨rfl, hle, Or.inl ⟨hs, rfl⟩⟩
    · simp only [Bool.not_false, if_true, kind_bind] at hrest
      split at hrest
      · rename_i hstart
        cases hrest
        have := (statementStart_contains _).mp hstart
        exact ⟨rfl, hle, Or.inr (Or.inl ⟨by simpa [hs] using this, rfl⟩)⟩
      · rename_i hstart
        have hno : s₃.kind ∉ statementOpeners := fun ho =>
          hstart ((statementStart_contains _).mpr (Or.inl ho))
        split at hrest
        · rename_i hne
          cases hrest
          exact ⟨rfl, hle, Or.inr (Or.inr (Or.inr ⟨hno, hne.1, hne.2, rfl⟩))⟩
        · rename_i hne
          cases hrest
          refine ⟨rfl, hle, Or.inr (Or.inr (Or.inl ⟨hno, ?_, rfl⟩))⟩
          by_contra hc
          exact hne (not_or.mp hc)

/-- A turn that is the last one leaves all as it is: the list is closed there. -/
theorem listTurn_eq_none {closer : TokenKind} {nodes : List Node}
    (h : listTurn settings inner closer nodes s = .ok none s') :
    (s.kind = closer ∨ s.kind = .endOfFile) ∧ s' = s := by
  unfold listTurn at h
  dsimp only at h
  rw [kind_bind] at h
  split at h
  · rename_i hclosed
    cases h
    exact ⟨hclosed, rfl⟩
  · obtain ⟨node, s₁, -, h⟩ := bind_eq_ok.mp h
    obtain ⟨_, s₂, -, h⟩ := bind_eq_ok.mp h
    obtain ⟨b, s₃, -, h⟩ := bind_eq_ok.mp h
    split at h
    · rw [kind_bind] at h
      split at h
      · cases h
      · split at h <;> cases h
    · cases h

theorem listTurn_closed {closer : TokenKind} (nodes : List Node)
    (h : s.kind = closer ∨ s.kind = .endOfFile) :
    listTurn settings inner closer nodes s = .ok none s := by
  unfold listTurn
  rw [kind_bind, if_pos h]
  rfl

end

end PascalFront.Parser
