-- Sessions: any calls of a parser, one after the other on the same tokens, also
-- behind a failure. Whatever the tokens are, every call ends, and the cursor
-- stays within the row and only goes on.
import PascalFront.Proofs.Progress
import Mathlib.Data.List.Basic

namespace PascalFront

/-! ## Calls -/

/-- What can be asked of a parser. -/
inductive Entry where
  | statement
  | program
  deriving DecidableEq

def Entry.parser (settings : Settings) : Entry → Parser Node
  | statement => Parser.statement settings
  | program => Parser.program settings

instance (settings : Settings) (e : Entry) : Parser.Stepwise (e.parser settings) := by
  cases e <;> unfold Entry.parser <;> infer_instance

namespace ParserState

/-- The state behind some calls. A failure leaves a state as well, and the next call starts from
it. -/
def afterCalls (settings : Settings) (s : ParserState) (calls : List Entry) : ParserState :=
  calls.foldl (fun s e => ((e.parser settings).runFrom s).2) s

theorem steps_afterCalls (settings : Settings) (calls : List Entry) (s : ParserState) :
    s.Steps (s.afterCalls settings calls) := by
  induction calls generalizing s with
  | nil => exact Steps.refl s
  | cons e calls ih =>
    exact ((inferInstance : Parser.Stepwise (e.parser settings)).steps s).trans (ih _)

/-! ## Where the cursor stands -/

theorem position_add_left (s : ParserState) :
    s.cursor.position + s.left + 1 = s.cursor.tokens.length := by
  simp only [Cursor.position, left, Cursor.tokens, List.length_append, List.length_reverse,
    List.length_singleton]

/-- The cursor stands on a token of the row, and the token behind it is the next one of the row,
or the last one again. -/
structure InRow (row : List Token) (s : ParserState) : Prop where
  tokens : s.cursor.tokens = row
  inside : s.cursor.position < row.length
  here : row[s.cursor.position]? = some s.here
  second : row[min (s.cursor.position + 1) (row.length - 1)]? = some s.cursor.second
  no_end_behind : ∀ i t, i < s.cursor.position → row[i]? = some t → t.isEnd = false

theorem tokens_getElem? (s : ParserState) (k : Nat) :
    s.cursor.tokens[s.cursor.position + k]? = s.upcoming[k]? := by
  have h : s.cursor.tokens = s.cursor.passed.reverse ++ s.upcoming := by
    simp [Cursor.tokens, upcoming, Cursor.upcoming]
  rw [h, List.getElem?_append_right (by simp [Cursor.position])]
  simp [Cursor.position]

theorem tokens_getElem?_of_lt (s : ParserState) {i : Nat} (h : i < s.cursor.position) :
    s.cursor.tokens[i]? = s.cursor.passed.reverse[i]? := by
  unfold Cursor.tokens
  rw [List.append_assoc, List.getElem?_append_left (by simpa [Cursor.position] using h)]

theorem inRow {s : ParserState} (h : ∀ t ∈ s.cursor.passed, t.isEnd = false) :
    InRow s.cursor.tokens s := by
  have hpos := s.position_add_left
  refine ⟨rfl, by omega, ?_, ?_, ?_⟩
  · have := s.tokens_getElem? 0
    rw [Nat.add_zero, ← List.head?_eq_getElem?] at this
    rw [this]
    exact Cursor.head?_upcoming s.cursor
  · rcases ha : s.cursor.ahead with _ | ⟨t, rest⟩
    · have hl : s.left = 0 := by simp [left, ha]
      have hmin : min (s.cursor.position + 1) (s.cursor.tokens.length - 1) =
          s.cursor.position + 0 := by omega
      rw [hmin, tokens_getElem?]
      simp [upcoming, Cursor.upcoming, Cursor.second, ha]
    · have hl : s.left = rest.length + 1 := by simp [left, ha]
      have hmin : min (s.cursor.position + 1) (s.cursor.tokens.length - 1) =
          s.cursor.position + 1 := by omega
      rw [hmin, tokens_getElem?]
      rcases rest with _ | ⟨t', rest⟩ <;> simp [upcoming, Cursor.upcoming, Cursor.second, ha]
  · intro i t hi ht
    rw [tokens_getElem?_of_lt s hi] at ht
    exact h t (by simpa using List.mem_of_getElem? ht)

/-- No step changes the row, and none goes back. -/
theorem Before.position_le {s s' : ParserState} (h : s.Before s') :
    s.cursor.position ≤ s'.cursor.position := by
  obtain ⟨taken, hp, -, -⟩ := h.row
  have := congrArg List.length hp
  simp only [List.length_append, List.length_reverse] at this
  unfold Cursor.position
  omega

theorem Before.tokens_eq {s s' : ParserState} (h : s.Before s') :
    s'.cursor.tokens = s.cursor.tokens := by
  obtain ⟨taken, hp, hu, -⟩ := h.row
  simp only [upcoming, Cursor.upcoming] at hu
  simp only [Cursor.tokens, List.append_assoc]
  rw [hu, ← hp, List.append_assoc]

theorem Before.position_lt_iff {s s' : ParserState} (h : s.Before s') :
    s.cursor.position < s'.cursor.position ↔ s'.left < s.left := by
  have := s.position_add_left
  have := s'.position_add_left
  have := congrArg List.length h.tokens_eq
  omega

theorem start_passed (ts : List Token) (symbols : SymbolTable) :
    (start ts symbols).cursor.passed = [] := by
  simp only [start, Cursor.ofTokens]
  split
  · rfl
  · split <;> rfl

/-- A parse reads the tokens that count for the grammar, before all else. -/
theorem start_row (ts : List Token) (symbols : SymbolTable) :
    ts.filter Cursor.isGrammatical <+: (start ts symbols).cursor.tokens := by
  unfold Cursor.tokens
  rw [start_passed]
  simp only [start, Cursor.ofTokens, List.reverse_nil, List.nil_append]
  split
  · rename_i h
    rw [List.getLast?_eq_none_iff.mp h]
    exact List.nil_prefix
  · rename_i last h
    split
    · exact ⟨[], by rw [List.append_nil, List.dropLast_append_getLast? last h]⟩
    · exact List.prefix_append _ _

/-- A parse starts at the first of these tokens. -/
theorem start_kind {ts : List Token} {symbols : SymbolTable} {k : TokenKind}
    (h : (start ts symbols).kind = k) (hk : k ≠ .endOfFile) :
    (ts.filter Cursor.isGrammatical).head?.map (·.kind) = some k := by
  have hhere : (start ts symbols).cursor.tokens.head? = some (start ts symbols).here := by
    unfold Cursor.tokens
    rw [start_passed]
    exact Cursor.head?_upcoming _
  obtain ⟨more, hmore⟩ := start_row ts symbols
  rcases hrow : ts.filter Cursor.isGrammatical with _ | ⟨t, rest⟩
  · have hend : (start ts symbols).kind = .endOfFile := by
      simp [start, Cursor.ofTokens, hrow, kind, here, Cursor.here, Token.endAt]
    exact absurd (h.symm.trans hend) hk
  · rw [hrow] at hmore
    rw [← hmore, List.cons_append, List.head?_cons] at hhere
    rw [List.head?_cons, hhere, Option.map_some]
    exact congrArg some h

theorem start_row_of_end {stop : Token} (hstop : stop.isEnd = true) (ts : List Token)
    (symbols : SymbolTable) : (start (ts ++ [stop]) symbols).cursor.tokens =
      ts.filter Cursor.isGrammatical ++ [stop] := by
  have hkind : stop.kind = .endOfFile := by simpa [Token.isEnd] using hstop
  have hkept : Cursor.isGrammatical stop = true := by simp [Cursor.isGrammatical, hkind]
  simp [start, Cursor.ofTokens, Cursor.tokens, List.filter_append, hkept, hstop]

/-- Nothing that is passed was an end, from the start on. -/
theorem passed_of_start {ts : List Token} {symbols : SymbolTable} {s : ParserState}
    (h : (start ts symbols).Before s) : ∀ t ∈ s.cursor.passed, t.isEnd = false := by
  obtain ⟨taken, hp, -, hend⟩ := h.row
  rw [start_passed, List.reverse_nil, List.nil_append] at hp
  intro t ht
  exact hend t (by rw [hp]; simpa using ht)

end ParserState

/-! ## The laws -/

namespace Parser

/-- The recursions and the loops of the parsers, as equations without a bound: each has one
solution, which is the parser. An equation that asks for itself without an end would have many. -/
structure HaveOneMeaning (settings : Settings) : Prop where
  expressions : ∀ p, p = expressionLevel p ↔ p = expression
  statements : ∀ p, p = statementLevel settings p ↔ p = statement settings
  lists : ∀ closer q, Unrolls (listTurn settings (statement settings) closer) q ↔
    q = loop (listTurn settings (statement settings) closer)
  arguments : ∀ q, Unrolls argumentTurn q ↔ q = loop argumentTurn
  sums : ∀ q, Unrolls (chainTurn sum? (term expression)) q ↔ q = chain sum? (term expression)
  products : ∀ q, Unrolls (chainTurn product? (factor expression)) q ↔
    q = chain product? (factor expression)
  negations : ∀ q, Unrolls negationTurn q ↔ q = loop negationTurn
  skips : ∀ (p : TokenKind → Bool) (q : Cursor → Cursor),
    (∀ c, q c = if (p c.here.kind || c.atEnd) = true then c else q c.advance) ↔
      q = Cursor.skipUntil p

theorem haveOneMeaning (settings : Settings) : HaveOneMeaning settings where
  expressions := eq_nest_iff expressionLevel_guarded fun _ _ => inferInstance
  statements := eq_nest_iff (statementLevel_guarded settings) fun _ _ => inferInstance
  lists closer :=
    unrolls_iff (listTurn_progressive settings (statement_isStatementParser settings) closer)
  arguments := unrolls_iff argumentTurn_progressive
  sums := unrolls_iff (chainTurn_progressive rfl)
  products := unrolls_iff (chainTurn_progressive rfl)
  negations := unrolls_iff negationTurn_progressive
  skips := Cursor.eq_skipUntil_iff

/-- Every session on any tokens and any symbol table ends. All states on its way stand within one
row, where no end was passed; no step goes back; every turn of a statement list takes a token,
and so does every statement at a token that opens one. -/
theorem every_session_ends_and_goes_on (settings : Settings) (ts : List Token)
    (symbols : SymbolTable) (calls : List Entry) :
    HaveOneMeaning settings ∧
    (ParserState.start ts symbols).Steps
      ((ParserState.start ts symbols).afterCalls settings calls) ∧
    (∀ s, (ParserState.start ts symbols).Steps s →
      s.InRow (ParserState.start ts symbols).cursor.tokens ∧
      ∀ s', s.Steps s' → s.cursor.position ≤ s'.cursor.position) ∧
    (∀ closer nodes nodes' s s',
      listTurn settings (statement settings) closer nodes s = .ok (some nodes') s' →
      s.cursor.position < s'.cursor.position) ∧
    ∀ s n s', s.kind ∈ statementOpeners → statement settings s = .ok n s' →
      s.cursor.position < s'.cursor.position := by
  refine ⟨haveOneMeaning settings, ParserState.steps_afterCalls settings calls _, ?_, ?_, ?_⟩
  · intro s hs
    have hrow := ParserState.inRow (ParserState.passed_of_start hs.before)
    rw [hs.before.tokens_eq] at hrow
    exact ⟨hrow, fun s' h => h.before.position_le⟩
  · intro closer nodes nodes' s s' h
    rw [(Stepwise.ok h).before.position_lt_iff]
    exact listTurn_progressive settings (statement_isStatementParser settings) closer _ _ _ _ h
  · intro s n s' hk h
    rw [(Stepwise.ok h).before.position_lt_iff]
    exact (statement_isStatementParser settings).takes s n s' hk h

end Parser

end PascalFront
