-- How a parse fails. It gives up where the text has ended and an operand or a
-- name is due, and notes that at once; or between two statements of a list,
-- when too many errors are noted by then. Nothing is noted behind a failure, so
-- what was noted last tells the one reason from the other.
import PascalFront.Proofs.Sessions

namespace PascalFront

namespace ParserState

/-! ## Ends that are noted -/

/-- No diagnostic says that the text ended too soon. -/
def Calm (s : ParserState) : Prop := ∀ d ∈ s.diagnostics.toList, d.cause ≠ some .unexpectedEnd

theorem calm_start (ts : List Token) (symbols : SymbolTable) : (start ts symbols).Calm := by
  simp [Calm, start]

theorem Calm.of_eq {s s' : ParserState} (h : s.Calm) (hd : s'.diagnostics = s.diagnostics) :
    s'.Calm := by
  unfold Calm
  rw [hd]
  exact h

theorem Calm.flag {s : ParserState} (h : s.Calm) {cause : Cause} (hc : cause ≠ .unexpectedEnd) :
    (s.flag cause).Calm := by
  intro d hd
  simp only [ParserState.flag, note, Array.toList_push, List.mem_append, List.mem_singleton] at hd
  rcases hd with hd | rfl
  · exact h d hd
  · exact fun heq => hc (Option.some.inj heq)

theorem Calm.resumeAt {s : ParserState} (h : s.Calm) (set : KindSet) : (s.resumeAt set).Calm := by
  unfold ParserState.resumeAt
  split
  · exact h
  · have hflag : (s.flag .unexpectedToken).Calm := h.flag (by decide)
    exact hflag.of_eq rfl

end ParserState

namespace Parser

open ParserState

/-! ## Parsers that say why they give up -/

/-- How a run can end: with a result; at the end of the text, which was noted just then; or with
more errors than the settings allow, all of which count. -/
inductive Ending (settings : Settings) : EStateM.Result Failure ParserState α → Prop
  | ok {a : α} {s : ParserState} : s.Calm → Ending settings (.ok a s)
  | early {s : ParserState} : s.Calm → s.cursor.atEnd = true →
      Ending settings (.error (.unexpectedEnd s.line) (s.flag .unexpectedEnd))
  | crowded {s : ParserState} : s.Calm → settings.maxErrors < s.errorCount →
      Ending settings (.error (.tooManyErrors s.errorCount) s)

/-- A parser all of whose runs end in one of these ways, from any state in which no end is noted. -/
class Candid (settings : Settings) (p : Parser α) : Prop where
  ending : ∀ s : ParserState, s.Calm → Ending settings (p s)

/-- A cause that is noted without giving up. -/
class Mild (cause : Cause) : Prop where
  ne : cause ≠ .unexpectedEnd := by decide

instance : Mild .unexpectedToken where
instance : Mild .missingAssign where
instance : Mild .missingDo where
instance : Mild .missingEnd where
instance : Mild .missingIdentifier where
instance : Mild .missingLeftParen where
instance : Mild .missingPeriod where
instance : Mild .missingRightParen where
instance : Mild .missingSemicolon where
instance : Mild .missingThen where
instance : Mild .missingUntil where
instance : Mild .missingLessThan0 where
instance : Mild .missingEqual0 where
instance : Mild .missingGreaterThan0 where

section

variable {settings : Settings} {p q : Parser α} {f : α → Parser β} {s : ParserState}

theorem Ending.bind (hp : Ending settings (p s))
    (hf : ∀ a s₁, p s = .ok a s₁ → s₁.Calm → Ending settings (f a s₁)) :
    Ending settings ((p >>= f) s) := by
  rw [bind_apply]
  generalize p s = r at hp hf
  cases hp with
  | ok h => exact hf _ _ rfl h
  | early h hend => exact .early h hend
  | crowded h hlt => exact .crowded h hlt

instance (a : α) : Candid settings (pure a) := ⟨fun _ h => .ok h⟩

instance [hp : Candid settings p] [hf : ∀ a, Candid settings (f a)] : Candid settings (p >>= f) :=
  ⟨fun s h => (hp.ending s h).bind fun a s₁ _ h₁ => (hf a).ending s₁ h₁⟩

instance {q : Parser β} [Candid settings p] [Candid settings q] :
    Candid settings (p >>= fun _ => q) :=
  inferInstance

instance {c : Prop} [Decidable c] [Candid settings p] [Candid settings q] :
    Candid settings (if c then p else q) := by
  split <;> assumption

instance : Candid settings kind := ⟨fun _ h => .ok h⟩

instance : Candid settings nextKind := ⟨fun _ h => .ok h⟩

instance : Candid settings here := ⟨fun _ h => .ok h⟩

instance : Candid settings line := ⟨fun _ h => .ok h⟩

instance : Candid settings advance := ⟨fun _ h => .ok (h.of_eq rfl)⟩

instance (name : String) (line : Nat) : Candid settings (enter name line) :=
  ⟨fun _ h => .ok (h.of_eq rfl)⟩

instance (k : TokenKind) : Candid settings (accept k) := by
  constructor
  intro s h
  unfold accept
  split
  · exact .ok (h.of_eq rfl)
  · exact .ok h

instance (cause : Cause) [hc : Mild cause] : Candid settings (flag cause) :=
  ⟨fun _ h => .ok (h.flag hc.ne)⟩

instance (k : TokenKind) (missing : Cause) [hc : Mild missing] :
    Candid settings (expect k missing) := by
  constructor
  intro s h
  unfold expect
  split
  · exact .ok (h.of_eq rfl)
  · exact .ok (h.flag hc.ne)

instance (set : KindSet) : Candid settings (resumeAt set) := ⟨fun _ h => .ok (h.resumeAt set)⟩

instance (set : KindSet) (k : TokenKind) (missing : Cause) [Mild missing] :
    Candid settings (expectIn set k missing) := by
  unfold expectIn
  infer_instance

instance : Candid settings (checkLimit settings) := by
  constructor
  intro s h
  unfold checkLimit
  split
  · exact .crowded h ‹_›
  · exact .ok h

theorem ending_endedEarly (h : s.Calm) (hend : s.cursor.atEnd = true) :
    Ending settings ((endedEarly : Parser α) s) := .early h hend

end

theorem candid_loop {settings : Settings} {turn : β → Parser (Option β)}
    [∀ b, Candid settings (turn b)] (b : β) : Candid settings (loop turn b) :=
  ⟨fun s => (loopWithin_of (K := fun p => Candid settings p) (fun _ => inferInstance)
    (fun _ _ _ _ => inferInstance) (fun _ => inferInstance) s.cursor.ahead b).ending s⟩

theorem candid_nest {settings : Settings} {last : Parser α} {level : Parser α → Parser α}
    [Candid settings last] (h : ∀ p, Candid settings p → Candid settings (level p)) :
    Candid settings (nest last level) where
  ending s := by
    have within (bound : List Token) : Candid settings (nestWithin last level bound) := by
      induction bound with
      | nil => exact h last inferInstance
      | cons t bound ih => exact h _ ih
    exact (within s.cursor.ahead).ending s

/-! ## Expressions -/

section

variable {settings : Settings} {inner : Parser Node} [Candid settings inner]

instance : Candid settings takeName := by unfold takeName; infer_instance

instance : Candid settings noOperand := by unfold noOperand; infer_instance

instance (n : Node) : Candid settings (constant n) := by unfold constant; infer_instance

/-- An operand is due. Where the text has ended, there will be none. -/
instance : Candid settings (operand inner) := by
  constructor
  intro s h
  unfold operand
  rw [here_bind]
  cases hk : s.here.kind
  case endOfFile => exact ending_endedEarly h (beq_iff_eq.mpr hk)
  all_goals exact Candid.ending s h

instance (n : Nat) : Candid settings (negationTurn n) := by unfold negationTurn; infer_instance

instance : Candid settings (factor inner) := by
  have : Candid settings negations := candid_loop 0
  unfold factor
  infer_instance

/-- Behind a token that may be an operator. -/
theorem candid_operator (settings : Settings) (left : Parser α) (right : NodeKind → Parser α)
    [Candid settings left] [∀ op, Candid settings (right op)] (o : Option NodeKind) :
    Candid settings (match o with
      | none => left
      | some op => right op) := by
  cases o <;> infer_instance

instance (operator? : TokenKind → Option NodeKind) (first : Node) :
    Candid settings (chain operator? inner first) := by
  have (left : Node) : Candid settings (chainTurn operator? inner left) := by
    have hop := candid_operator settings (pure none) fun op => do
      advance
      return some (Node.binary op left (← inner))
    unfold chainTurn
    infer_instance
  exact candid_loop first

instance : Candid settings (term inner) := by unfold term; infer_instance

instance : Candid settings (simpleExpression inner) := by unfold simpleExpression; infer_instance

instance : Candid settings (expressionLevel inner) := by
  have hop (left : Node) := candid_operator settings (pure left) fun op => do
    advance
    return Node.binary op left (← simpleExpression inner)
  unfold expressionLevel
  infer_instance

end

instance {settings : Settings} : Candid settings expression :=
  candid_nest fun _ _ => inferInstance

/-! ## Statements -/

section

variable {settings : Settings} {inner : Parser Node} [Candid settings inner]

/-- A name is due. Where the text has ended, there will be none. -/
instance : Candid settings assignment := by
  constructor
  intro s h
  unfold assignment
  rw [here_bind]
  split
  · exact Candid.ending s h
  · split
    · exact ending_endedEarly h ‹_›
    · exact Candid.ending s h

instance (args : List Node) : Candid settings (argumentTurn args) := by
  unfold argumentTurn; infer_instance

instance : Candid settings arguments := by
  have (args : List Node) : Candid settings (loop argumentTurn args) := candid_loop args
  unfold arguments
  infer_instance

instance : Candid settings procedureCall := by unfold procedureCall; infer_instance

instance (closer : TokenKind) : Candid settings (behindItem settings closer) := by
  unfold behindItem; infer_instance

instance (closer : TokenKind) (nodes : List Node) :
    Candid settings (loop (listTurn settings inner closer) nodes) := by
  have (nodes : List Node) : Candid settings (listTurn settings inner closer nodes) := by
    rw [listTurn_eq]; infer_instance
  exact candid_loop nodes

instance (closer : TokenKind) (missing : Cause) [Mild missing] :
    Candid settings (statementList settings inner closer missing) := by
  unfold statementList; infer_instance

instance : Candid settings (compound settings inner) := by unfold compound; infer_instance

instance : Candid settings (ifStatement inner) := by unfold ifStatement; infer_instance

instance : Candid settings (whileStatement inner) := by unfold whileStatement; infer_instance

instance : Candid settings (repeatStatement settings inner) := by
  unfold repeatStatement; infer_instance

instance : Candid settings (loopStatement inner) := by unfold loopStatement; infer_instance

instance : Candid settings (whenStatement settings inner) := by
  unfold whenStatement; infer_instance

instance : Candid settings emptyStatement := by unfold emptyStatement; infer_instance

instance : Candid settings (statementLevel settings inner) := by
  constructor
  intro s h
  unfold statementLevel
  rw [kind_bind]
  cases s.kind <;> exact Candid.ending s h

end

instance {settings : Settings} : Candid settings (statement settings) :=
  candid_nest fun _ _ => inferInstance

/-- The list of a program without BEGIN ends where the text does, so the end it asks for is never
missing. -/
theorem ending_wholeText {settings : Settings} {s : ParserState} (h : s.Calm) :
    Ending settings (statementList settings (statement settings) .endOfFile .unexpectedEnd s) := by
  unfold statementList
  apply Ending.bind (Candid.ending s h)
  intro nodes s₁ hloop h₁
  have hk : s₁.kind = .endOfFile :=
    (listLoop_closes settings (statement_isStatementParser settings) hloop).elim id id
  have hend : expect .endOfFile .unexpectedEnd s₁ = .ok () s₁.advance := by
    unfold expect
    rw [if_pos hk]
  rw [bind_apply, hend]
  exact .ok (h₁.of_eq rfl)

instance {settings : Settings} : Candid settings (program settings) := by
  constructor
  intro s h
  unfold program
  rw [kind_bind]
  split
  · exact Candid.ending s h
  · rw [line_bind]
    exact (ending_wholeText h).bind fun nodes s₁ _ h₁ => .ok h₁

instance {settings : Settings} (e : Entry) : Candid settings (e.parser settings) := by
  cases e <;> unfold Entry.parser <;> infer_instance

end Parser

/-! ## The law -/

/-- A cursor at an end, in a row whose last token alone is one, stands at that token. -/
theorem ParserState.here_of_atEnd {s : ParserState} {body : List Token} {stop : Token}
    (hrow : s.cursor.tokens = body ++ [stop]) (hbody : ∀ t ∈ body, t.isEnd = false)
    (hend : s.cursor.atEnd = true) : s.here = stop ∧ s.left = 0 := by
  obtain ⟨hsame, hstop⟩ := List.append_inj' hrow rfl
  cases ha : s.cursor.ahead with
  | nil =>
    have hlast : s.cursor.stop = stop := List.singleton_inj.mp hstop
    simp [ParserState.here, Cursor.here, left, ha, hlast]
  | cons t rest =>
    have ht : t.isEnd = false := hbody t (by simp [← hsame, ha])
    simp [Cursor.atEnd, Cursor.here, ha, ht] at hend

/-- How a call ends, on tokens of which `stop` is the last and the only end: what it gives, and the
state that it leaves. -/
structure GivesUpOpenly (settings : Settings) (stop : Token)
    (outcome : Except Failure Node × ParserState) : Prop where
  ended_iff : (∃ line, outcome.1 = .error (.unexpectedEnd line)) ↔
    ∃ d ∈ outcome.2.diagnostics.toList, d.cause = some .unexpectedEnd
  /-- The text ended too soon, and the last diagnostic alone says so. -/
  ended : ∀ line, outcome.1 = .error (.unexpectedEnd line) →
    line = stop.position.line ∧ outcome.2.here = stop ∧ outcome.2.left = 0 ∧
      ∃ earlier, outcome.2.diagnostics.toList = earlier ++ [.atToken stop .unexpectedEnd] ∧
        ∀ d ∈ earlier, d.cause ≠ some .unexpectedEnd
  failures : ∀ e, outcome.1 = .error e → (∃ line, e = .unexpectedEnd line) ∨
    e = .tooManyErrors outcome.2.errorCount ∧ settings.maxErrors < outcome.2.errorCount
  /-- Errors alone do not keep a parse from its result. -/
  result : outcome.2.cursor.atEnd = false → outcome.2.errorCount ≤ settings.maxErrors →
    ∃ tree, outcome.1 = .ok tree
  noted : ∀ e, outcome.1 = .error e → 0 < outcome.2.errorCount

namespace GivesUpOpenly

variable {settings : Settings} {stop : Token} {s : ParserState}

/-- Where no end is noted, it is not the end that the call gives up at. -/
theorem ended_iff_of_calm {r : Except Failure Node} (h : s.Calm)
    (hr : ∀ line, r ≠ .error (.unexpectedEnd line)) :
    (∃ line, r = .error (.unexpectedEnd line)) ↔
      ∃ d ∈ s.diagnostics.toList, d.cause = some .unexpectedEnd := by
  apply iff_of_false
  · rintro ⟨line, heq⟩
    exact hr line heq
  · rintro ⟨d, hd, hcause⟩
    exact h d hd hcause

theorem of_result {tree : Node} (h : s.Calm) : GivesUpOpenly settings stop (.ok tree, s) where
  ended_iff := ended_iff_of_calm h fun line heq => by cases heq
  ended line heq := by cases heq
  failures e heq := by cases heq
  result _ _ := ⟨tree, rfl⟩
  noted e heq := by cases heq

theorem of_end (h : s.Calm) (hend : s.cursor.atEnd = true) (hhere : s.here = stop)
    (hleft : s.left = 0) :
    GivesUpOpenly settings stop (.error (.unexpectedEnd s.line), s.flag .unexpectedEnd) := by
  have hnoted : (s.flag .unexpectedEnd).diagnostics.toList =
      s.diagnostics.toList ++ [.atToken stop .unexpectedEnd] := by
    rw [ParserState.flag, ParserState.note, Array.toList_push, hhere]
  constructor
  case ended_iff =>
    have hmem : .atToken stop .unexpectedEnd ∈ (s.flag .unexpectedEnd).diagnostics.toList := by
      simp [hnoted]
    exact ⟨fun _ => ⟨_, hmem, rfl⟩, fun _ => ⟨s.line, rfl⟩⟩
  case ended =>
    intro line heq
    cases heq
    exact ⟨congrArg (·.position.line) hhere, hhere, hleft, _, hnoted, h⟩
  case failures =>
    intro e heq
    cases heq
    exact .inl ⟨s.line, rfl⟩
  case result =>
    intro hopen
    exact absurd (hend.symm.trans hopen) Bool.noConfusion
  case noted =>
    intro _ _
    simp [ParserState.flag, ParserState.note, ParserState.errorCount]

theorem of_crowd (h : s.Calm) (hlt : settings.maxErrors < s.errorCount) :
    GivesUpOpenly settings stop (.error (.tooManyErrors s.errorCount), s) where
  ended_iff := ended_iff_of_calm h fun line heq => by cases heq
  ended line heq := by cases heq
  failures e heq := by
    cases heq
    exact .inr ⟨rfl, hlt⟩
  result _ hle := absurd hlt (Nat.not_lt.mpr hle)
  noted _ _ := Nat.zero_lt_of_lt hlt

end GivesUpOpenly

namespace Parser

open ParserState

/-- A parse gives up at the end of the text or at the limit on errors and nowhere else, and it says
so once. -/
theorem every_failure_is_noted (settings : Settings) (e : Entry) (symbols : SymbolTable)
    {body : List Token} {stop : Token} (hstop : stop.isEnd = true)
    (hbody : ∀ t ∈ body, t.isEnd = false) :
    GivesUpOpenly settings stop
      ((e.parser settings).runFrom (.start (body ++ [stop]) symbols)) := by
  have hending : Ending settings (e.parser settings (.start (body ++ [stop]) symbols)) :=
    Candid.ending _ (calm_start _ _)
  generalize hr : e.parser settings (.start (body ++ [stop]) symbols) = r at hending
  cases hending with
  | ok hcalm =>
    rw [runFrom_of_ok hr]
    exact .of_result hcalm
  | @early s hcalm hend =>
    have hsteps : (ParserState.start (body ++ [stop]) symbols).Steps (s.flag .unexpectedEnd) :=
      Stepwise.error hr
    have hrow : s.cursor.tokens = body.filter Cursor.isGrammatical ++ [stop] := by
      rw [← start_row_of_end hstop body symbols]
      exact hsteps.before.tokens_eq
    obtain ⟨hhere, hleft⟩ := here_of_atEnd hrow (fun t ht => hbody t (List.mem_filter.mp ht).1) hend
    rw [runFrom_of_error hr]
    exact .of_end hcalm hend hhere hleft
  | crowded hcalm hlt =>
    rw [runFrom_of_error hr]
    exact .of_crowd hcalm hlt

/-- The tokens of `BEGIN X ) ; Y := (`, without the end. -/
def cutBlockTokens : List Token :=
  let token k text n := ⟨k, text, none, .between n (n + text.length), ⟨1, n + 1⟩⟩
  [token .kwBegin "BEGIN" 0, token .identifier "X" 6, token .rightParen ")" 8,
    token .semicolon ";" 10, token .identifier "Y" 12, token .assign ":=" 14,
    token .leftParen "(" 17]

/-- The call gives up in the operand that is due, and the misplaced parenthesis is noted as well. -/
def cutBlockOutcome : Except Failure Node × ParserState :=
  (Entry.statement.parser {}).runFrom (.start (cutBlockTokens ++ [.endAt .start]) {})

theorem cut_block_fails_at_its_end :
    (Token.endAt .start).isEnd = true ∧ (∀ t ∈ cutBlockTokens, t.isEnd = false) ∧
    GivesUpOpenly {} (.endAt .start) cutBlockOutcome ∧
    cutBlockOutcome.1.map (fun _ => ()) = .error (.unexpectedEnd 1) ∧
    1 < cutBlockOutcome.2.errorCount := by
  have hstop : (Token.endAt .start).isEnd = true := rfl
  have hbody : ∀ t ∈ cutBlockTokens, t.isEnd = false := by decide
  exact ⟨hstop, hbody, every_failure_is_noted {} .statement {} hstop hbody, by decide +kernel,
    by decide +kernel⟩

end Parser

end PascalFront
