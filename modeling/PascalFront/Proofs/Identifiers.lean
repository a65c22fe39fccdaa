-- Identifiers and the symbol table. No parser passes an identifier without
-- entering its name and its line, none enters a name without passing the
-- identifier, and only a WHEN statement enters a name of another kind.
import PascalFront.Proofs.Lockstep
import Mathlib.Data.List.TakeWhile

namespace PascalFront

namespace ParserState

/-! ## The identifiers passed -/

/-- The identifiers that the cursor has passed, in the order of the row. -/
def identifiers (s : ParserState) : List Token :=
  s.cursor.passed.reverse.filter (·.kind == .identifier)

variable {s : ParserState}

theorem passed_advance (hend : s.cursor.atEnd = false) :
    s.advance.cursor.passed = s.here :: s.cursor.passed := by
  obtain ⟨t, rest, ha, -, hadv⟩ := Cursor.exists_ahead hend
  simp [ParserState.advance, hadv, here, Cursor.here, ha]

theorem identifiers_advance (hk : s.kind = .identifier) :
    s.advance.identifiers = s.identifiers ++ [s.here] := by
  have hhere : s.here.kind = .identifier := hk
  unfold identifiers
  rw [passed_advance (Parser.atEnd_of_kind hk (by decide))]
  simp [List.filter_append, hhere]

theorem identifiers_advance_of_ne (hk : s.kind ≠ .identifier) :
    s.advance.identifiers = s.identifiers := by
  have hhere : s.here.kind ≠ .identifier := hk
  unfold identifiers
  cases hend : s.cursor.atEnd with
  | true => rw [ParserState.advance, Cursor.advance_of_atEnd hend]
  | false =>
    rw [passed_advance hend]
    simp [List.filter_append, hhere]

/-- No identifier is passed over where identifiers are looked for. -/
theorem identifiers_skipUntil {p : TokenKind → Bool} (hp : p .identifier = true) :
    ({ s with cursor := s.cursor.skipUntil p } : ParserState).identifiers = s.identifiers := by
  have hskipped : ∀ t ∈ (s.cursor.ahead.takeWhile fun t => !p t.kind && !t.isEnd).reverse.reverse,
      ¬ (t.kind == .identifier) = true := by
    intro t ht hk
    rw [List.reverse_reverse] at ht
    have hpass := List.mem_takeWhile_imp ht
    rw [beq_iff_eq.mp hk, hp] at hpass
    cases hpass
  simp only [identifiers, Cursor.skipUntil, List.span_eq_takeWhile_dropWhile, List.reverse_append,
    List.filter_append, List.filter_eq_nil_iff.mpr hskipped, List.append_nil]

theorem identifiers_resumeAt {set : KindSet} (h : set.contains .identifier = true) :
    (s.resumeAt set).identifiers = s.identifiers := by
  unfold resumeAt
  split
  · rfl
  · exact identifiers_skipUntil (s := s.flag .unexpectedToken) h

theorem symbols_resumeAt (set : KindSet) : (s.resumeAt set).symbols = s.symbols := by
  unfold resumeAt
  split <;> rfl

/-! ## Steps between them -/

/-- What a step does to the identifiers and the names: nothing; or an identifier is passed and
entered; or a hidden variable is entered. -/
inductive Entering (settings : Settings) : ParserState → ParserState → Prop
  | nothing {s s' : ParserState} : s'.identifiers = s.identifiers → s'.symbols = s.symbols →
      Entering settings s s'
  | name {s s' : ParserState} (t : Token) : s'.identifiers = s.identifiers ++ [t] →
      s'.symbols = (s.symbols.enterAt (caseFold t.text) t.position.line).2 → Entering settings s s'
  | hidden {s s' : ParserState} (line : Nat) : s'.identifiers = s.identifiers →
      s'.symbols = (s.symbols.enterAt (settings.whenName line) line).2 → Entering settings s s'

/-- A chain of such steps. -/
def Enterings (settings : Settings) : ParserState → ParserState → Prop :=
  Relation.ReflTransGen (Entering settings)

end ParserState

namespace Parser

open ParserState ResumePoints

/-! ## Parsers that enter no name -/

/-- A parser that passes no identifier and enters no name. -/
class Quiet (p : Parser α) : Prop where
  identifiers : ∀ s, (stateBehind (p s)).identifiers = s.identifiers
  symbols : ∀ s, (stateBehind (p s)).symbols = s.symbols

/-- A kind of tokens that are not identifiers. -/
class Nameless (k : TokenKind) : Prop where
  ne : k ≠ .identifier := by decide

instance : Nameless .comma where
instance : Nameless .semicolon where
instance : Nameless .assign where
instance : Nameless .dot where
instance : Nameless .leftParen where
instance : Nameless .rightParen where
instance : Nameless .kwNot where
instance : Nameless .kwElse where
instance : Nameless .kwThen where
instance : Nameless .kwDo where
instance : Nameless .kwEnd where
instance : Nameless .kwUntil where
instance : Nameless .kwLessThan0 where
instance : Nameless .kwEqual0 where
instance : Nameless .kwGreaterThan0 where
instance : Nameless .endOfFile where

/-- A set of tokens to resume at that has the identifiers. -/
class Attentive (set : KindSet) : Prop where
  contains : set.contains .identifier = true := by decide

instance : Attentive beforeDo where
instance : Attentive beforeRightParen where
instance : Attentive beforeThen where
instance : Attentive beforeLessThan0 where
instance : Attentive beforeEqual0 where
instance : Attentive beforeGreaterThan0 where
instance : Attentive beforeAssign where

section

variable {p : Parser α} {f : α → Parser β} {k : TokenKind} {set : KindSet}

instance (a : α) : Quiet (pure a) where
  identifiers _ := rfl
  symbols _ := rfl

instance [hp : Quiet p] [hf : ∀ a, Quiet (f a)] : Quiet (p >>= f) where
  identifiers s := by
    have hi := hp.identifiers s
    rw [bind_apply]
    generalize p s = r at hi
    cases r with
    | ok a s₁ => exact ((hf a).identifiers s₁).trans hi
    | error e s₁ => exact hi
  symbols s := by
    have hi := hp.symbols s
    rw [bind_apply]
    generalize p s = r at hi
    cases r with
    | ok a s₁ => exact ((hf a).symbols s₁).trans hi
    | error e s₁ => exact hi

instance {q : Parser β} [Quiet p] [Quiet q] : Quiet (p >>= fun _ => q) := inferInstance

instance {c : Prop} [Decidable c] {q : Parser α} [Quiet p] [Quiet q] :
    Quiet (if c then p else q) := by
  split <;> assumption

instance : Quiet kind := ⟨fun _ => rfl, fun _ => rfl⟩

instance : Quiet line := ⟨fun _ => rfl, fun _ => rfl⟩

instance (cause : Cause) : Quiet (flag cause) := ⟨fun _ => rfl, fun _ => rfl⟩

instance : Quiet (endedEarly : Parser α) := ⟨fun _ => rfl, fun _ => rfl⟩

instance (settings : Settings) : Quiet (checkLimit settings) where
  identifiers s := by
    unfold checkLimit
    split <;> rfl
  symbols s := by
    unfold checkLimit
    split <;> rfl

instance [hset : Attentive set] : Quiet (resumeAt set) where
  identifiers _ := identifiers_resumeAt hset.contains
  symbols _ := symbols_resumeAt set

instance [hk : Nameless k] : Quiet (accept k) where
  identifiers s := by
    unfold accept
    split
    · exact identifiers_advance_of_ne fun h => hk.ne (‹s.kind = k› ▸ h)
    · rfl
  symbols s := by
    unfold accept
    split <;> rfl

instance [hk : Nameless k] (missing : Cause) : Quiet (expect k missing) where
  identifiers s := by
    unfold expect
    split
    · exact identifiers_advance_of_ne fun h => hk.ne (‹s.kind = k› ▸ h)
    · rfl
  symbols s := by
    unfold expect
    split <;> rfl

instance [Attentive set] [Nameless k] (missing : Cause) : Quiet (expectIn set k missing) := by
  unfold expectIn
  infer_instance

/-- A token that is passed between two statements of a list starts no statement, so it is no
identifier. -/
instance (settings : Settings) (closer : TokenKind) : Quiet (behindItem settings closer) := by
  have hgap : Quiet (do
      let k ← kind
      if statementStart.contains k then flag .missingSemicolon
      else if k ≠ closer ∧ k ≠ .endOfFile then do
        flag .unexpectedToken
        advance
      else pure ()) := by
    refine ⟨fun s => ?_, fun s => ?_⟩ <;> rw [kind_bind] <;> split
    · rfl
    · split
      · rename_i hstart _
        have hk : (s.flag .unexpectedToken).kind ≠ .identifier := fun hk =>
          hstart (by rw [show s.kind = .identifier from hk]; rfl)
        exact identifiers_advance_of_ne hk
      · rfl
    · rfl
    · split <;> rfl
  unfold behindItem
  infer_instance

end

/-! ## All parsers -/

/-- A parser whose runs enter what they pass, also those that end with a failure. -/
class Indexing (settings : Settings) (p : Parser α) : Prop where
  enterings : ∀ s, Enterings settings s (stateBehind (p s))

section

variable {settings : Settings} {p : Parser α} {f : α → Parser β} {s : ParserState}

theorem Indexing.of_quiet [hp : Quiet p] : Indexing settings p :=
  ⟨fun s => .single (.nothing (hp.identifiers s) (hp.symbols s))⟩

instance (priority := low) [Quiet p] : Indexing settings p := .of_quiet

theorem enterings_bind [hf : ∀ a, Indexing settings (f a)]
    (hp : Enterings settings s (stateBehind (p s))) :
    Enterings settings s (stateBehind ((p >>= f) s)) := by
  rw [bind_apply]
  generalize p s = r at hp
  cases r with
  | ok a s₁ => exact hp.trans ((hf a).enterings s₁)
  | error e s₁ => exact hp

instance [hp : Indexing settings p] [∀ a, Indexing settings (f a)] : Indexing settings (p >>= f) :=
  ⟨fun s => enterings_bind (hp.enterings s)⟩

instance {q : Parser β} [Indexing settings p] [Indexing settings q] :
    Indexing settings (p >>= fun _ => q) :=
  inferInstance

instance {c : Prop} [Decidable c] {q : Parser α} [Indexing settings p] [Indexing settings q] :
    Indexing settings (if c then p else q) := by
  split <;> assumption

/-- A token that is passed without being entered is no identifier. -/
theorem enterings_advance_bind {f : Unit → Parser α} [hf : Indexing settings (f ())]
    (hk : s.kind ≠ .identifier) : Enterings settings s (stateBehind ((advance >>= f) s)) :=
  .head (.nothing (identifiers_advance_of_ne hk) rfl) (hf.enterings s.advance)

theorem enterings_takeName_bind {f : SymbolId → Parser α} [hf : ∀ id, Indexing settings (f id)]
    (hk : s.kind = .identifier) : Enterings settings s (stateBehind ((takeName >>= f) s)) := by
  rw [bind_apply, takeName_eq]
  have hids := identifiers_advance (s := (s.enter (caseFold s.here.text) s.line).2) hk
  exact .head (.name s.here hids rfl) ((hf _).enterings _)

instance (line : Nat) : Indexing settings (enter (settings.whenName line) line) :=
  ⟨fun _ => .single (.hidden line rfl rfl)⟩

theorem indexing_loop {turn : β → Parser (Option β)} [∀ b, Indexing settings (turn b)] (b : β) :
    Indexing settings (loop turn b) where
  enterings s :=
    (loopWithin_of (K := fun p => Indexing settings p) (fun _ => inferInstance)
      (fun _ _ _ _ => inferInstance) (fun _ => inferInstance) s.cursor.ahead b).enterings s

theorem indexing_nest {last : Parser α} {level : Parser α → Parser α} [Indexing settings last]
    (h : ∀ p, Indexing settings p → Indexing settings (level p)) :
    Indexing settings (nest last level) where
  enterings s := by
    have within (bound : List Token) : Indexing settings (nestWithin last level bound) := by
      induction bound with
      | nil => exact h last inferInstance
      | cons t bound ih => exact h _ ih
    exact (within s.cursor.ahead).enterings s

end

/-! ## Expressions -/

section

variable {settings : Settings} {inner : Parser Node} [Indexing settings inner]

instance : Indexing settings noOperand := by
  unfold noOperand
  infer_instance

instance : Indexing settings (operand inner) where
  enterings s := by
    have hne {k : TokenKind} (hk : s.here.kind = k) (h : k ≠ .identifier) : s.kind ≠ .identifier :=
      fun hs => h (hk.symm.trans hs)
    unfold operand
    rw [here_bind]
    cases hk : s.here.kind
    case identifier => exact enterings_takeName_bind hk
    case leftParen => exact enterings_advance_bind (hne hk (by decide))
    case integer => exact enterings_advance_bind (hne hk (by decide))
    case real => exact enterings_advance_bind (hne hk (by decide))
    case string => exact enterings_advance_bind (hne hk (by decide))
    case endOfFile =>
      exact (inferInstance : Indexing settings (endedEarly : Parser Node)).enterings s
    all_goals exact (inferInstance : Indexing settings noOperand).enterings s

instance (n : Nat) : Indexing settings (negationTurn n) := by
  unfold negationTurn
  infer_instance

instance : Indexing settings (factor inner) := by
  have : Indexing settings negations := indexing_loop 0
  unfold factor
  infer_instance

/-- The kinds that an operator has are those of its token, and never that of a name. -/
theorem indexing_chain {operator? : TokenKind → Option NodeKind}
    (hop : operator? .identifier = none) {item : Parser Node} [Indexing settings item]
    (first : Node) :
    Indexing settings (chain operator? item first) := by
  have (left : Node) : Indexing settings (chainTurn operator? item left) := by
    constructor
    intro s
    unfold chainTurn
    rw [kind_bind]
    cases ho : operator? s.kind with
    | none => exact .refl
    | some op => exact enterings_advance_bind fun hk => by rw [hk, hop] at ho; cases ho
  exact indexing_loop first

instance : Indexing settings (term inner) := by
  have (first : Node) : Indexing settings (chain product? (factor inner) first) :=
    indexing_chain rfl first
  unfold term
  infer_instance

instance : Indexing settings (simpleExpression inner) where
  enterings s := by
    have (first : Node) : Indexing settings (chain sum? (term inner) first) :=
      indexing_chain rfl first
    unfold simpleExpression
    dsimp only
    rw [kind_bind]
    split
    · rename_i hk
      exact enterings_advance_bind fun h => by rw [h] at hk; revert hk; decide
    · exact Indexing.enterings _

instance : Indexing settings (expressionLevel inner) := by
  have (left : Node) : Indexing settings (do
      match relation? (← kind) with
      | none => return left
      | some op =>
        advance
        return .binary op left (← simpleExpression inner)) := by
    constructor
    intro s
    rw [kind_bind]
    cases ho : relation? s.kind with
    | none => exact .refl
    | some op => exact enterings_advance_bind fun hk => by rw [hk] at ho; cases ho
  unfold expressionLevel
  infer_instance

end

instance {settings : Settings} : Indexing settings expression :=
  indexing_nest fun _ _ => inferInstance

/-! ## Statements -/

section

variable {settings : Settings} {inner : Parser Node} [Indexing settings inner]

instance : Indexing settings assignment where
  enterings s := by
    unfold assignment
    rw [here_bind]
    split
    · rename_i hk
      exact enterings_takeName_bind hk
    · exact Indexing.enterings _

instance (args : List Node) : Indexing settings (argumentTurn args) := by
  unfold argumentTurn
  infer_instance

instance : Indexing settings arguments := by
  have (args : List Node) : Indexing settings (loop argumentTurn args) := indexing_loop args
  unfold arguments
  infer_instance

theorem enterings_procedureCall {s : ParserState} (hk : s.kind = .identifier) :
    Enterings settings s (stateBehind (procedureCall s)) := by
  unfold procedureCall
  rw [line_bind]
  exact enterings_takeName_bind hk

instance (closer : TokenKind) (nodes : List Node) :
    Indexing settings (listTurn settings inner closer nodes) := by
  rw [listTurn_eq]
  infer_instance

instance (closer : TokenKind) [Nameless closer] (missing : Cause) :
    Indexing settings (statementList settings inner closer missing) := by
  have (nodes : List Node) : Indexing settings (loop (listTurn settings inner closer) nodes) :=
    indexing_loop nodes
  unfold statementList
  infer_instance

/-- The parsers for keywords pass the keyword first. -/
theorem enterings_keyword {s : ParserState} {f : Nat → Parser α} (hk : s.kind ≠ .identifier)
    [hf : ∀ line, Indexing settings (f line)] :
    Enterings settings s (stateBehind ((do let line ← line; advance; f line) s)) := by
  rw [line_bind]
  exact enterings_advance_bind hk

instance (priority := low) : Indexing settings emptyStatement := by
  unfold emptyStatement
  infer_instance

instance : Indexing settings (statementLevel settings inner) where
  enterings s := by
    have hne {k : TokenKind} (hk : s.kind = k) (h : k ≠ .identifier) : s.kind ≠ .identifier :=
      fun hs => h (hk.symm.trans hs)
    unfold statementLevel
    rw [kind_bind]
    cases hk : s.kind
    case identifier =>
      dsimp only
      rw [nextKind_bind]
      split
      · exact enterings_procedureCall hk
      · exact Indexing.enterings s
    case kwBegin => exact enterings_keyword (hne hk (by decide))
    case kwIf => exact enterings_keyword (hne hk (by decide))
    case kwWhile => exact enterings_keyword (hne hk (by decide))
    case kwRepeat => exact enterings_keyword (hne hk (by decide))
    case kwLoop => exact enterings_advance_bind (hne hk (by decide))
    case kwWhen => exact enterings_keyword (hne hk (by decide))
    all_goals exact (inferInstance : Indexing settings emptyStatement).enterings s

end

instance {settings : Settings} : Indexing settings (statement settings) :=
  indexing_nest fun _ _ => inferInstance

instance {settings : Settings} : Indexing settings (program settings) where
  enterings s := by
    unfold program
    rw [kind_bind]
    split
    · rename_i hk
      have : Enterings settings s (stateBehind (compound settings (statement settings) s)) :=
        enterings_keyword (by rw [hk]; decide)
      exact enterings_bind this
    · exact Indexing.enterings s

end Parser

end PascalFront
