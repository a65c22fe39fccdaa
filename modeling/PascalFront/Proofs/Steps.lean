-- The steps of a parser. All that a parser does to its state is a chain of
-- three small steps: it passes a token that is no end, notes a diagnostic, or
-- enters a name. So what each step keeps, each run keeps, and so does a run
-- that ends with a failure.
import PascalFront.Program
import Mathlib.Data.List.TakeDrop
import Mathlib.Logic.Relation

namespace PascalFront

/-! ## The cursor -/

namespace Cursor

/-- The tokens from the cursor on, with the last one of the row. -/
def upcoming (c : Cursor) : List Token := c.ahead ++ [c.stop]

theorem advance_of_atEnd {c : Cursor} (h : c.atEnd = true) : c.advance = c := by
  unfold advance
  split
  · rfl
  · rename_i t rest ha
    have ht : t.isEnd = true := by simpa [atEnd, here, ha] using h
    simp [ht]

/-- Away from the end there is a token to pass. -/
theorem exists_ahead {c : Cursor} (h : c.atEnd = false) :
    ∃ t rest, c.ahead = t :: rest ∧ t.isEnd = false ∧
      c.advance = { c with passed := t :: c.passed, ahead := rest } := by
  rcases ha : c.ahead with _ | ⟨t, rest⟩
  · simp [atEnd, here, ha, c.stop_isEnd] at h
  · have ht : t.isEnd = false := by simpa [atEnd, here, ha] using h
    exact ⟨t, rest, rfl, ht, by simp [advance, ha, ht]⟩

theorem upcoming_eq_cons {c : Cursor} (h : c.atEnd = false) :
    c.upcoming = c.here :: c.advance.upcoming := by
  obtain ⟨t, rest, ha, -, hadv⟩ := exists_ahead h
  simp [upcoming, here, ha, hadv]

/-- The token behind the current one is where the cursor stands next. -/
theorem second_eq_here_advance {c : Cursor} (h : c.atEnd = false) :
    c.second = c.advance.here := by
  obtain ⟨t, rest, ha, -, hadv⟩ := exists_ahead h
  simp [second, here, ha, hadv]

theorem head?_upcoming (c : Cursor) : c.upcoming.head? = some c.here := by
  rcases ha : c.ahead with _ | ⟨t, rest⟩ <;> simp [upcoming, here, ha]

theorem skipUntil_of_stops {p : TokenKind → Bool} {c : Cursor}
    (h : (p c.here.kind || c.atEnd) = true) : c.skipUntil p = c := by
  unfold skipUntil
  rcases ha : c.ahead with _ | ⟨t, rest⟩
  · cases c
    simp_all [List.span_eq_takeWhile_dropWhile]
  · have ht : (!p t.kind && !t.isEnd) = false := by
      simp only [here, atEnd, ha, List.headD_cons] at h
      revert h
      cases p t.kind <;> cases t.isEnd <;> simp
    cases c
    simp_all [List.span_eq_takeWhile_dropWhile]

theorem skipUntil_of_passes {p : TokenKind → Bool} {c : Cursor}
    (h : (p c.here.kind || c.atEnd) = false) : c.skipUntil p = c.advance.skipUntil p := by
  simp only [Bool.or_eq_false_iff] at h
  obtain ⟨t, rest, ha, ht, hadv⟩ := exists_ahead h.2
  have hp : p t.kind = false := by simpa [here, ha] using h.1
  simp [skipUntil, hadv, ha, hp, ht, List.span_eq_takeWhile_dropWhile]

/-- Skipping is the one solution of its equation. -/
theorem eq_skipUntil_iff (p : TokenKind → Bool) (q : Cursor → Cursor) :
    (∀ c, q c = if (p c.here.kind || c.atEnd) = true then c else q c.advance) ↔
      q = skipUntil p := by
  constructor
  · intro hq
    suffices h : ∀ n (c : Cursor), c.ahead.length < n → q c = c.skipUntil p from
      funext fun c => h _ c (Nat.lt_succ_self _)
    intro n
    induction n with
    | zero => exact fun c h => absurd h (Nat.not_lt_zero _)
    | succ n ih =>
      intro c hlt
      rw [hq]
      by_cases h : (p c.here.kind || c.atEnd) = true
      · rw [if_pos h, skipUntil_of_stops h]
      · have hpass := Bool.eq_false_iff.mpr h
        obtain ⟨t, rest, ha, -, hadv⟩ := exists_ahead (Bool.or_eq_false_iff.mp hpass).2
        rw [if_neg h, skipUntil_of_passes hpass]
        refine ih c.advance ?_
        rw [ha, List.length_cons] at hlt
        rw [hadv]
        exact Nat.lt_of_succ_lt_succ hlt
  · rintro rfl c
    by_cases h : (p c.here.kind || c.atEnd) = true
    · rw [if_pos h, skipUntil_of_stops h]
    · rw [if_neg h, skipUntil_of_passes (Bool.eq_false_iff.mpr h)]

end Cursor

/-! ## Names -/

namespace SymbolTable

/-- The names in the order of their numbers. -/
def names (t : SymbolTable) : List String := t.entries.map SymbolEntry.name

theorem names_mention (t : SymbolTable) (id : SymbolId) (line : Nat) :
    (t.mention id line).names = t.names := by
  unfold mention names
  apply List.ext_getElem?
  intro i
  simp only [List.getElem?_map, List.getElem?_modify]
  by_cases h : id.number = i
  · rcases t.entries[i]? with _ | e
    · simp
    · simp only [h, if_true, Option.map_eq_map, Option.map_some, Option.some.injEq]
      unfold SymbolEntry.mention
      split <;> rfl
  · simp [h]

theorem nameOf_eq (t : SymbolTable) (id : SymbolId) :
    t.nameOf id = t.names[id.number]?.getD "" := by
  simp [nameOf, entry?, names]

/-- A name that is entered has the number it is given, and no other name changes. -/
theorem enter_spec (t : SymbolTable) (name : String) :
    (t.enter name).2.names[(t.enter name).1.number]? = some name ∧
      t.names <+: (t.enter name).2.names := by
  rcases h : t.entries.findIdx? (·.name == name) with _ | i
  · have he : t.enter name = (⟨t.size⟩, ⟨t.entries ++ [⟨name, []⟩]⟩) := by
      simp [enter, find?, h]
    rw [he]
    simp [names, size]
  · have he : t.enter name = (⟨i⟩, t) := by simp [enter, find?, h]
    obtain ⟨hlt, heq, -⟩ := List.findIdx?_eq_some_iff_getElem.mp h
    rw [he]
    refine ⟨?_, List.prefix_refl _⟩
    simp only [names, List.getElem?_map, List.getElem?_eq_getElem hlt, Option.map_some]
    simpa using heq

theorem enterAt_spec (t : SymbolTable) (name : String) (line : Nat) :
    (t.enterAt name line).2.names[(t.enterAt name line).1.number]? = some name ∧
      t.names <+: (t.enterAt name line).2.names := by
  have h := enter_spec t name
  simp only [enterAt, names_mention]
  exact h

end SymbolTable

/-! ## Steps -/

namespace ParserState

/-- How many tokens there are before the last one. -/
def left (s : ParserState) : Nat := s.cursor.ahead.length

def upcoming (s : ParserState) : List Token := s.cursor.upcoming

/-- What a parser does to its state at once. -/
inductive Step : ParserState → ParserState → Prop
  | advance {s : ParserState} : s.cursor.atEnd = false → Step s s.advance
  | flag (s : ParserState) (cause : Cause) : Step s (s.flag cause)
  | enter (s : ParserState) (name : String) (line : Nat) : Step s (s.enter name line).2

/-- A chain of steps. -/
def Steps : ParserState → ParserState → Prop := Relation.ReflTransGen Step

theorem Steps.refl (s : ParserState) : s.Steps s := Relation.ReflTransGen.refl

theorem Steps.trans {a b c : ParserState} (h : a.Steps b) (h' : b.Steps c) : a.Steps c :=
  Relation.ReflTransGen.trans h h'

theorem Step.steps {a b : ParserState} (h : Step a b) : a.Steps b := Relation.ReflTransGen.single h

theorem steps_advance (s : ParserState) : s.Steps s.advance := by
  cases h : s.cursor.atEnd with
  | true => simpa [advance, Cursor.advance_of_atEnd h] using Steps.refl s
  | false => exact (Step.advance h).steps

/-- Passing over tokens is a chain of single steps. -/
theorem steps_skipUntil (p : TokenKind → Bool) (s : ParserState) :
    s.Steps { s with cursor := s.cursor.skipUntil p } := by
  generalize hn : s.left = n
  induction n generalizing s with
  | zero =>
    have ha : s.cursor.ahead = [] := List.eq_nil_of_length_eq_zero hn
    rw [Cursor.skipUntil_of_stops (by simp [Cursor.atEnd, Cursor.here, ha, s.cursor.stop_isEnd])]
    exact Steps.refl s
  | succ n ih =>
    cases h : p s.cursor.here.kind || s.cursor.atEnd with
    | true =>
      rw [Cursor.skipUntil_of_stops h]
      exact Steps.refl s
    | false =>
      have hend : s.cursor.atEnd = false := (Bool.or_eq_false_iff.mp h).2
      obtain ⟨t, rest, ha, -, hadv⟩ := Cursor.exists_ahead hend
      have hleft : s.advance.left = n := by
        simp only [left, advance, hadv]
        simpa [left, ha] using hn
      rw [Cursor.skipUntil_of_passes h]
      exact (Step.advance hend).steps.trans (ih s.advance hleft)

theorem steps_resumeAt (set : KindSet) (s : ParserState) : s.Steps (s.resumeAt set) := by
  unfold resumeAt
  split
  · exact Steps.refl s
  · exact (Step.flag s _).steps.trans (steps_skipUntil _ (s.flag _))

/-! ## What every step keeps -/

/-- What a later state of a parser has in common with an earlier one. -/
structure Before (s s' : ParserState) : Prop where
  /-- The cursor only went on, and it passed no token for the end. -/
  row : ∃ taken, s.cursor.passed.reverse ++ taken = s'.cursor.passed.reverse ∧
    s.upcoming = taken ++ s'.upcoming ∧ ∀ t ∈ taken, t.isEnd = false
  diagnostics : s.diagnostics.toList <+: s'.diagnostics.toList
  names : s.symbols.names <+: s'.symbols.names

theorem Before.refl (s : ParserState) : s.Before s :=
  ⟨⟨[], by simp⟩, List.prefix_refl _, List.prefix_refl _⟩

theorem Before.trans {a b c : ParserState} (h : a.Before b) (h' : b.Before c) : a.Before c := by
  obtain ⟨⟨t, hp, hu, ht⟩, hd, hn⟩ := h
  obtain ⟨⟨t', hp', hu', ht'⟩, hd', hn'⟩ := h'
  refine ⟨⟨t ++ t', by rw [← hp', ← hp, List.append_assoc], by rw [hu, hu', List.append_assoc],
    ?_⟩, hd.trans hd', hn.trans hn'⟩
  intro x hx
  rcases List.mem_append.mp hx with h | h
  · exact ht x h
  · exact ht' x h

theorem Step.before {s s' : ParserState} (h : Step s s') : s.Before s' := by
  cases h with
  | advance hend =>
    refine ⟨?_, List.prefix_refl _, List.prefix_refl _⟩
    obtain ⟨t, rest, ha, ht, hadv⟩ := Cursor.exists_ahead hend
    refine ⟨[t], ?_, ?_, by simpa using ht⟩
    · simp [ParserState.advance, hadv]
    · simp [upcoming, Cursor.upcoming, ParserState.advance, hadv, ha]
  | flag cause =>
    refine ⟨⟨[], by simp [ParserState.flag, note, upcoming]⟩, ?_, List.prefix_refl _⟩
    simp [ParserState.flag, note]
  | enter name line =>
    exact ⟨⟨[], by simp [ParserState.enter, upcoming]⟩, List.prefix_refl _,
      (s.symbols.enterAt_spec name line).2⟩

theorem Steps.before {s s' : ParserState} (h : s.Steps s') : s.Before s' := by
  induction h with
  | refl => exact Before.refl s
  | tail _ hstep ih => exact ih.trans hstep.before

namespace Before

variable {s s' : ParserState}

theorem left_le (h : s.Before s') : s'.left ≤ s.left := by
  obtain ⟨taken, -, hu, -⟩ := h.row
  have := congrArg List.length hu
  simp only [upcoming, Cursor.upcoming, List.length_append, List.length_singleton] at this
  unfold left
  omega

theorem size_le (h : s.Before s') : s.symbols.size ≤ s'.symbols.size := by
  have := h.names.length_le
  simpa [SymbolTable.names, SymbolTable.size] using this

end Before

end ParserState

/-! ## Parsers go step by step -/

namespace Parser

open ParserState ResumePoints

theorem runFrom_of_ok {p : Parser α} {s s' : ParserState} {a : α} (h : p s = .ok a s') :
    p.runFrom s = (.ok a, s') := by
  rw [runFrom, h]

theorem runFrom_of_error {p : Parser α} {s s' : ParserState} {e : Failure}
    (h : p s = .error e s') : p.runFrom s = (.error e, s') := by
  rw [runFrom, h]

theorem ok_of_isOk {p : Parser α} {s : ParserState} (h : (p.runFrom s).1.isOk = true) :
    ∃ a, p s = .ok a (p.runFrom s).2 := by
  unfold runFrom at h ⊢
  cases hr : p s with
  | ok a s' => exact ⟨a, rfl⟩
  | error e s' =>
    rw [hr] at h
    cases h

/-- A parser whose runs are chains of steps, also those that end with a failure. -/
class Stepwise (p : Parser α) : Prop where
  steps : ∀ s : ParserState, s.Steps (p.runFrom s).2

theorem Stepwise.ok {p : Parser α} [hp : Stepwise p] {s s' : ParserState} {a : α}
    (h : p s = .ok a s') : s.Steps s' := by
  have := hp.steps s
  rwa [runFrom_of_ok h] at this

theorem Stepwise.error {p : Parser α} [hp : Stepwise p] {s s' : ParserState} {e : Failure}
    (h : p s = .error e s') : s.Steps s' := by
  have := hp.steps s
  rwa [runFrom_of_error h] at this

theorem bind_apply (p : Parser α) (f : α → Parser β) (s : ParserState) :
    (p >>= f) s = match p s with
      | .ok a s' => f a s'
      | .error e s' => .error e s' := by
  change EStateM.bind p f s = _
  unfold EStateM.bind
  rcases p s with ⟨a, s'⟩ | ⟨e, s'⟩ <;> rfl

theorem bind_of_ok {p : Parser α} {f : α → Parser β} {s s₁ : ParserState} {a : α}
    (h : p s = .ok a s₁) : (p >>= f) s = f a s₁ := by
  rw [bind_apply, h]

theorem bind_eq_ok {p : Parser α} {f : α → Parser β} {s s' : ParserState} {b : β} :
    (p >>= f) s = .ok b s' ↔ ∃ a s₁, p s = .ok a s₁ ∧ f a s₁ = .ok b s' := by
  rw [bind_apply]
  rcases p s with ⟨a, s₁⟩ | ⟨e, s₁⟩ <;> simp [and_assoc]

instance (a : α) : Stepwise (pure a : Parser α) := ⟨fun s => Steps.refl s⟩

instance {p : Parser α} {f : α → Parser β} [hp : Stepwise p] [hf : ∀ a, Stepwise (f a)] :
    Stepwise (p >>= f) := by
  constructor
  intro s
  have hs := hp.steps s
  rw [runFrom] at hs ⊢
  rw [bind_apply]
  rcases h : p s with ⟨a, s₁⟩ | ⟨e, s₁⟩
  · rw [h] at hs
    exact hs.trans ((hf a).steps s₁)
  · rwa [h] at hs

/-- A step whose result is not used. What comes next is searched for only once then. -/
instance {p : Parser α} {q : Parser β} [Stepwise p] [Stepwise q] : Stepwise (p >>= fun _ => q) :=
  inferInstance

instance {c : Prop} [Decidable c] {p q : Parser α} [Stepwise p] [Stepwise q] :
    Stepwise (if c then p else q) := by
  split <;> infer_instance

instance : Stepwise kind := ⟨fun s => Steps.refl s⟩
instance : Stepwise nextKind := ⟨fun s => Steps.refl s⟩
instance : Stepwise here := ⟨fun s => Steps.refl s⟩
instance : Stepwise line := ⟨fun s => Steps.refl s⟩
instance : Stepwise advance := ⟨fun s => steps_advance s⟩

instance (k : TokenKind) : Stepwise (accept k) := by
  constructor
  intro s
  unfold accept runFrom
  by_cases h : s.kind = k
  · simpa [h] using steps_advance s
  · simpa [h] using Steps.refl s

instance (cause : Cause) : Stepwise (flag cause) := ⟨fun s => (Step.flag s cause).steps⟩

instance (k : TokenKind) (missing : Cause) : Stepwise (expect k missing) := by
  constructor
  intro s
  unfold expect runFrom
  by_cases h : s.kind = k
  · simpa [h] using steps_advance s
  · simpa [h] using (Step.flag s missing).steps

instance (set : KindSet) : Stepwise (resumeAt set) := ⟨fun s => steps_resumeAt set s⟩

instance (settings : Settings) : Stepwise (checkLimit settings) := by
  constructor
  intro s
  unfold checkLimit runFrom
  by_cases h : settings.maxErrors < s.errorCount
  · simpa [h] using Steps.refl s
  · simpa [h] using Steps.refl s

instance : Stepwise (endedEarly : Parser α) := ⟨fun s => (Step.flag s _).steps⟩

instance (name : String) (line : Nat) : Stepwise (enter name line) :=
  ⟨fun s => (Step.enter s name line).steps⟩

/-! ## Loops and recursion -/

/-- Where a parser goes on with what an optional result holds. -/
theorem stepwise_option (p : Parser α) (f : β → Parser α) [Stepwise p] [∀ b, Stepwise (f b)]
    (o : Option β) : Stepwise (match o with
      | none => p
      | some b => f b) := by
  cases o <;> infer_instance

/-- What holds of parsers that are put one behind the other when it holds of each of them, holds of
a loop when it holds of its turns. -/
theorem loopWithin_of {K : {α : Type} → Parser α → Prop}
    (hpure : ∀ {α : Type} (a : α), K (pure a : Parser α))
    (hbind : ∀ {α β : Type} (p : Parser α) (f : α → Parser β), K p → (∀ a, K (f a)) → K (p >>= f))
    {turn : β → Parser (Option β)} (hturn : ∀ b, K (turn b)) (bound : List Token) (b : β) :
    K (loopWithin turn bound b) := by
  induction bound generalizing b with
  | nil => exact hbind _ _ (hturn b) fun o => hpure (o.getD b)
  | cons t bound ih =>
    apply hbind _ _ (hturn b)
    intro o
    cases o with
    | none => exact hpure b
    | some b => exact ih b

theorem steps_loopWithin (turn : β → Parser (Option β)) [∀ b, Stepwise (turn b)]
    (bound : List Token) (b : β) : Stepwise (loopWithin turn bound b) :=
  loopWithin_of (K := fun p => Stepwise p) (fun _ => inferInstance)
    (fun _ _ _ _ => inferInstance) (fun _ => inferInstance) bound b

instance (turn : β → Parser (Option β)) [∀ b, Stepwise (turn b)] (b : β) :
    Stepwise (loop turn b) :=
  ⟨fun s => (steps_loopWithin turn s.cursor.ahead b).steps s⟩

theorem steps_nestWithin {last : Parser α} {level : Parser α → Parser α} [Stepwise last]
    (hlevel : ∀ p, Stepwise p → Stepwise (level p)) (bound : List Token) :
    Stepwise (nestWithin last level bound) := by
  induction bound with
  | nil => exact ⟨fun s => (hlevel last inferInstance).steps s⟩
  | cons t bound ih => exact ⟨fun s => (hlevel _ ih).steps s⟩

theorem steps_nest {last : Parser α} {level : Parser α → Parser α} [Stepwise last]
    (hlevel : ∀ p, Stepwise p → Stepwise (level p)) : Stepwise (nest last level) :=
  ⟨fun s => (steps_nestWithin hlevel s.cursor.ahead).steps s⟩

/-! ## The parsers of the language -/

theorem ite_bind {c : Prop} [Decidable c] (p q : Parser α) (f : α → Parser β) :
    (if c then p else q) >>= f = if c then p >>= f else q >>= f := by
  split <;> rfl

/-- What a turn of a list does behind its statement. -/
def behindItem (settings : Settings) (closer : TokenKind) : Parser Unit := do
  checkLimit settings
  if !(← accept .semicolon) then
    let k ← kind
    if statementStart.contains k then flag .missingSemicolon
    else if k ≠ closer ∧ k ≠ .endOfFile then
      flag .unexpectedToken
      advance

theorem listTurn_eq (settings : Settings) (inner : Parser Node) (closer : TokenKind)
    (nodes : List Node) : listTurn settings inner closer nodes = (do
      let k ← kind
      if k = closer ∨ k = .endOfFile then return none
      else
        let node ← inner
        behindItem settings closer
        return some (nodes ++ [node])) := by
  unfold listTurn behindItem
  dsimp only
  simp only [bind_assoc, ite_bind, pure_bind]

section

variable {inner : Parser Node} [Stepwise inner] (settings : Settings)

instance (set : KindSet) (k : TokenKind) (missing : Cause) : Stepwise (expectIn set k missing) := by
  unfold expectIn; infer_instance

instance : Stepwise takeName := by unfold takeName; infer_instance

instance : Stepwise noOperand := by unfold noOperand; infer_instance

instance (n : Node) : Stepwise (constant n) := by unfold constant; infer_instance

instance : Stepwise (operand inner) := by
  have hkind : ∀ t : Token, Stepwise (match t.kind with
      | .identifier => (do return .var (← takeName) : Parser Node)
      | .integer => constant t.integerNode
      | .real => constant t.realNode
      | .string => constant t.stringNode
      | .leftParen => do
        advance
        let n ← inner
        expect .rightParen .missingRightParen
        return n
      | .endOfFile => endedEarly
      | _ => noOperand) := by
    intro t
    split <;> infer_instance
  unfold operand
  infer_instance

instance (n : Nat) : Stepwise (negationTurn n) := by unfold negationTurn; infer_instance

instance : Stepwise negations := by unfold negations; infer_instance

instance : Stepwise (factor inner) := by unfold factor; infer_instance

instance (operator? : TokenKind → Option NodeKind) (left : Node) :
    Stepwise (chainTurn operator? inner left) := by
  have hop : ∀ o : Option NodeKind, Stepwise (match o with
      | none => pure none
      | some op => do
        advance
        return some (.binary op left (← inner)) : Parser (Option Node)) := by
    intro o
    cases o <;> infer_instance
  unfold chainTurn
  infer_instance

instance (operator? : TokenKind → Option NodeKind) (first : Node) :
    Stepwise (chain operator? inner first) := by unfold chain; infer_instance

instance : Stepwise (term inner) := by unfold term; infer_instance

instance : Stepwise (simpleExpression inner) := by unfold simpleExpression; infer_instance

/-- What follows the left operand of a relation, when an operator does. -/
theorem stepwise_relation (inner : Parser Node) [Stepwise inner] (left : Node)
    (o : Option NodeKind) : Stepwise (match o with
      | none => pure left
      | some op => do
        advance
        return .binary op left (← simpleExpression inner) : Parser Node) := by
  cases o <;> infer_instance

instance : Stepwise (expressionLevel inner) := by
  have hop := stepwise_relation inner
  unfold expressionLevel
  infer_instance

instance : Stepwise expression := steps_nest fun _ _ => inferInstance

instance : Stepwise assignment := by unfold assignment; infer_instance

instance (args : List Node) : Stepwise (argumentTurn args) := by
  unfold argumentTurn; infer_instance

instance : Stepwise arguments := by unfold arguments; infer_instance

instance : Stepwise procedureCall := by unfold procedureCall; infer_instance

instance (closer : TokenKind) : Stepwise (behindItem settings closer) := by
  unfold behindItem; infer_instance

instance (closer : TokenKind) (nodes : List Node) :
    Stepwise (listTurn settings inner closer nodes) := by
  rw [listTurn_eq]; infer_instance

instance (closer : TokenKind) (missing : Cause) :
    Stepwise (statementList settings inner closer missing) := by
  unfold statementList; infer_instance

instance : Stepwise (compound settings inner) := by unfold compound; infer_instance

instance : Stepwise (ifStatement inner) := by unfold ifStatement; infer_instance

instance : Stepwise (whileStatement inner) := by unfold whileStatement; infer_instance

instance : Stepwise (repeatStatement settings inner) := by
  unfold repeatStatement; infer_instance

instance : Stepwise (loopStatement inner) := by unfold loopStatement; infer_instance

instance : Stepwise (whenStatement settings inner) := by unfold whenStatement; infer_instance

instance : Stepwise emptyStatement := by unfold emptyStatement; infer_instance

instance : Stepwise (statementLevel settings inner) := by
  have hkind : ∀ k : TokenKind, Stepwise (match k with
      | .kwBegin => compound settings inner
      | .identifier => do if endsCall (← nextKind) then procedureCall else assignment
      | .kwIf => ifStatement inner
      | .kwWhile => whileStatement inner
      | .kwRepeat => repeatStatement settings inner
      | .kwLoop => loopStatement inner
      | .kwWhen => whenStatement settings inner
      | _ => emptyStatement) := by
    intro k
    split <;> infer_instance
  unfold statementLevel
  infer_instance

instance : Stepwise (statement settings) := steps_nest fun _ _ => inferInstance

instance : Stepwise (program settings) := by unfold program; infer_instance

instance : Stepwise (loneStatement settings) := by unfold loneStatement; infer_instance

end

end Parser

end PascalFront
