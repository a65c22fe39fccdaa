-- The limit on syntax errors. A parser looks at it in one place only, between
-- two statements of a list, and all it does there is to give up. So a run with
-- a lower limit goes the way of a run with a higher one until it gives up, and
-- what it has noted and entered by then stays as it is in the other run.
import PascalFront.Proofs.Lockstep

namespace PascalFront

/-! ## Tables that grow -/

namespace SymbolTable

/-- A later table: every entry keeps its place and its name, and its lines only get more. -/
def GrownTo (t t' : SymbolTable) : Prop :=
  ∀ (i : Nat) (e : SymbolEntry), t.entries[i]? = some e →
    ∃ e' : SymbolEntry, t'.entries[i]? = some e' ∧ e'.name = e.name ∧ e.lines <+: e'.lines

theorem GrownTo.refl (t : SymbolTable) : t.GrownTo t :=
  fun _ e he => ⟨e, he, rfl, List.prefix_rfl⟩

theorem GrownTo.trans {t t' t'' : SymbolTable} (h : t.GrownTo t') (h' : t'.GrownTo t'') :
    t.GrownTo t'' := by
  intro i e he
  obtain ⟨e₁, he₁, hname₁, hlines₁⟩ := h i e he
  obtain ⟨e₂, he₂, hname₂, hlines₂⟩ := h' i e₁ he₁
  exact ⟨e₂, he₂, hname₂.trans hname₁, hlines₁.trans hlines₂⟩

theorem grownTo_mention (t : SymbolTable) (id : SymbolId) (line : Nat) :
    t.GrownTo (t.mention id line) := by
  intro i e he
  have hentry : (t.mention id line).entries[i]? =
      some (if id.number = i then SymbolEntry.mention e line else e) := by
    simp [mention, List.getElem?_modify, he]
  refine ⟨_, hentry, ?_⟩
  unfold SymbolEntry.mention
  split
  · split <;> simp
  · simp

theorem grownTo_enter (t : SymbolTable) (name : String) : t.GrownTo (t.enter name).2 := by
  intro i e he
  refine ⟨e, ?_, rfl, List.prefix_rfl⟩
  have hlt := (List.getElem?_eq_some_iff.mp he).1
  unfold enter
  split
  · exact he
  · simp [List.getElem?_append_left hlt, he]

theorem grownTo_enterAt (t : SymbolTable) (name : String) (line : Nat) :
    t.GrownTo (t.enterAt name line).2 :=
  (grownTo_enter t name).trans (grownTo_mention _ _ line)

end SymbolTable

theorem ParserState.Steps.grownTo {s s' : ParserState} (h : s.Steps s') :
    s.symbols.GrownTo s'.symbols := by
  induction h with
  | refl => exact SymbolTable.GrownTo.refl _
  | tail _ hstep ih =>
    refine ih.trans ?_
    cases hstep with
    | advance => exact SymbolTable.GrownTo.refl _
    | flag => exact SymbolTable.GrownTo.refl _
    | enter name line => exact SymbolTable.grownTo_enterAt _ name line

namespace Parser

open ParserState

/-! ## Parsers that give up sooner -/

/-- A run of `p` that is not the run of `q` gives up for too many errors, and from where it does
the run of `q` goes on. -/
class GivesUpSooner (p q : Parser α) : Prop where
  right : Stepwise q := by infer_instance
  run : ∀ s : ParserState, p s = q s ∨
    ∃ n s', p s = .error (.tooManyErrors n) s' ∧ s'.Steps (stateBehind (q s))

section

variable {p q p' q' : Parser α}

instance [Stepwise p] : GivesUpSooner p p where
  run _ := .inl rfl

instance {f g : α → Parser β} [hp : GivesUpSooner p q] [hf : ∀ a, GivesUpSooner (f a) (g a)] :
    GivesUpSooner (p >>= f) (q >>= g) where
  right := have := hp.right; have (a : α) : Stepwise (g a) := (hf a).right; inferInstance
  run := by
    intro s
    rw [bind_apply, bind_apply]
    rcases hp.run s with heq | ⟨n, s', hs', hsteps⟩
    · rw [heq]
      cases q s with
      | ok a s₁ => exact (hf a).run s₁
      | error e s₁ => exact .inl rfl
    · refine .inr ⟨n, s', by rw [hs'], hsteps.trans ?_⟩
      cases q s with
      | ok a s₁ =>
        have := (hf a).right
        exact Stepwise.behind (g a) s₁
      | error e s₁ => exact Steps.refl s₁

instance {r r' : Parser β} [GivesUpSooner p q] [GivesUpSooner r r'] :
    GivesUpSooner (p >>= fun _ => r) (q >>= fun _ => r') :=
  inferInstance

instance {c : Prop} [Decidable c] [GivesUpSooner p q] [GivesUpSooner p' q'] :
    GivesUpSooner (if c then p else p') (if c then q else q') := by
  split <;> assumption

theorem givesUpSooner_option (p : Parser α) (f : β → Parser α) (q : Parser α) (g : β → Parser α)
    [GivesUpSooner p q] [∀ b, GivesUpSooner (f b) (g b)] (o : Option β) :
    GivesUpSooner
      (match o with
        | none => p
        | some b => f b)
      (match o with
        | none => q
        | some b => g b) := by
  cases o <;> infer_instance

theorem givesUpSooner_loopWithin {turn turn' : β → Parser (Option β)}
    [ht : ∀ b, GivesUpSooner (turn b) (turn' b)] (bound : List Token) (b : β) :
    GivesUpSooner (loopWithin turn bound b) (loopWithin turn' bound b) := by
  induction bound generalizing b with
  | nil => unfold loopWithin; infer_instance
  | cons t bound ih =>
    have hcont := givesUpSooner_option (pure b) (loopWithin turn bound) (pure b)
      (loopWithin turn' bound)
    unfold loopWithin
    infer_instance

/-- Two loops in one state have one bound. -/
instance {turn turn' : β → Parser (Option β)} [ht : ∀ b, GivesUpSooner (turn b) (turn' b)]
    (b : β) : GivesUpSooner (loop turn b) (loop turn' b) where
  right := have (b : β) : Stepwise (turn' b) := (ht b).right; inferInstance
  run s := (givesUpSooner_loopWithin s.cursor.ahead b).run s

theorem givesUpSooner_nestWithin {last : Parser α} {level level' : Parser α → Parser α}
    [Stepwise last] (h : ∀ p q, GivesUpSooner p q → GivesUpSooner (level p) (level' q))
    (bound : List Token) :
    GivesUpSooner (nestWithin last level bound) (nestWithin last level' bound) := by
  induction bound with
  | nil => exact h _ _ inferInstance
  | cons t bound ih => exact h _ _ ih

theorem givesUpSooner_nest {last : Parser α} {level level' : Parser α → Parser α} [Stepwise last]
    (hlevel : ∀ p, Stepwise p → Stepwise (level' p))
    (h : ∀ p q, GivesUpSooner p q → GivesUpSooner (level p) (level' q)) :
    GivesUpSooner (nest last level) (nest last level') where
  right := steps_nest hlevel
  run s := (givesUpSooner_nestWithin h s.cursor.ahead).run s

end

/-! ## The parsers of the language -/

/-- Settings that differ in the limit alone, which is no higher in the first ones. -/
class LowerLimit (low high : Settings) : Prop where
  limit : low.maxErrors ≤ high.maxErrors
  stem : low.whenStem = high.whenStem

section

variable {low high : Settings} [hl : LowerLimit low high] {p q : Parser Node}
  [hpq : GivesUpSooner p q]

/-- Where both runs give up they say the same, and where only one does the other one goes on. -/
instance : GivesUpSooner (checkLimit low) (checkLimit high) where
  run s := by
    have hle := hl.limit
    unfold checkLimit
    by_cases hlow : low.maxErrors < s.errorCount
    · rw [if_pos hlow]
      refine .inr ⟨_, s, rfl, ?_⟩
      split <;> exact Steps.refl s
    · rw [if_neg hlow, if_neg (by omega)]
      exact .inl rfl

instance (closer : TokenKind) : GivesUpSooner (behindItem low closer) (behindItem high closer) := by
  unfold behindItem; infer_instance

instance (closer : TokenKind) (nodes : List Node) :
    GivesUpSooner (listTurn low p closer nodes) (listTurn high q closer nodes) := by
  rw [listTurn_eq, listTurn_eq]; infer_instance

instance (closer : TokenKind) (missing : Cause) :
    GivesUpSooner (statementList low p closer missing) (statementList high q closer missing) := by
  unfold statementList; infer_instance

instance : GivesUpSooner (compound low p) (compound high q) := by unfold compound; infer_instance

instance : GivesUpSooner (ifStatement p) (ifStatement q) := by unfold ifStatement; infer_instance

instance : GivesUpSooner (whileStatement p) (whileStatement q) := by
  unfold whileStatement; infer_instance

instance : GivesUpSooner (repeatStatement low p) (repeatStatement high q) := by
  unfold repeatStatement; infer_instance

instance : GivesUpSooner (loopStatement p) (loopStatement q) := by
  unfold loopStatement; infer_instance

omit hl in
theorem givesUpSooner_whenStatement (hstem : low.whenStem = high.whenStem) :
    GivesUpSooner (whenStatement low p) (whenStatement high q) := by
  have hname (line : Nat) : low.whenName line = high.whenName line := by
    rw [Settings.whenName, Settings.whenName, hstem]
  unfold whenStatement
  simp only [hname]
  infer_instance

instance : GivesUpSooner (statementLevel low p) (statementLevel high q) := by
  have hwhen : GivesUpSooner (whenStatement low p) (whenStatement high q) :=
    givesUpSooner_whenStatement hl.stem
  have hkind (k : TokenKind) : GivesUpSooner
      (match k with
        | .kwBegin => compound low p
        | .identifier => do if endsCall (← nextKind) then procedureCall else assignment
        | .kwIf => ifStatement p
        | .kwWhile => whileStatement p
        | .kwRepeat => repeatStatement low p
        | .kwLoop => loopStatement p
        | .kwWhen => whenStatement low p
        | _ => emptyStatement)
      (match k with
        | .kwBegin => compound high q
        | .identifier => do if endsCall (← nextKind) then procedureCall else assignment
        | .kwIf => ifStatement q
        | .kwWhile => whileStatement q
        | .kwRepeat => repeatStatement high q
        | .kwLoop => loopStatement q
        | .kwWhen => whenStatement high q
        | _ => emptyStatement) := by
    split <;> infer_instance
  unfold statementLevel
  infer_instance

instance : GivesUpSooner (statement low) (statement high) :=
  givesUpSooner_nest (fun _ _ => inferInstance) fun _ _ _ => inferInstance

instance : GivesUpSooner (program low) (program high) := by unfold program; infer_instance

end

end Parser

/-! ## The law -/

/-- What is known by the end of one run is known by the end of another one, at the same places. -/
structure Outcome.CutFrom (o o' : Outcome) : Prop where
  diagnostics : o.diagnostics <+: o'.diagnostics
  names : o.symbols.names <+: o'.symbols.names
  lines : o.symbols.GrownTo o'.symbols

/-- A lower limit on the syntax errors changes nothing about a parse, unless the parse ends with too
many of them. Then it only ends sooner. -/
theorem error_limit_only_truncates (stem source : String) {m m' : Nat} (h : m ≤ m') :
    ((∀ n, (parseProgram ⟨m, stem⟩ source).tree ≠ .error (.tooManyErrors n)) →
      parseProgram ⟨m, stem⟩ source = parseProgram ⟨m', stem⟩ source) ∧
    ∀ n, (parseProgram ⟨m, stem⟩ source).tree = .error (.tooManyErrors n) →
      (parseProgram ⟨m, stem⟩ source).CutFrom (parseProgram ⟨m', stem⟩ source) := by
  have : Parser.LowerLimit ⟨m, stem⟩ ⟨m', stem⟩ := ⟨h, rfl⟩
  have hsooner : Parser.GivesUpSooner (Parser.program ⟨m, stem⟩) (Parser.program ⟨m', stem⟩) :=
    inferInstance
  rcases hsooner.run (.start (tokensOf source) {}) with heq | ⟨n, s', hs', hsteps⟩
  · have hsame : parseProgram ⟨m, stem⟩ source = parseProgram ⟨m', stem⟩ source := by
      simp only [parseProgram, Parser.runOn, Parser.runFrom, heq]
    refine ⟨fun _ => hsame, fun n _ => ?_⟩
    rw [hsame]
    exact ⟨List.prefix_rfl, List.prefix_rfl, SymbolTable.GrownTo.refl _⟩
  · have hlow : parseProgram ⟨m, stem⟩ source = ⟨.error (.tooManyErrors n),
        lexicalDiagnostics (tokensOf source) ++ s'.diagnostics.toList, s'.symbols⟩ := by
      simp only [parseProgram, Parser.runOn, Parser.runFrom, hs']
    have hhigh := Parser.runFrom_state (Parser.program ⟨m', stem⟩) (.start (tokensOf source) {})
    rw [← hhigh] at hsteps
    rw [hlow]
    refine ⟨fun hnone => absurd rfl (hnone n), fun _ _ => ⟨?_, ?_, ?_⟩⟩
    · exact (List.prefix_append_right_inj _).mpr hsteps.before.diagnostics
    · exact hsteps.before.names
    · exact hsteps.grownTo

/-- A program with a fault in each of its statements. -/
def crowdedSource : String := "BEGIN a b; c := ;\nd ) e; WHEN + 1 END."

theorem crowdedSource_is_cut_short :
    1 ≤ 9 ∧ (parseProgram ⟨1, "$when_"⟩ crowdedSource).tree = .error (.tooManyErrors 2) ∧
    (parseProgram ⟨1, "$when_"⟩ crowdedSource).CutFrom (parseProgram ⟨9, "$when_"⟩ crowdedSource) ∧
    8 ≤ 9 ∧ (∀ n, (parseProgram ⟨8, "$when_"⟩ crowdedSource).tree ≠ .error (.tooManyErrors n)) ∧
    parseProgram ⟨8, "$when_"⟩ crowdedSource = parseProgram ⟨9, "$when_"⟩ crowdedSource := by
  have hcut : (parseProgram ⟨1, "$when_"⟩ crowdedSource).tree.map (fun _ => ()) =
      .error (.tooManyErrors 2) := by
    decide +kernel
  have hfail : (parseProgram ⟨1, "$when_"⟩ crowdedSource).tree = .error (.tooManyErrors 2) := by
    generalize (parseProgram ⟨1, "$when_"⟩ crowdedSource).tree = tree at hcut ⊢
    cases tree with
    | error e => rw [Except.error.inj hcut]
    | ok node => cases hcut
  have hok : (parseProgram ⟨8, "$when_"⟩ crowdedSource).tree.isOk = true := by decide +kernel
  have hnone (n : Nat) :
      (parseProgram ⟨8, "$when_"⟩ crowdedSource).tree ≠ .error (.tooManyErrors n) := by
    intro heq
    rw [heq] at hok
    cases hok
  refine ⟨by decide, hfail, ?_, by decide, hnone, ?_⟩
  · exact (error_limit_only_truncates "$when_" crowdedSource (by decide)).2 2 hfail
  · exact (error_limit_only_truncates "$when_" crowdedSource (by decide)).1 hnone

end PascalFront
