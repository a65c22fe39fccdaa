-- The hidden variables of WHEN statements. Their names stand in one table with
-- the names of the program, but no identifier is ever entered under such a
-- name. So the table has the hidden variables of exactly those WHEN statements
-- whose expression was read, and each of them with its own line alone.
import PascalFront.Proofs.NestedStatements
import PascalFront.Proofs.Tallies

namespace PascalFront

/-! ## Names under another stem -/

/-- Settings that call no hidden variable as these ones do. -/
def Settings.besides (settings : Settings) : Settings :=
  { settings with whenStem := settings.whenStem ++ "x" }

theorem Settings.whenName_besides_ne (settings : Settings) (line line' : Nat) :
    settings.besides.whenName line ≠ settings.whenName line' := by
  intro h
  have hchars := congrArg String.toList h
  rw [toList_whenName, toList_whenName, besides, String.toList_append, List.append_assoc,
    List.append_cancel_left_eq] at hchars
  have hmem : 'x' ∈ Nat.toDigits 10 line' := by
    rw [← hchars]
    simp
  exact absurd (isLetter_of_mem_toDigits hmem) (by decide)

namespace ParserState

/-! ## What is hidden in a state -/

/-- No identifier of the row is called like a hidden variable. -/
def WordsApart (settings : Settings) (s : ParserState) : Prop :=
  ∀ t ∈ s.cursor.tokens, t.kind = .identifier → ¬ settings.IsWhenName (caseFold t.text)

/-- The table has the hidden variable of a line. -/
def Hides (settings : Settings) (s : ParserState) (line : Nat) : Prop :=
  settings.whenName line ∈ s.symbols.names

section

variable {settings : Settings} {s s' : ParserState} {line : Nat}

theorem WordsApart.steps (h : s.WordsApart settings) (hs : s.Steps s') :
    s'.WordsApart settings := by
  unfold WordsApart
  rw [hs.before.tokens_eq]
  exact h

theorem Hides.steps (h : s.Hides settings line) (hs : s.Steps s') : s'.Hides settings line :=
  hs.before.names.subset h

theorem WordsApart.identifiers (h : s.WordsApart settings) :
    ∀ t ∈ s.identifiers, ¬ settings.IsWhenName (caseFold t.text) := by
  intro t ht
  obtain ⟨hpassed, hk⟩ := List.mem_filter.mp ht
  refine h t ?_ (beq_iff_eq.mp hk)
  exact List.mem_append_left _ (List.mem_append_left _ hpassed)

/-- Under settings that call the hidden variables otherwise, no step enters such a name. -/
theorem Enterings.hides (h : Enterings settings.besides s s')
    (hwords : ∀ t ∈ s'.identifiers, ¬ settings.IsWhenName (caseFold t.text))
    (hline : s'.Hides settings line) : s.Hides settings line := by
  induction h with
  | refl => exact hline
  | @tail m u _ hstep ih =>
    apply ih fun t ht => hwords t (hstep.identifiers_prefix.subset ht)
    unfold Hides at hline ⊢
    cases hstep with
    | nothing _ hsymbols => rwa [hsymbols] at hline
    | name t hids hsymbols =>
      rw [hsymbols, SymbolTable.mem_names_enterAt] at hline
      apply hline.resolve_right
      intro heq
      exact hwords t (by rw [hids]; simp) ⟨line, heq.symm⟩
    | hidden line' _ hsymbols =>
      rw [hsymbols, SymbolTable.mem_names_enterAt] at hline
      apply hline.resolve_right
      intro heq
      exact settings.whenName_besides_ne line' line heq.symm

end

end ParserState

namespace Parser

open ParserState ResumePoints

/-! ## Which lines a parser hides -/

/-- From a state on, a parser enters the hidden variables of some lines only. -/
def HidesOnly (settings : Settings) (lines : Nat → Prop) (p : Parser α) (s : ParserState) : Prop :=
  s.WordsApart settings → ∀ line, (stateBehind (p s)).Hides settings line →
    s.Hides settings line ∨ lines line

/-- A WHEN statement at a state, whose expression is read and starts on a line. -/
structure EvaluatesWhen (s : ParserState) (line : Nat) : Prop where
  kind : s.kind = .kwWhen
  line : s.advance.line = line
  value : ∃ value s', expression s.advance = .ok value s'

namespace HidesOnly

variable {settings : Settings} {lines : Nat → Prop} {p : Parser α} {f : α → Parser β}
  {s : ParserState}

theorem mono {lines' : Nat → Prop} (h : HidesOnly settings lines p s)
    (hle : ∀ line, lines line → lines' line) : HidesOnly settings lines' p s :=
  fun hwords line hline => (h hwords line hline).imp_right (hle line)

/-- What enters identifiers and nothing else hides nothing. -/
theorem of_enterings [Stepwise p] (h : Enterings settings.besides s (stateBehind (p s))) :
    HidesOnly settings lines p s := by
  intro hwords line hline
  have hbehind := hwords.steps (Stepwise.behind p s)
  exact .inl (h.hides hbehind.identifiers hline)

theorem nothing [Stepwise p] [hp : Indexing settings.besides p] : HidesOnly settings lines p s :=
  of_enterings (hp.enterings s)

theorem bind [Stepwise p] (hp : HidesOnly settings lines p s)
    (hf : ∀ a s₁, p s = .ok a s₁ → HidesOnly settings lines (f a) s₁) :
    HidesOnly settings lines (p >>= f) s := by
  intro hwords line hline
  have hfirst := hp hwords line
  have hbehind := hwords.steps (Stepwise.behind p s)
  rw [bind_apply] at hline
  generalize hr : p s = r at hline hfirst hbehind
  cases r with
  | ok a s₁ =>
    rcases hf a s₁ hr hbehind line hline with h | h
    · exact hfirst h
    · exact .inr h
  | error e s₁ => exact hfirst hline

/-- Behind a parser that enters identifiers and nothing else. -/
theorem after [Stepwise p] [Indexing settings.besides p]
    (hf : ∀ a s₁, p s = .ok a s₁ → HidesOnly settings lines (f a) s₁) :
    HidesOnly settings lines (p >>= f) s :=
  nothing.bind hf

theorem line {f : Nat → Parser β} (h : HidesOnly settings lines (f s.line) s) :
    HidesOnly settings lines (Parser.line >>= f) s := h

theorem kind {f : TokenKind → Parser β} (h : HidesOnly settings lines (f s.kind) s) :
    HidesOnly settings lines (Parser.kind >>= f) s := h

theorem nextKind {f : TokenKind → Parser β}
    (h : HidesOnly settings lines (f s.cursor.second.kind) s) :
    HidesOnly settings lines (Parser.nextKind >>= f) s := h

theorem advance {f : Unit → Parser β} (h : HidesOnly settings lines (f ()) s.advance) :
    HidesOnly settings lines (Parser.advance >>= f) s :=
  fun hwords => h (hwords.steps (steps_advance s))

/-- A hidden variable is hidden on its own line. -/
theorem enter {line : Nat} (h : lines line) :
    HidesOnly settings lines (Parser.enter (settings.whenName line) line) s := by
  intro _ line' hline'
  have hmem : settings.whenName line' ∈
      (s.symbols.enterAt (settings.whenName line) line).2.names := hline'
  rw [SymbolTable.mem_names_enterAt] at hmem
  apply hmem.imp_right
  intro heq
  rwa [whenName_injective settings heq]

end HidesOnly

section

variable {settings : Settings} {lines : Nat → Prop} {s : ParserState}

theorem hidesOnly_listLoop {closer : TokenKind} {nodes : List Node}
    (hitem : ∀ s', ReachesItem settings closer nodes s s' →
      HidesOnly settings lines (statement settings) s') :
    HidesOnly settings lines (loop (listTurn settings (statement settings) closer) nodes) s := by
  have hprogress := listTurn_progressive settings (statement_isStatementParser settings) closer
  generalize hn : s.left = n
  induction n using Nat.strongRecOn generalizing nodes s with
  | ind n ih =>
    subst hn
    rw [loop_unrolls hprogress nodes]
    refine .bind ?_ fun o s₁ ho => ?_
    · rw [listTurn_eq]
      apply HidesOnly.kind
      split
      · exact .nothing
      · rename_i hk
        simp only [not_or] at hk
        exact .bind (hitem s (.here hk.1 hk.2)) fun node s₁ _ => .nothing
    · cases o with
      | none => exact .nothing
      | some nodes' =>
        exact ih s₁.left (hprogress _ _ _ _ ho) (fun s' h => hitem s' (.later ho h)) rfl

theorem hidesOnly_statementList {closer : TokenKind} [Nameless closer] (missing : Cause)
    (hitem : ∀ s', ReachesItem settings closer [] s s' →
      HidesOnly settings lines (statement settings) s') :
    HidesOnly settings lines (statementList settings (statement settings) closer missing) s :=
  .bind (hidesOnly_listLoop hitem) fun _ _ _ => .nothing

theorem hidesOnly_compound
    (hitem : ∀ s', ReachesItem settings .kwEnd [] s.advance s' →
      HidesOnly settings lines (statement settings) s') :
    HidesOnly settings lines (compound settings (statement settings)) s :=
  .line (.advance (.bind (hidesOnly_statementList _ hitem) fun _ _ _ => .nothing))

variable (hpart : ∀ s', ReachesPart settings s s' →
  HidesOnly settings lines (statement settings) s')

include hpart

theorem hidesOnly_repeatStatement (hk : s.kind = .kwRepeat) :
    HidesOnly settings lines (repeatStatement settings (statement settings)) s := by
  refine .line (.advance (.bind (hidesOnly_statementList _ fun s' h => ?_) fun _ _ _ => .nothing))
  exact hpart s' (.item (by rw [hk]; rfl) h)

theorem hidesOnly_ifStatement (hk : s.kind = .kwIf) :
    HidesOnly settings lines (ifStatement (statement settings)) s := by
  refine .line (.advance (.after fun condition s₁ h₁ => .after fun _ s₂ h₂ => ?_))
  have hthen : thenHeader s = .ok true s₂ := by
    unfold thenHeader
    rw [advance_bind, bind_of_ok h₁, bind_of_ok h₂]
    rfl
  refine .bind (hpart s₂ (.behind hk (by simp [headers]) hthen)) fun yes s₃ h₃ => ?_
  refine .after fun there s₄ h₄ => ?_
  cases there with
  | false =>
    rw [if_neg Bool.false_ne_true]
    exact .nothing
  | true =>
    have helse : elseHeader settings s = .ok true s₄ := by
      unfold elseHeader
      rw [bind_of_ok hthen, bind_of_ok h₃, h₄]
    exact .bind (hpart s₄ (.behind hk (by simp [headers]) helse)) fun _ _ _ => .nothing

theorem hidesOnly_whileStatement (hk : s.kind = .kwWhile) :
    HidesOnly settings lines (whileStatement (statement settings)) s := by
  refine .line (.advance (.after fun condition s₁ h₁ => .after fun _ s₂ h₂ => ?_))
  have hheader : whileHeader s = .ok true s₂ := by
    unfold whileHeader
    rw [advance_bind, bind_of_ok h₁, bind_of_ok h₂]
    rfl
  exact .bind (hpart s₂ (.behind hk (by simp [headers]) hheader)) fun _ _ _ => .nothing

theorem hidesOnly_loopStatement (hk : s.kind = .kwLoop) :
    HidesOnly settings lines (loopStatement (statement settings)) s := by
  refine .advance (.after fun _ s₁ h₁ => .line (.after fun initial s₂ h₂ => ?_))
  refine .after fun _ s₃ h₃ => .after fun condition s₄ h₄ => .after fun _ s₅ h₅ => ?_
  refine .after fun update s₆ h₆ => .after fun _ s₇ h₇ => .after fun _ s₈ h₈ => ?_
  have hheader : countingHeader s = .ok true s₈ := by
    unfold countingHeader
    rw [advance_bind, bind_of_ok h₁, bind_of_ok h₂, bind_of_ok h₃, bind_of_ok h₄, bind_of_ok h₅,
      bind_of_ok h₆, bind_of_ok h₇, bind_of_ok h₈]
    rfl
  exact .bind (hpart s₈ (.behind hk (by simp [headers]) hheader)) fun _ _ _ => .nothing

theorem hidesOnly_whenStatement (hk : s.kind = .kwWhen)
    (hown : EvaluatesWhen s s.advance.line → lines s.advance.line) :
    HidesOnly settings lines (whenStatement settings (statement settings)) s := by
  refine .line (.advance (.line (.after fun value s₁ h₁ => ?_)))
  refine .bind (.enter (hown ⟨hk, rfl, value, s₁, h₁⟩)) fun hidden s₂ h₂ => ?_
  refine .after fun _ s₃ h₃ => ?_
  have hnegative : negativeHeader settings s = .ok true s₃ := by
    unfold negativeHeader
    rw [advance_bind, line_bind, bind_of_ok h₁, bind_of_ok h₂, bind_of_ok h₃]
    rfl
  refine .bind (hpart s₃ (.behind hk (by simp [headers]) hnegative)) fun negative s₄ h₄ => ?_
  refine .after fun _ s₅ h₅ => .after fun _ s₆ h₆ => .line (.after fun _ s₇ h₇ => ?_)
  have hzero : zeroHeader settings s = .ok true s₇ := by
    unfold zeroHeader
    rw [bind_of_ok hnegative, bind_of_ok h₄, bind_of_ok h₅, bind_of_ok h₆, bind_of_ok h₇]
    rfl
  refine .bind (hpart s₇ (.behind hk (by simp [headers]) hzero)) fun zero s₈ h₈ => ?_
  refine .after fun _ s₉ h₉ => .after fun _ s' h' => ?_
  have hpositive : positiveHeader settings s = .ok true s' := by
    unfold positiveHeader
    rw [bind_of_ok hzero, bind_of_ok h₈, bind_of_ok h₉, bind_of_ok h']
    rfl
  exact .bind (hpart s' (.behind hk (by simp [headers]) hpositive)) fun _ _ _ => .nothing

end

/-- A statement hides the lines of the WHEN statements in it. -/
theorem hidesOnly_statement (settings : Settings) (s : ParserState) :
    HidesOnly settings (fun line => ∃ s', ReachesWithin settings s s' ∧ EvaluatesWhen s' line)
      (statement settings) s := by
  -- on the tokens left: the parts of a statement start further on
  generalize hn : s.left = n
  induction n using Nat.strongRecOn generalizing s with
  | ind n ih =>
    subst hn
    have hpart : ∀ s', ReachesPart settings s s' → HidesOnly settings
        (fun line => ∃ u, ReachesWithin settings s u ∧ EvaluatesWhen u line)
        (statement settings) s' := by
      intro s' hs'
      apply (ih s'.left hs'.left_lt s' rfl).mono
      rintro line ⟨u, hu, hwhen⟩
      exact ⟨u, .head hs' hu, hwhen⟩
    rw [statement_eq settings]
    unfold statementLevel
    apply HidesOnly.kind
    cases hk : s.kind
    case kwBegin => exact hidesOnly_compound fun s' h => hpart s' (.item (by rw [hk]; rfl) h)
    case identifier =>
      apply HidesOnly.nextKind
      split
      · exact .of_enterings (enterings_procedureCall hk)
      · exact .nothing
    case kwIf => exact hidesOnly_ifStatement hpart hk
    case kwWhile => exact hidesOnly_whileStatement hpart hk
    case kwRepeat => exact hidesOnly_repeatStatement hpart hk
    case kwLoop => exact hidesOnly_loopStatement hpart hk
    case kwWhen => exact hidesOnly_whenStatement hpart hk fun hown => ⟨s, .refl, hown⟩
    all_goals exact .nothing

/-- A program hides the lines of the WHEN statements that it reads. -/
theorem hidesOnly_program (settings : Settings) (s : ParserState) :
    HidesOnly settings (fun line => ∃ s', ReachesStatement settings s s' ∧ EvaluatesWhen s' line)
      (program settings) s := by
  unfold program
  apply HidesOnly.kind
  split
  · rename_i hk
    refine .bind (hidesOnly_compound fun u hu => ?_) fun _ _ _ => .nothing
    apply (hidesOnly_statement settings u).mono
    rintro line ⟨s', hs', hwhen⟩
    exact ⟨s', .block hk hu hs', hwhen⟩
  · rename_i hk
    refine .line (.bind (hidesOnly_statementList _ fun u hu => ?_) fun _ _ _ => .nothing)
    apply (hidesOnly_statement settings u).mono
    rintro line ⟨s', hs', hwhen⟩
    exact ⟨s', .bare hk hu hs', hwhen⟩

/-- A WHEN statement whose expression is read has its hidden variable from then on. -/
theorem EvaluatesWhen.hides {s : ParserState} {line : Nat} (settings : Settings)
    (h : EvaluatesWhen s line) : (stateBehind (statement settings s)).Hides settings line := by
  obtain ⟨hk, rfl, value, s₁, hvalue⟩ := h
  rw [statement_eq settings]
  unfold statementLevel
  rw [kind_bind, hk]
  dsimp only
  unfold whenStatement
  rw [line_bind, advance_bind, line_bind, bind_of_ok hvalue]
  have hentered : (stateBehind (enter (settings.whenName s.advance.line) s.advance.line s₁)).Hides
      settings s.advance.line :=
    SymbolTable.mem_names_enterAt.mpr (.inr rfl)
  exact hentered.steps stateBehind_bind

/-- From an empty table on, the hidden variables are those of the WHEN statements whose expression
is read. -/
theorem hides_program_iff {settings : Settings} {s : ParserState} (hwords : s.WordsApart settings)
    (hs : s.symbols.names = []) (line : Nat) :
    (stateBehind (program settings s)).Hides settings line ↔
      ∃ s', ReachesStatement settings s s' ∧ EvaluatesWhen s' line := by
  constructor
  · intro hline
    rcases hidesOnly_program settings s hwords line hline with hhidden | hread
    · simp [Hides, hs] at hhidden
    · exact hread
  · rintro ⟨s', hs', hwhen⟩
    exact (hwhen.hides settings).steps hs'.steps

end Parser

/-! ## The lines of hidden variables -/

/-- No name stands twice in the table, and a hidden variable has its own line alone. -/
structure SymbolTable.Separate (settings : Settings) (t : SymbolTable) : Prop where
  distinct : t.names.Nodup
  lines : ∀ e ∈ t.entries, ∀ line, e.name = settings.whenName line → e.lines = [line]

theorem SymbolTable.Separate.enterAt {settings : Settings} {t : SymbolTable} {name : String}
    {line : Nat} (h : t.Separate settings)
    (hname : ∀ line', name = settings.whenName line' → line' = line) :
    (t.enterAt name line).2.Separate settings := by
  refine ⟨nodup_enterAt h.distinct name line, ?_⟩
  by_cases hmem : name ∈ t.names
  · rw [entries_enterAt_of_mem h.distinct hmem]
    intro e' he' line' heq
    obtain ⟨e, he, rfl⟩ := List.mem_map.mp he'
    rw [name_mentionOf] at heq
    have hlines := h.lines e he line' heq
    unfold mentionOf
    split
    · rename_i hentry
      obtain rfl := hname line' (hentry.symm.trans heq)
      simp [SymbolEntry.mention, hlines]
    · exact hlines
  · rw [entries_enterAt_of_notMem hmem]
    intro e he line' heq
    rcases List.mem_append.mp he with he | he
    · exact h.lines e he line' heq
    · rw [List.mem_singleton.mp he] at heq ⊢
      rw [hname line' heq]

theorem ParserState.Enterings.separate {settings : Settings} {s s' : ParserState}
    (h : s.Enterings settings s')
    (hwords : ∀ t ∈ s'.identifiers, ¬ settings.IsWhenName (caseFold t.text))
    (hs : s.symbols.Separate settings) : s'.symbols.Separate settings := by
  induction h with
  | refl => exact hs
  | tail _ hstep ih =>
    have hsep := ih fun t ht => hwords t (hstep.identifiers_prefix.subset ht)
    cases hstep with
    | nothing _ hsymbols => rwa [hsymbols]
    | name t hids hsymbols =>
      rw [hsymbols]
      exact hsep.enterAt fun line heq => absurd ⟨line, heq⟩ (hwords t (by rw [hids]; simp))
    | hidden line _ hsymbols =>
      rw [hsymbols]
      exact hsep.enterAt fun line' heq => (Parser.whenName_injective settings heq).symm

/-! ## The nodes of identifiers -/

/-- A number that a table has given to a hidden variable. -/
def SymbolId.IsHiddenIn (settings : Settings) (t : SymbolTable) (id : SymbolId) : Prop :=
  ∃ line, t.find? (settings.whenName line) = some id

theorem SymbolTable.nameOf_of_find? {t : SymbolTable} {name : String} {id : SymbolId}
    (h : t.find? name = some id) : t.nameOf id = name := by
  obtain ⟨i, hi, rfl⟩ := Option.map_eq_some_iff.mp h
  obtain ⟨hlt, hname, -⟩ := List.findIdx?_eq_some_iff_getElem.mp hi
  simpa [nameOf, entry?, List.getElem?_eq_getElem hlt] using hname

theorem SymbolId.IsHiddenIn.isWhenName {settings : Settings} {t : SymbolTable} {id : SymbolId}
    (h : id.IsHiddenIn settings t) : settings.IsWhenName (t.nameOf id) := by
  obtain ⟨line, hfind⟩ := h
  exact ⟨line, SymbolTable.nameOf_of_find? hfind⟩

namespace Parser

open ParserState

/-- The parsers that make nodes of identifiers, at a state where they can be called. -/
inductive MakesNodes : Parser Node → ParserState → Prop
  | expression (s : ParserState) : MakesNodes expression s
  | assignment (s : ParserState) : MakesNodes assignment s
  | call {s : ParserState} : s.kind = .identifier → MakesNodes procedureCall s

section

variable {settings : Settings} {p : Parser Node} {s s' final : ParserState}

theorem MakesNodes.stepwise (h : MakesNodes p s) : Stepwise p := by
  cases h <;> infer_instance

theorem MakesNodes.tally (h : MakesNodes p s) (v : Watch) (hs : Twin s s) :
    v.Tally v.uses 0 p p s s := by
  cases h with
  | expression => exact Watch.tallies_expression s s hs
  | assignment => exact Watch.tallies_assignment s s hs
  | call hk => exact Watch.tally_procedureCall hs hk

theorem mentions_whenName (h : s.WordsApart settings) (line : Nat) :
    s.mentions (settings.whenName line) = 0 := by
  apply List.countP_eq_zero.mpr
  intro t ht heq
  exact h.identifiers t ht ⟨line, beq_iff_eq.mp heq⟩

/-- What such a parser makes uses no hidden variable. -/
theorem MakesNodes.uses_eq_zero (h : MakesNodes p s) (hs : Twin s s)
    (hwords : s.WordsApart settings) {n : Node} (hrun : p s = .ok n s') (hfinal : s'.Steps final)
    (line : Nat) :
    n.uses final.symbols (settings.whenName line) = 0 := by
  have := h.stepwise
  have hwords' := hwords.steps (Stepwise.ok hrun)
  let v : Watch := ⟨settings.besides, settings.besides, final.symbols, settings.whenName line⟩
  have hclear : v.Clear (stateBehind (p s)) :=
    fun line' heq => absurd heq (settings.whenName_besides_ne line' line)
  have htally : n.uses final.symbols (settings.whenName line) +
      s.mentions (settings.whenName line) = 0 + s'.mentions (settings.whenName line) :=
    h.tally v hs n s' hrun hclear hfinal.before.names
  rw [mentions_whenName hwords, mentions_whenName hwords'] at htally
  omega

theorem not_isHiddenIn_of_uses {n m : Node} {t : SymbolTable}
    (h : ∀ line, n.uses t (settings.whenName line) = 0) (hm : m ∈ n.walk)
    (hk : m.kind = .var ∨ m.kind = .call) {id : SymbolId} (hid : m.id = some id) :
    ¬ id.IsHiddenIn settings t := by
  intro hhidden
  obtain ⟨line, hname⟩ := hhidden.isWhenName
  have hnone := List.countP_eq_zero.mp (h line) m hm
  simp [Node.naming, hk, hid, hname] at hnone

/-- An identifier keeps its number and its name. -/
theorem not_isHiddenIn_of_takeName {id : SymbolId} (hwords : s.WordsApart settings)
    (hk : s.kind = .identifier) (hrun : takeName s = .ok id s') (hfinal : s'.Steps final) :
    ¬ id.IsHiddenIn settings final.symbols := by
  intro hhidden
  rw [takeName_eq] at hrun
  cases hrun
  have hname : final.symbols.nameOf (s.enter (caseFold s.here.text) s.line).1 =
      caseFold s.here.text :=
    nameOf_mentioned hfinal.before.names
  have hmem : s.here ∈ s.cursor.tokens := List.mem_of_getElem? (tokens_here s)
  exact hwords s.here hmem hk (hname ▸ hhidden.isWhenName)

end

/-! ## The law -/

/-- How the hidden variables of a parse stand apart from its identifiers, however the parse ends. -/
structure HiddenApart (settings : Settings) (source : String) : Prop where
  /-- Wherever an identifier is taken, its number is that of no hidden variable, then or later. -/
  identifiers : ∀ s id s' final, (start (tokensOf source) {}).Steps s → s.kind = .identifier →
    takeName s = .ok id s' → s'.Steps final → ¬ id.IsHiddenIn settings final.symbols
  /-- So it is for the nodes that are made of identifiers. -/
  nodes : ∀ p s n s' final, (start (tokensOf source) {}).Steps s → MakesNodes p s →
    p s = .ok n s' → s'.Steps final → ∀ m ∈ n.walk, m.kind = .var ∨ m.kind = .call →
      ∀ id, m.id = some id → ¬ id.IsHiddenIn settings final.symbols
  words : ∀ t ∈ consumed settings source, ¬ settings.IsWhenName (caseFold t.text)
  /-- A tree has one node with its name for each identifier that was passed. -/
  tree : ∀ tree, (parseProgram settings source).tree = .ok tree →
    ∀ name, ¬ settings.IsWhenName name → tree.uses (parseProgram settings source).symbols name =
      (consumed settings source).countP (caseFold ·.text == name)
  /-- The hidden variables are those of the WHEN statements whose expression was read. -/
  hidden : ∀ line, settings.whenName line ∈ (parseProgram settings source).symbols.names ↔
    ∃ s, ReachesStatement settings (start (tokensOf source) {}) s ∧ EvaluatesWhen s line
  lines : (parseProgram settings source).symbols.Separate settings

theorem wordsApart_start {settings : Settings} (hstem : settings.StemApart) (source : String) :
    (start (tokensOf source) {}).WordsApart settings := by
  intro t ht hk
  rw [start_tokens] at ht
  obtain ⟨c, more, htext, hletter⟩ := Scanner.identifier_letter (List.mem_filter.mp ht).1 hk
  rw [htext]
  exact not_isWhenName_caseFold hstem hletter more

/-- No identifier of a text is ever taken for a hidden variable, where the names of those start with
no letter. -/
theorem hidden_variables_stay_apart (settings : Settings) (source : String)
    (hstem : settings.StemApart) : HiddenApart settings source := by
  have hwords := wordsApart_start hstem source
  have hbehind : ((program settings).runFrom (start (tokensOf source) {})).2 =
      stateBehind (program settings (start (tokensOf source) {})) := runFrom_state _ _
  have hwords' :
      (stateBehind (program settings (start (tokensOf source) {}))).WordsApart settings :=
    hwords.steps (Stepwise.behind _ _)
  have hsymbols : (parseProgram settings source).symbols =
      (stateBehind (program settings (start (tokensOf source) {}))).symbols :=
    congrArg ParserState.symbols hbehind
  have hconsumed : consumed settings source =
      (stateBehind (program settings (start (tokensOf source) {}))).identifiers :=
    congrArg ParserState.identifiers hbehind
  refine ⟨?_, ?_, ?_, ?_, ?_, ?_⟩
  · intro s id s' final hs hk hrun hfinal
    exact not_isHiddenIn_of_takeName (hwords.steps hs) hk hrun hfinal
  · intro p s n s' final hs hmakes hrun hfinal m hm hk id hid
    obtain ⟨notes, hwritten, -⟩ := hs.written (written_start _ _)
    exact not_isHiddenIn_of_uses
      (hmakes.uses_eq_zero hwritten.twin (hwords.steps hs) hrun hfinal) hm hk hid
  · rw [hconsumed]
    exact hwords'.identifiers
  · intro tree htree name hname
    rw [hconsumed, hsymbols]
    apply uses_eq_mentions (eq_ok_of_runFrom htree) settings.whenStem
    exact fun line heq => absurd ⟨line, heq.symm⟩ hname
  · intro line
    rw [hsymbols]
    exact hides_program_iff hwords rfl line
  · rw [hsymbols]
    have hstart : (start (tokensOf source) {}).symbols.Separate settings :=
      ⟨List.nodup_nil, fun e he => absurd he List.not_mem_nil⟩
    have hrun : Enterings settings (start (tokensOf source) {})
        (stateBehind (program settings (start (tokensOf source) {}))) := Indexing.enterings _
    exact hrun.separate hwords'.identifiers hstart

/-- Two WHEN statements on one line, the second one in the first, and a third one whose expression
is cut off. -/
def cutSource : String := "WHEN a LESSTHAN0 WHEN b ) LESSTHAN0 a :=\nc EQUAL0\n\nWHEN d +"

theorem cutSource_stays_apart :
    (⟨25, ""⟩ : Settings).StemApart ∧ (parseProgram ⟨25, ""⟩ cutSource).tree.isOk = false ∧
    (parseProgram ⟨25, ""⟩ cutSource).symbols.entries =
      [⟨"a", [1]⟩, ⟨"1", [1]⟩, ⟨"b", [1]⟩, ⟨"c", [2]⟩, ⟨"d", [4]⟩] ∧
    HiddenApart ⟨25, ""⟩ cutSource := by
  have hstem : (⟨25, ""⟩ : Settings).StemApart := by decide +kernel
  exact ⟨hstem, by decide +kernel, by decide +kernel,
    hidden_variables_stay_apart ⟨25, ""⟩ cutSource hstem⟩

end Parser

end PascalFront
