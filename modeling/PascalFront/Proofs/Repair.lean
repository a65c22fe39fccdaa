-- A single missing token is repaired. The parse notes it at the next token and
-- gives the tree and the names of the whole program; this is one run on a draft
-- with one token left out.
import PascalFront.Proofs.DraftRuns
import Mathlib.Data.List.Basic

namespace PascalFront.Parser

open ParserState

/-! ## The rows of token lists -/

/-- The tokens that a parse reads of a list. -/
def rowOf (ts : List Token) : List Token := (Cursor.ofTokens ts).upcoming

theorem rowOf_eq {ts : List Token} {last : Token}
    (h : (ts.filter Cursor.isGrammatical).getLast? = some last) :
    rowOf ts = ts.filter Cursor.isGrammatical ++
      (if last.isEnd then [] else [Cursor.closing last]) := by
  simp only [rowOf, Cursor.ofTokens]
  split
  · rename_i hnone
    rw [hnone] at h
    cases h
  · rename_i last' hsome
    rw [hsome] at h
    cases h
    by_cases hend : last.isEnd = true
    · rw [dif_pos hend, if_pos hend, List.append_nil]
      exact List.dropLast_append_getLast? _ hsome
    · rw [dif_neg hend, if_neg hend]
      rfl

/-- What closes a row depends on its last token alone. -/
theorem rowOf_append (before : List Token) {behind : List Token}
    (h : ∃ u ∈ behind, Cursor.isGrammatical u = true) :
    rowOf (before ++ behind) = before.filter Cursor.isGrammatical ++ rowOf behind := by
  obtain ⟨u, hu, hcounts⟩ := h
  have hne : behind.filter Cursor.isGrammatical ≠ [] :=
    List.ne_nil_of_mem (List.mem_filter.mpr ⟨hu, hcounts⟩)
  obtain ⟨last, hlast⟩ := Option.isSome_iff_exists.mp (List.getLast?_isSome.mpr hne)
  have hlast' : ((before ++ behind).filter Cursor.isGrammatical).getLast? = some last := by
    rw [List.filter_append, List.getLast?_append, hlast]
    rfl
  rw [rowOf_eq hlast, rowOf_eq hlast', List.filter_append, List.append_assoc]

theorem rowOf_cons (before : List Token) {t : Token} {behind : List Token}
    (ht : Cursor.isGrammatical t = true) (h : ∃ u ∈ behind, Cursor.isGrammatical u = true) :
    rowOf (before ++ t :: behind) = before.filter Cursor.isGrammatical ++ t :: rowOf behind := by
  have hrow := rowOf_append (before ++ [t]) h
  rw [List.append_assoc, List.singleton_append] at hrow
  rw [hrow, List.filter_append]
  simp [ht]

/-! ## The law -/

/-- The kinds of the tokens that a parse can do without. -/
def dispensableKinds : List TokenKind :=
  [.kwDo, .kwThen, .kwLessThan0, .kwEqual0, .kwGreaterThan0, .leftParen, .rightParen, .assign]

/-- The tokens are a program, and the one in the middle may be left out of it. By
`dispensable_of_spare`, what stands around a token of a program tells whether it may. -/
def Dispensable (before : List Token) (t : Token) (behind : List Token) : Prop :=
  t.kind ∈ dispensableKinds ∧ ∃ p p', Draft.IsProgram (Draft.without before t behind) p p'

theorem isGrammatical_of_dispensable {t : Token} (h : t.kind ∈ dispensableKinds) :
    Cursor.isGrammatical t = true := by
  unfold Cursor.isGrammatical
  revert h
  generalize t.kind = k
  cases k <;> decide

/-- A parse of what is left of a draft, in one run. -/
theorem draft_program_runs (settings : Settings) {ms : Draft} {p p' : Source}
    (h : Draft.IsProgram ms p p') (hlimit : ms.faults.length ≤ settings.maxErrors) {ts : List Token}
    (hrow : rowOf ts = ms.kept) (symbols : SymbolTable) :
    ∃ s', program settings (.start ts symbols) = .ok (p'.lower settings symbols).1 s' ∧
      s'.diagnostics = ms.faults.toArray ∧ s'.symbols = (p'.lower settings symbols).2 := by
  obtain ⟨rest, hrun⟩ := program_mends hlimit h symbols
  obtain ⟨s', hr, hs'⟩ := hrun (.start ts symbols) ⟨hrow, rfl, rfl⟩
  refine ⟨s', hr, ?_, hs'.symbols⟩
  rw [← hs'.noted, Draft.faults_whole, List.append_nil]

/-- A missing token is repaired. Where a program has a token that a parse can do without, and some
other one behind it, the parse without that token has one diagnostic: the token is missing in front
of the next one. The names and the tree are the same, but for the line of one IF when the token is
the second marker of a WHEN. -/
theorem missing_token_is_repaired (settings : Settings) (symbols : SymbolTable)
    (before behind : List Token) (t : Token) (hlimit : 1 ≤ settings.maxErrors)
    (hbehind : ∃ u ∈ behind, Cursor.isGrammatical u = true)
    (ht : Dispensable (before.filter Cursor.isGrammatical) t (rowOf behind)) :
    ∃ tree s tree' s' next,
      program settings (.start (before ++ t :: behind) symbols) = .ok tree s ∧
      s.diagnostics = #[] ∧
      program settings (.start (before ++ behind) symbols) = .ok tree' s' ∧
      (rowOf behind).head? = some next ∧
      s'.diagnostics = #[.atToken next (Draft.missing t.kind)] ∧
      s'.symbols = s.symbols ∧
      (t.kind ≠ .kwEqual0 → tree' = tree) ∧
      (t.kind = .kwEqual0 → tree.Relined [(t.line, next.line)] tree') := by
  obtain ⟨hkind, p, p', hp⟩ := ht
  have hnext : (rowOf behind).head? = some (Cursor.ofTokens behind).here := Cursor.head?_upcoming _
  -- The whole program is a draft of itself.
  have hfull : rowOf (before ++ t :: behind) =
      (Draft.without (before.filter Cursor.isGrammatical) t (rowOf behind)).restore.kept := by
    rw [rowOf_cons before (isGrammatical_of_dispensable hkind) hbehind, Draft.restore,
      Draft.kept_whole, Draft.full_without]
  have hshort : rowOf (before ++ behind) =
      (Draft.without (before.filter Cursor.isGrammatical) t (rowOf behind)).kept := by
    rw [rowOf_append before hbehind, Draft.kept_without]
  obtain ⟨s, hr, hd, hsymbols⟩ := draft_program_runs settings hp.restore
    (by rw [Draft.restore, Draft.faults_whole]; exact Nat.zero_le _) hfull symbols
  obtain ⟨s', hr', hd', hsymbols'⟩ := draft_program_runs settings hp
    (by rw [Draft.faults_without hnext]; exact hlimit) hshort symbols
  rw [Draft.restore, Draft.faults_whole] at hd
  rw [Draft.faults_without hnext] at hd'
  obtain ⟨htable, htree⟩ := hp.alike settings symbols
  rw [Draft.moves_without hnext] at htree
  refine ⟨_, s, _, s', _, hr, hd, hr', hnext, hd', ?_, fun hk => ?_, fun hk => ?_⟩
  · rw [hsymbols', hsymbols, htable]
  · rw [if_neg hk] at htree
    exact htree.eq_of_nil rfl
  · rwa [if_pos hk] at htree

/-- A token for an example, with a text of its own on a line. -/
def sampleOn (line : Nat) (k : TokenKind) (text : String) : Token :=
  ⟨k, text, none, .origin, ⟨line, 1⟩⟩

/-- The tokens of `IF X THEN WHEN X <0 ;`. -/
def beforeMarker : List Token :=
  [sampleOn 1 .kwIf "IF", sampleOn 1 .identifier "X", sampleOn 1 .kwThen "THEN",
    sampleOn 1 .kwWhen "WHEN", sampleOn 1 .identifier "X", sampleOn 1 .kwLessThan0 "<0",
    sampleOn 1 .semicolon ";"]

/-- The tokens of `Y >0`. -/
def behindMarker : List Token :=
  [sampleOn 3 .identifier "Y", sampleOn 3 .kwGreaterThan0 ">0", sampleOn 4 .endOfFile ""]

/-- Without the `=0` of a second line, the inner IF counts to the third one. -/
theorem missing_marker_is_repaired :
    ∃ tree s tree' s',
      program {} (.start (beforeMarker ++ sampleOn 2 .kwEqual0 "=0" :: behindMarker) {}) =
        .ok tree s ∧
      program {} (.start (beforeMarker ++ behindMarker) {}) = .ok tree' s' ∧
      s'.diagnostics = #[.atToken (sampleOn 3 .identifier "Y") .missingEqual0] ∧
      s'.symbols = s.symbols ∧ tree.Relined [(2, 3)] tree' := by
  let name := sampleOn 1 .identifier "X"
  have hspells : Draft.Spells [name] (.name name.asName) :=
    fun _ => .simple (.term (.factor (.name rfl)))
  have hopens : kindAhead (Draft.kept (Draft.whole behindMarker)) ∈ statementOpeners := by decide
  have hwhen := Draft.Statement.when (w := [name]) (b := true) (t := sampleOn 1 .kwWhen "WHEN")
    (u := sampleOn 1 .kwLessThan0 "<0") rfl hspells rfl .empty
    (.behind (b := false) (s := sampleOn 1 .semicolon ";") (t := sampleOn 2 .kwEqual0 "=0") rfl rfl
      fun _ => hopens) (.call rfl) (.bare rfl) (.empty (t := sampleOn 4 .endOfFile ""))
  have hif := Draft.Statement.ifThen (w := [name]) (b := true) (t := sampleOn 1 .kwIf "IF")
    (u := sampleOn 1 .kwThen "THEN") rfl hspells rfl hwhen (by decide)
  have ht : Dispensable (beforeMarker.filter Cursor.isGrammatical) (sampleOn 2 .kwEqual0 "=0")
      (rowOf behindMarker) := ⟨by decide, _, _, .bare (by decide) (.last hif) rfl⟩
  obtain ⟨tree, s, tree', s', next, hr, -, hr', hnext, hd, hsymbols, -, hmoved⟩ :=
    missing_token_is_repaired {} {} beforeMarker behindMarker _ (by decide) (by decide) ht
  cases hnext
  exact ⟨tree, s, tree', s', hr, hr', hd, hsymbols, hmoved rfl⟩

/-- The tokens of `WHILE X`. -/
def beforeDoTokens : List Token := [sampleOn 1 .kwWhile "WHILE", sampleOn 1 .identifier "X"]

/-- The lines of the parts of statements: all that is needed to tell two trees apart. -/
def partLines (tree : Node) : List (List (Option Nat)) :=
  tree.children.map fun n => n.children.map Node.line

/-- Some token must stand behind the missing one. A row without a token for the end gets one at the
place of its last token, and the empty body of a loop counts to the line of that. -/
theorem implied_end_moves :
    ¬ ∀ (settings : Settings) (symbols : SymbolTable) (before behind rest : List Token) (t : Token),
      1 ≤ settings.maxErrors →
      rowOf (before ++ t :: behind) = before.filter Cursor.isGrammatical ++ t :: rest →
      Dispensable (before.filter Cursor.isGrammatical) t rest → t.kind ≠ .kwEqual0 →
      ∃ tree s s', program settings (.start (before ++ t :: behind) symbols) = .ok tree s ∧
        program settings (.start (before ++ behind) symbols) = .ok tree s' := by
  intro h
  let last := sampleOn 2 .kwDo "DO"
  let name := sampleOn 1 .identifier "X"
  have hspells : Draft.Spells [name] (.name name.asName) :=
    fun _ => .simple (.term (.factor (.name rfl)))
  have hempty : Draft.Statement (Draft.whole [Cursor.closing last])
    (.empty 2) (.empty 2) (Draft.whole [Cursor.closing last]) := .empty
  have hwhile := Draft.Statement.whileDo (w := [name]) (b := false)
    (t := sampleOn 1 .kwWhile "WHILE") (u := last) rfl hspells rfl hempty
  have ht : Dispensable (beforeDoTokens.filter Cursor.isGrammatical) last [Cursor.closing last] :=
    ⟨by decide, _, _, .bare (by decide) (.last hwhile) rfl⟩
  obtain ⟨tree, s, s', hr, hr'⟩ :=
    h {} {} beforeDoTokens [] [Cursor.closing last] last (by decide) rfl ht (by decide)
  have hfull : ((program {}).runFrom (.start (beforeDoTokens ++ [last]) {})).1.toOption.map
      partLines = some [[some 1, some 2]] := by decide +kernel
  have hshort : ((program {}).runFrom (.start (beforeDoTokens ++ []) {})).1.toOption.map
      partLines = some [[some 1, some 1]] := by decide +kernel
  rw [runFrom, hr] at hfull
  rw [runFrom, hr'] at hshort
  exact absurd (hfull.symm.trans hshort) (by decide)

end PascalFront.Parser
