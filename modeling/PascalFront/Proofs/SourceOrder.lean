-- The diagnostics of a parse in the order of the source. Those of the text come
-- first, one for each faulty token. What a parser notes stands at the cursor,
-- which never goes back, so those of the parser go on from token to token.
import PascalFront.Proofs.CrossReference
import PascalFront.Proofs.Lockstep
import PascalFront.Proofs.Tiling

namespace PascalFront

/-! ## What the diagnostics say of their places -/

namespace Diagnostic

/-- A diagnostic of a stage that has its place from a token. -/
structure StandsAt (d : Diagnostic) (stage : Stage) (t : Token) : Prop where
  stage : d.stage = stage
  span : d.span = t.span
  position : d.position = some t.position

/-- A diagnostic that says what is wrong with a token. -/
structure IsFaultOf (d : Diagnostic) (t : Token) : Prop where
  place : d.StandsAt .lexer t
  cause : ∃ cause, t.value = some (.fault cause) ∧ d.cause = some cause

/-- Neither the bytes nor the lines and columns of a diagnostic come behind those of another. -/
structure UpTo (d d' : Diagnostic) : Prop where
  span : d.span.start ≤ d'.span.start
  position : ∀ p ∈ d.position, ∀ p' ∈ d'.position, (p.compare p').isLE

end Diagnostic

/-- The diagnostics of an outcome, where `noted` are the ones that the parser noted on the way: two
blocks, each in the order of the tokens. -/
structure Outcome.InSourceOrder (o : Outcome) (ts : List Token) (noted : List Diagnostic) :
    Prop where
  blocks : ∃ lexical, o.diagnostics = lexical ++ noted ∧
    List.Forall₂ (fun t d => Diagnostic.IsFaultOf d t) (ts.filter (·.kind == .error)) lexical
  placed : ∀ d ∈ noted, ∃ t ∈ ts, t.kind ≠ .error ∧ t.kind ≠ .comment ∧ d.StandsAt .parser t
  ordered : noted.Pairwise Diagnostic.UpTo
  clean_iff : o.diagnostics = [] ↔ (∀ t ∈ ts, t.kind ≠ .error) ∧ noted = []

/-! ## The faults of a text -/

/-- One diagnostic for each faulty token, where all of them say what is wrong. -/
theorem forall₂_lexicalDiagnostics {ts : List Token}
    (h : ∀ t ∈ ts, t.kind = .error → ∃ cause, t.value = some (.fault cause)) :
    List.Forall₂ (fun t d => Diagnostic.IsFaultOf d t) (ts.filter (·.kind == .error))
      (lexicalDiagnostics ts) := by
  induction ts with
  | nil => exact .nil
  | cons t ts ih =>
    have hrest := ih fun t ht => h t (List.mem_cons_of_mem _ ht)
    by_cases hk : t.kind = .error
    · obtain ⟨cause, hvalue⟩ := h t List.mem_cons_self hk
      rw [List.filter_cons_of_pos (by simp [hk])]
      simp only [lexicalDiagnostics, List.filterMap_cons, Diagnostic.ofErrorToken?, hk, hvalue]
      exact .cons ⟨⟨rfl, rfl, rfl⟩, cause, hvalue, rfl⟩ hrest
    · rw [List.filter_cons_of_neg (by simp [hk])]
      have hnone : Diagnostic.ofErrorToken? t = none := by
        unfold Diagnostic.ofErrorToken?
        split
        · contradiction
        · rfl
      rw [lexicalDiagnostics, List.filterMap_cons, hnone]
      exact hrest

theorem Scanner.exists_fault {source : String} {t : Token} (ht : t ∈ tokensOf source)
    (hk : t.kind = .error) : ∃ cause, t.value = some (.fault cause) := by
  obtain ⟨before, l, after, hs⟩ := exists_stands ht (by rw [hk]; decide)
  rw [hs.kind_eq, ← hs.scanned] at hk
  rw [hs.value_eq, ← hs.scanned]
  exact Lexeme.scan_fault hk

/-! ## The order of the tokens -/

/-- Neither the bytes nor the lines and columns of a token come behind those of another. -/
def Token.UpTo (t t' : Token) : Prop :=
  t.span.start ≤ t'.span.start ∧ (t.position.compare t'.position).isLE

theorem Token.UpTo.refl (t : Token) : t.UpTo t :=
  ⟨Nat.le_refl _, Position.isLE_compare.mpr (.inr ⟨rfl, Nat.le_refl _⟩)⟩

theorem pairwise_upTo {source : String} (h : source.utf8ByteSize < 0x100000000) :
    (tokensOf source).Pairwise Token.UpTo := by
  have hbound : Mark.start.offset + String.utf8Len source.toList < 0x100000000 := by
    rw [show Mark.start.offset = 0 from rfl, Nat.zero_add, ← utf8ByteSize_eq]
    exact h
  have hspans := (Scanner.tokens_ordered hbound).2
  apply (hspans.and (Scanner.tokens_positions .start source.toList).2).imp_of_mem
  intro t t' ht _ hlater
  refine ⟨Nat.le_trans ?_ hlater.1, hlater.2⟩
  rcases Scanner.tokens_cases ht with rfl | ⟨before, l, after, hs⟩
  · rw [span_endAt h]
  · rw [hs.span h, String.utf8Len_append]
    exact Nat.le_add_right _ _

/-! ## What a parser notes -/

namespace ParserState

/-- Notes in order at the tokens of an ordered row are diagnostics in order. -/
theorem Written.pairwise {notes : List (Nat × Cause)} {s : ParserState} (h : Written notes s)
    (hnotes : notes.Pairwise fun note note' => note.1 ≤ note'.1)
    (hrow : s.cursor.tokens.Pairwise Token.UpTo) :
    s.diagnostics.toList.Pairwise Diagnostic.UpTo := by
  have hlength := h.length_eq
  rw [List.pairwise_iff_getElem] at hnotes hrow ⊢
  intro i j hi hj hij
  obtain ⟨t, ht, hd⟩ := h.get (by omega) hi
  obtain ⟨t', ht', hd'⟩ := h.get (by omega) hj
  have hle := hnotes i j (by omega) (by omega) hij
  have hupTo : t.UpTo t' := by
    obtain ⟨hk, rfl⟩ := List.getElem?_eq_some_iff.mp ht
    obtain ⟨hk', rfl⟩ := List.getElem?_eq_some_iff.mp ht'
    rcases Nat.lt_or_eq_of_le hle with hlt | heq
    · exact hrow _ _ hk hk' hlt
    · simp only [List.get_eq_getElem, heq]
      exact Token.UpTo.refl _
  rw [List.get_eq_getElem] at hd hd'
  rw [hd, hd']
  refine ⟨hupTo.1, ?_⟩
  intro p hp p' hp'
  cases hp
  cases hp'
  exact hupTo.2

end ParserState

/-! ## The law -/

namespace Parser

/-- The diagnostics that a parser notes on the tokens of a text. -/
def noted (p : Parser Node) (source : String) : List Diagnostic :=
  (p.runFrom (.start (tokensOf source) {})).2.diagnostics.toList

theorem row_behind (p : Parser Node) [Stepwise p] (source : String) :
    (p.runFrom (.start (tokensOf source) {})).2.cursor.tokens =
      (tokensOf source).filter Cursor.isGrammatical :=
  (Stepwise.steps (p := p) _).before.tokens_eq.trans (ParserState.start_tokens source {})

/-- What a parser notes, it notes at a token that counts for the grammar. -/
theorem exists_token_of_noted {p : Parser Node} [Stepwise p] {source : String} {d : Diagnostic}
    (hd : d ∈ p.noted source) :
    ∃ t ∈ tokensOf source, t.kind ≠ .error ∧ t.kind ≠ .comment ∧ ∃ cause, d = .atToken t cause := by
  have hsteps : (ParserState.start (tokensOf source) {}).Steps
      (p.runFrom (.start (tokensOf source) {})).2 := Stepwise.steps _
  obtain ⟨notes, hwritten, -⟩ := hsteps.written (ParserState.written_start _ _)
  obtain ⟨note, -, t, ht, rfl⟩ := hwritten.exists_note hd
  have hmem := List.mem_of_getElem? ht
  rw [row_behind, List.mem_filter] at hmem
  have hcounts : t.kind ≠ .comment ∧ t.kind ≠ .error := by
    simpa [Cursor.isGrammatical] using hmem.2
  exact ⟨t, hmem.1, hcounts.2, hcounts.1, note.2, rfl⟩

theorem runOn_inSourceOrder (p : Parser Node) [Stepwise p] {source : String}
    (h : source.utf8ByteSize < 0x100000000) :
    (p.runOn source).InSourceOrder (tokensOf source) (p.noted source) := by
  have hsteps : (ParserState.start (tokensOf source) {}).Steps
      (p.runFrom (.start (tokensOf source) {})).2 := Stepwise.steps _
  obtain ⟨notes, hwritten, -, hordered⟩ :=
    hsteps.written_in_order (ParserState.written_start _ _)
  rw [List.nil_append] at hwritten
  have hfault : ∀ t ∈ tokensOf source, t.kind = .error → ∃ cause, t.value = some (.fault cause) :=
    fun t ht => Scanner.exists_fault ht
  have hfaults := forall₂_lexicalDiagnostics hfault
  refine ⟨⟨lexicalDiagnostics (tokensOf source), rfl, hfaults⟩, fun d hd => ?_, ?_, ?_⟩
  · obtain ⟨t, ht, herror, hcomment, cause, rfl⟩ := exists_token_of_noted hd
    exact ⟨t, ht, herror, hcomment, rfl, rfl, rfl⟩
  · apply hwritten.pairwise hordered
    rw [row_behind]
    exact (pairwise_upTo h).sublist List.filter_sublist
  · have hnone : lexicalDiagnostics (tokensOf source) = [] ↔
        ∀ t ∈ tokensOf source, t.kind ≠ .error := by
      rw [← List.length_eq_zero_iff, ← hfaults.length_eq, List.length_eq_zero_iff,
        List.filter_eq_nil_iff]
      simp
    rw [← hnone]
    exact List.append_eq_nil_iff

end Parser

/-- The diagnostics of a text that is not too long stand in the order of the source, whatever is
read from it. -/
theorem diagnostics_are_in_source_order (source : String)
    (h : source.utf8ByteSize < 0x100000000 - 1) :
    (∀ settings, (parseProgram settings source).InSourceOrder (tokensOf source)
      ((Parser.program settings).noted source)) ∧
    (parseStatement source).InSourceOrder (tokensOf source)
      ((Parser.loneStatement {}).noted source) := by
  have hlength : source.utf8ByteSize < 0x100000000 := by omega
  exact ⟨fun _ => Parser.runOn_inSourceOrder _ hlength, Parser.runOn_inSourceOrder _ hlength⟩

/-- A text with two faulty tokens, a comment and more than one thing missing. -/
def faultySource : String := "IF ? a \x7b then \x7d b := 1e+ (\nELSE ) c d"

theorem faultySource_is_in_order : faultySource.utf8ByteSize < 0x100000000 - 1 ∧
    (parseStatement faultySource).diagnostics.map
        (fun d => (d.stage, d.span.start, d.position.map (·.describe))) =
      [(.lexer, 3, some "1:4"), (.lexer, 21, some "1:22"), (.parser, 16, some "1:17"),
        (.parser, 27, some "2:1"), (.parser, 27, some "2:1"), (.parser, 32, some "2:6")] ∧
    (parseStatement faultySource).InSourceOrder (tokensOf faultySource)
      ((Parser.loneStatement {}).noted faultySource) := by
  have hlength : faultySource.utf8ByteSize < 0x100000000 - 1 := by decide +kernel
  exact ⟨hlength, by decide +kernel, (diagnostics_are_in_source_order faultySource hlength).2⟩

end PascalFront
