-- What the diagnostics of a parse point at. Each of them is made at a token and
-- has one label, on the bytes of that token. These bytes are in order and lie
-- within the text, so a report of the diagnostic can always be laid out.
import PascalFront.Report
import PascalFront.Proofs.SourceOrder

namespace PascalFront

open String (utf8Len)

/-! ## Spans within the text -/

/-- A span that ends behind its start, or at it, and within a text. -/
structure Span.Within (s : Span) (source : String) : Prop where
  ordered : s.start ≤ s.stop
  inside : s.stop ≤ source.utf8ByteSize

namespace Scanner

variable {source : String} {t : Token}

theorem Stands.within {before after : List Char} {l : Lexeme}
    (h : Stands .start source.toList t before l after)
    (hlength : source.utf8ByteSize < 0x100000000) : t.span.Within source := by
  rw [h.span hlength]
  refine ⟨?_, ?_⟩
  · rw [String.utf8Len_append]
    exact Nat.le_add_right _ _
  · rw [utf8ByteSize_eq, h.text, ← List.append_assoc, String.utf8Len_append _ after]
    exact Nat.le_add_right _ _

theorem span_within (hlength : source.utf8ByteSize < 0x100000000) (ht : t ∈ tokensOf source) :
    t.span.Within source := by
  rcases tokens_cases ht with rfl | ⟨before, l, after, hs⟩
  · rw [span_endAt hlength]
    exact ⟨Nat.le_refl _, (utf8ByteSize_eq source).ge⟩
  · exact hs.within hlength

end Scanner

/-! ## The diagnostics of a parse -/

namespace Diagnostic

/-- A diagnostic that says where a token stands, with one label on that token. -/
structure MadeAt (d : Diagnostic) (t : Token) : Prop where
  span : d.span = t.span
  position : d.position = some t.position
  labels : ∃ text, d.labels = [⟨t.span, text⟩]

theorem madeAt_atToken (t : Token) (cause : Cause) : (atToken t cause).MadeAt t :=
  ⟨rfl, rfl, _, rfl⟩

theorem madeAt_of_ofErrorToken? {d : Diagnostic} {t : Token} (h : ofErrorToken? t = some d) :
    d.MadeAt t := by
  unfold ofErrorToken? at h
  split at h
  · cases h
    exact ⟨rfl, rfl, _, rfl⟩
  · cases h

end Diagnostic

/-- Every diagnostic of a run is made at a token of the text. -/
theorem Parser.exists_madeAt {p : Parser Node} [Stepwise p] {source : String} {d : Diagnostic}
    (hd : d ∈ (p.runOn source).diagnostics) : ∃ t ∈ tokensOf source, d.MadeAt t := by
  have hblocks : d ∈ lexicalDiagnostics (tokensOf source) ++ p.noted source := hd
  rcases List.mem_append.mp hblocks with hlexical | hnoted
  · obtain ⟨t, ht, hfault⟩ := List.mem_filterMap.mp hlexical
    exact ⟨t, ht, Diagnostic.madeAt_of_ofErrorToken? hfault⟩
  · obtain ⟨t, ht, -, -, cause, rfl⟩ := exists_token_of_noted hnoted
    exact ⟨t, ht, Diagnostic.madeAt_atToken t cause⟩

/-! ## Reports that can be laid out -/

namespace Report

/-- Nothing but a reversed first label keeps a report from being laid out. -/
theorem render_eq_error_iff {text filename : String} {d : Diagnostic} {e : LayoutError} :
    render text filename d = .error e ↔
      ∃ label ∈ d.labels.head?, label.span.stop < label.span.start := by
  unfold render rows
  cases e
  rcases d.labels with _ | ⟨label, more⟩
  · simp [Except.map]
  · by_cases h : label.span.stop < label.span.start
    · simp [h, Except.map]
    · cases hreach : reach? (.ofText text) label.span <;> simp [h, hreach, Except.map]

theorem exists_render {text filename : String} {d : Diagnostic}
    (h : ∀ label ∈ d.labels.head?, label.span.start ≤ label.span.stop) :
    ∃ report, render text filename d = .ok report := by
  cases hr : render text filename d with
  | ok report => exact ⟨report, rfl⟩
  | error e =>
    obtain ⟨label, hlabel, hlt⟩ := render_eq_error_iff.mp hr
    exact absurd (h label hlabel) (Nat.not_le.mpr hlt)

end Report

/-! ## The law -/

/-- A diagnostic with one label, on its own span within a text, of which every report can be laid
out. -/
structure Diagnostic.Renderable (d : Diagnostic) (source : String) : Prop where
  labels : ∃ text, d.labels = [⟨d.span, text⟩]
  within : d.span.Within source
  report : ∀ filename, ∃ text, Report.render source filename d = .ok text

theorem Parser.runOn_renderable (p : Parser Node) [Stepwise p] {source : String}
    (h : source.utf8ByteSize < 0x100000000) :
    ∀ d ∈ (p.runOn source).diagnostics, d.Renderable source := by
  intro d hd
  obtain ⟨t, ht, hspan, -, text, hlabels⟩ := exists_madeAt hd
  have hwithin := Scanner.span_within h ht
  refine ⟨⟨text, hspan ▸ hlabels⟩, hspan ▸ hwithin, fun filename => Report.exists_render ?_⟩
  intro label hlabel
  rw [hlabels] at hlabel
  cases hlabel
  exact hwithin.ordered

/-- Whatever is read from a text that is not too long, and under whatever settings, each diagnostic
has one label within the text, and no report of it fails. -/
theorem every_diagnostic_can_be_rendered (source : String)
    (h : source.utf8ByteSize < 0x100000000 - 1) (settings : Settings) :
    (∀ d ∈ (parseProgram settings source).diagnostics, d.Renderable source) ∧
    (∀ d ∈ ((Parser.loneStatement settings).runOn source).diagnostics, d.Renderable source) ∧
    ∀ d ∈ (parseStatement source).diagnostics, d.Renderable source := by
  have hlength : source.utf8ByteSize < 0x100000000 := by omega
  exact ⟨Parser.runOn_renderable _ hlength, Parser.runOn_renderable _ hlength,
    Parser.runOn_renderable _ hlength⟩

/-- A text with a bad character, a number out of range and an open comment, which ends too soon. -/
def labelledSource : String := "WHILE (é ? 99999999999999999999 \x7b ü\n"

theorem labelledSource_can_be_rendered : labelledSource.utf8ByteSize < 0x100000000 - 1 ∧
    (parseProgram ⟨9, ""⟩ labelledSource).diagnostics.map
        (fun d => (d.labels.map (·.span), d.span)) =
      [([⟨10, 11⟩], ⟨10, 11⟩), ([⟨12, 32⟩], ⟨12, 32⟩), ([⟨33, 38⟩], ⟨33, 38⟩),
        ([⟨38, 38⟩], ⟨38, 38⟩), ([⟨38, 38⟩], ⟨38, 38⟩)] ∧
    ∀ d ∈ (parseProgram ⟨9, ""⟩ labelledSource).diagnostics, d.Renderable labelledSource := by
  have hlength : labelledSource.utf8ByteSize < 0x100000000 - 1 := by decide +kernel
  exact ⟨hlength, by decide +kernel,
    (every_diagnostic_can_be_rendered labelledSource hlength ⟨9, ""⟩).1⟩

end PascalFront
