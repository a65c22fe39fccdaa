-- The tokens of a text cover it like tiles, with nothing but blanks between
-- them. Where a token stands is told twice, by its span in bytes and by its
-- position in lines and columns, and both follow from what is before it.
import PascalFront.Proofs.Texts

namespace PascalFront

open String (utf8Len)

/-! ## Parts of a source -/

theorem storedOffset_of_lt {n : Nat} (h : n < 0x100000000) : storedOffset n = n :=
  Nat.mod_eq_of_lt h

/-- The part of a source that a span covers. -/
def Span.slice (s : Span) (source : String) : String :=
  String.Pos.Raw.extract source ⟨s.start⟩ ⟨s.stop⟩

/-- Both ends of a span lie between characters of the source. -/
def Span.OnBoundaries (s : Span) (source : String) : Prop :=
  String.Pos.Raw.IsValid source ⟨s.start⟩ ∧ String.Pos.Raw.IsValid source ⟨s.stop⟩

section

variable {source : String} {before part after : List Char}

theorem slice_eq (h : source.toList = before ++ (part ++ after)) :
    Span.slice ⟨utf8Len before, utf8Len before + utf8Len part⟩ source = String.ofList part := by
  have hsource : source = String.ofList (before ++ part ++ after) := by
    rw [List.append_assoc, ← h, String.ofList_toList]
  rw [hsource]
  exact String.extract_of_valid before part after

theorem isValid_behind (h : source.toList = before ++ after) :
    String.Pos.Raw.IsValid source ⟨utf8Len before⟩ := by
  refine String.Pos.Raw.isValid_iff_exists_append.mpr
    ⟨String.ofList before, String.ofList after, ?_, ?_⟩
  · rw [← String.ofList_append, ← h, String.ofList_toList]
  · rw [String.rawEndPos, String.utf8ByteSize_ofList]

theorem utf8ByteSize_eq (source : String) : source.utf8ByteSize = utf8Len source.toList := by
  rw [← String.utf8ByteSize_ofList, String.ofList_toList]

theorem utf8Len_pos {cs : List Char} (h : cs ≠ []) : 0 < utf8Len cs := by
  obtain ⟨c, cs, rfl⟩ := List.exists_cons_of_ne_nil h
  rw [String.utf8Len_cons]
  have := c.utf8Size_pos
  omega

end

/-- How the text of a token comes from its part of the source: a comment loses its braces, and its
blanks become spaces, and so does what is left of a comment without an end. Every other token has
the text as it stands there. -/
inductive Token.Spells (t : Token) (part : List Char) : Prop
  | comment {inside : List Char} : t.kind = .comment →
      part = Lexeme.openBrace :: (inside ++ [Lexeme.closeBrace]) →
      t.text = Lexeme.commentText inside → Spells t part
  | unclosed {inside : List Char} : t.kind = .error → part = Lexeme.openBrace :: inside →
      Lexeme.closeBrace ∉ inside → t.text = Lexeme.commentText inside → Spells t part
  | plain : t.kind ≠ .comment → (t.kind = .error → part.head? ≠ some Lexeme.openBrace) →
      t.text = String.ofList part → Spells t part

/-! ## Side by side -/

namespace Scanner

open Lexeme

variable {m : Mark} {cs : List Char}

/-- Where a lexeme stands, when no offset is too large to be stored. -/
theorem span_placed (m : Mark) (before : List Char) (l : Lexeme)
    (hbound : m.offset + utf8Len (before ++ l.taken) < 0x100000000) :
    (l.placed (m.after before)).span =
      ⟨m.offset + utf8Len before, m.offset + utf8Len (before ++ l.taken)⟩ := by
  rw [String.utf8Len_append] at hbound ⊢
  simp only [placed, Span.between, Mark.offset_after]
  rw [storedOffset_of_lt (by omega), storedOffset_of_lt (by omega), Nat.add_assoc]

theorem tokens_ordered (hbound : m.offset + utf8Len cs < 0x100000000) :
    (∀ t ∈ tokens ⟨m, cs⟩, m.offset ≤ t.span.start) ∧
      (tokens ⟨m, cs⟩).Pairwise fun t t' => t.span.stop ≤ t'.span.start := by
  induction cs using text_induction generalizing m with
  | blank cs h =>
    rw [tokens_blank m h]
    refine ⟨List.forall_mem_singleton.mpr ?_, List.pairwise_singleton _ _⟩
    rw [Token.endAt, Span.between, Mark.offset_after, storedOffset_of_lt hbound]
    exact Nat.le_add_right _ _
  | lexeme blanks l after h ih =>
    rw [← List.append_assoc, String.utf8Len_append] at hbound
    have hspan := span_placed m blanks l (by omega)
    have hoffset := m.offset_after (blanks ++ l.taken)
    obtain ⟨hle, hordered⟩ := ih (m := m.after (blanks ++ l.taken)) (by omega)
    rw [tokens_reads m h]
    refine ⟨List.forall_mem_cons.mpr ⟨?_, fun t ht => ?_⟩, List.pairwise_cons.mpr ⟨fun t ht => ?_,
      hordered⟩⟩
    · simp [hspan]
    · have := hle t ht
      omega
    · have := hle t ht
      simp only [hspan]
      omega

theorem append_eq_cons_iff {ds es before after : List Char} {c : Char}
    (h : ds ++ es = before ++ c :: after) :
    (∃ rest, ds = before ++ c :: rest) ∨ ∃ rest, before = ds ++ rest ∧ es = rest ++ c :: after := by
  rcases List.append_eq_append_iff.mp h with ⟨rest, hbefore, hes⟩ | ⟨rest, hds, hrest⟩
  · exact .inr ⟨rest, hbefore, hes⟩
  · cases rest with
    | nil => exact .inr ⟨[], by simpa using hds.symm, by simpa using hrest.symm⟩
    | cons d rest =>
      obtain ⟨rfl, -⟩ := List.cons.inj hrest
      exact .inl ⟨rest, hds⟩

/-- What lies in no token is blank. -/
theorem blank_of_uncovered (hbound : m.offset + utf8Len cs < 0x100000000)
    {before after : List Char} {c : Char} (hcs : cs = before ++ c :: after)
    (hnone : ∀ t ∈ tokens ⟨m, cs⟩, ¬ (t.span.start ≤ m.offset + utf8Len before ∧
      m.offset + utf8Len before < t.span.stop)) : isBlank c = true := by
  induction cs using text_induction generalizing m before with
  | blank cs h => exact h c (by simp [hcs])
  | lexeme blanks l rest h ih =>
    rw [← List.append_assoc, String.utf8Len_append] at hbound
    have hspan := span_placed m blanks l (by omega)
    have hoffset := m.offset_after (blanks ++ l.taken)
    rw [tokens_reads m h] at hnone
    obtain ⟨hfirst, hlater⟩ := List.forall_mem_cons.mp hnone
    rcases append_eq_cons_iff hcs with ⟨_, hblanks⟩ | ⟨before', rfl, hcs'⟩
    · exact h.blanks c (by simp [hblanks])
    · rcases append_eq_cons_iff hcs' with ⟨later, htaken⟩ | ⟨before'', rfl, hcs''⟩
      · -- the character is one of those that the lexeme takes
        refine absurd ⟨?_, ?_⟩ hfirst
        · simp only [hspan, String.utf8Len_append]
          omega
        · have hpos := utf8Len_pos (List.cons_ne_nil c later)
          simp only [hspan, htaken, String.utf8Len_append]
          omega
      · refine ih (m := m.after (blanks ++ l.taken)) (by omega) hcs'' fun t ht => ?_
        have := hlater t ht
        rw [← List.append_assoc, String.utf8Len_append, ← Nat.add_assoc, ← hoffset] at this
        exact this

end Scanner

/-! ## Spelling -/

namespace Lexeme

theorem scan_spells (c : Char) (rest : List Char) (m : Mark) :
    ((scan c rest).placed m).Spells (scan c rest).taken := by
  by_cases hc : c = openBrace
  · have hscan : scan c rest = comment rest := if_pos hc
    rw [hscan]
    rcases unclosed_or_closed rest with h | ⟨inside, after, rfl, h⟩
    · rw [comment_unclosed h]
      exact .unclosed rfl rfl h rfl
    · rw [comment_closed h]
      exact .comment rfl rfl rfl
  · obtain ⟨htext, hkind⟩ := scan_plain hc rest
    refine .plain hkind (fun _ => ?_) htext
    rw [taken, first_scan]
    simpa using hc

end Lexeme

/-! ## The law -/

/-- What a token says of its place in a source, and of the text there. -/
structure Token.Fits (t : Token) (source : String) : Prop where
  boundaries : t.span.OnBoundaries source
  position : t.position = placeBehind (Span.slice ⟨0, t.span.start⟩ source).toList
  text : t.Spells (t.span.slice source).toList

/-- The tokens of a source lie side by side in it, with nothing but blanks between them, and each
of them says where it stands and what stands there. -/
structure Tiled (source : String) (ts : List Token) : Prop where
  ending : ∃ body stop, ts = body ++ [stop] ∧ (∀ t ∈ body, t.kind ≠ .endOfFile) ∧
    stop.kind = .endOfFile ∧ stop.span = ⟨source.utf8ByteSize, source.utf8ByteSize⟩
  fits : ∀ t ∈ ts, t.Fits source
  nonempty : ∀ t ∈ ts, t.kind ≠ .endOfFile → t.span.start < t.span.stop
  ordered : ts.Pairwise fun t t' => t.span.stop ≤ t'.span.start
  /-- A character whose first byte is in no span is a blank. -/
  gaps : ∀ before c after, source.toList = before ++ c :: after →
    (∀ t ∈ ts, ¬ (t.span.start ≤ utf8Len before ∧ utf8Len before < t.span.stop)) →
      isBlank c = true

theorem fits_of_eq {source : String} {t : Token} {before part after : List Char}
    (htext : source.toList = before ++ (part ++ after))
    (hspan : t.span = ⟨utf8Len before, utf8Len (before ++ part)⟩)
    (hposition : t.position = placeBehind before) (hspells : t.Spells part) : t.Fits source := by
  have hbefore : Span.slice ⟨0, utf8Len before⟩ source = String.ofList before := by
    have hstart : source.toList = [] ++ (before ++ (part ++ after)) := htext
    have h := slice_eq hstart
    rwa [String.utf8Len_nil, Nat.zero_add] at h
  have hpart : Span.slice ⟨utf8Len before, utf8Len (before ++ part)⟩ source =
      String.ofList part := by
    rw [String.utf8Len_append]
    exact slice_eq htext
  rw [← List.append_assoc] at htext
  refine ⟨⟨?_, ?_⟩, ?_, ?_⟩
  · rw [hspan]
    exact isValid_behind (htext.trans (List.append_assoc _ _ _))
  · rw [hspan]
    exact isValid_behind htext
  · rw [hspan, hposition, hbefore, String.toList_ofList]
  · rwa [hspan, hpart, String.toList_ofList]

namespace Scanner

variable {source : String} {t : Token} {before after : List Char} {l : Lexeme}

/-- Where a token of a source stands, when the source is not too long. -/
theorem Stands.span (h : Stands .start source.toList t before l after)
    (hlength : source.utf8ByteSize < 0x100000000) :
    t.span = ⟨utf8Len before, utf8Len (before ++ l.taken)⟩ := by
  have hbound : utf8Len (before ++ l.taken) < 0x100000000 := by
    rw [utf8ByteSize_eq, h.text, ← List.append_assoc, String.utf8Len_append] at hlength
    omega
  have hstart : Mark.start.offset = 0 := rfl
  rw [h.token, span_placed _ _ _ (by rw [hstart]; omega), hstart, Nat.zero_add, Nat.zero_add]

theorem Stands.spells (h : Stands .start source.toList t before l after) : t.Spells l.taken := by
  have := Lexeme.scan_spells l.first (l.more ++ after) (Mark.start.after before)
  rwa [h.scanned, ← h.token] at this

theorem Stands.fits (h : Stands .start source.toList t before l after)
    (hlength : source.utf8ByteSize < 0x100000000) : t.Fits source := by
  refine fits_of_eq h.text (h.span hlength) ?_ h.spells
  rw [h.token]
  exact position_after_start before

end Scanner

theorem span_endAt {source : String} (h : source.utf8ByteSize < 0x100000000) :
    (Token.endAt (Mark.start.after source.toList)).span =
      ⟨utf8Len source.toList, utf8Len source.toList⟩ := by
  have hstart : Mark.start.offset = 0 := rfl
  have hoffset : storedOffset (Mark.start.after source.toList).offset = utf8Len source.toList := by
    rw [Mark.offset_after, hstart, Nat.zero_add, storedOffset_of_lt (utf8ByteSize_eq source ▸ h)]
  rw [Token.endAt, Span.between, hoffset]

theorem fits_endAt {source : String} (h : source.utf8ByteSize < 0x100000000) :
    (Token.endAt (Mark.start.after source.toList)).Fits source := by
  have htext : source.toList = source.toList ++ ([] ++ []) := by simp
  refine fits_of_eq htext ?_ (position_after_start _) ?_
  · rw [List.append_nil, span_endAt h]
  · exact .plain TokenKind.noConfusion (fun hk => by cases hk) rfl

/-- The tokens of a source tile it. -/
theorem tokens_tile_the_source (source : String) (h : source.utf8ByteSize < 0x100000000 - 1) :
    Tiled source (tokensOf source) := by
  have hlength : source.utf8ByteSize < 0x100000000 := by omega
  have hstart : Mark.start.offset = 0 := rfl
  have hbound : Mark.start.offset + utf8Len source.toList < 0x100000000 := by
    rw [hstart, Nat.zero_add, ← utf8ByteSize_eq]
    exact hlength
  obtain ⟨body, htokens, hbody⟩ := Scanner.tokens_end .start source.toList
  refine ⟨⟨body, _, htokens, hbody, rfl, ?_⟩, fun t ht => ?_, fun t ht hk => ?_,
    (Scanner.tokens_ordered hbound).2, fun before c after hcs hnone => ?_⟩
  · rw [span_endAt hlength, utf8ByteSize_eq]
  · rcases Scanner.tokens_cases ht with rfl | ⟨before, l, after, hs⟩
    · exact fits_endAt hlength
    · exact hs.fits hlength
  · obtain ⟨before, l, after, hs⟩ := Scanner.exists_stands ht hk
    have hpos := utf8Len_pos (List.cons_ne_nil l.first l.more)
    rw [hs.span hlength, String.utf8Len_append, Lexeme.taken]
    exact Nat.lt_add_of_pos_right hpos
  · refine Scanner.blank_of_uncovered hbound hcs fun t ht => ?_
    rw [hstart, Nat.zero_add]
    exact hnone t ht

/-- A source with characters of more than one byte, with a comment and a string that go over the
end of a line, and with no end of its last comment. -/
def mixedSource : String :=
  "é := \x7b two\nlines \x7d \x27it\x27\x27s\n\x27<>1.5e+ \x7b open"

theorem mixedSource_is_tiled : mixedSource.utf8ByteSize < 0x100000000 - 1 ∧
    (tokensOf mixedSource).map (fun t => (t.kind, t.span, t.position)) =
      [(.identifier, ⟨0, 2⟩, ⟨1, 1⟩), (.assign, ⟨3, 5⟩, ⟨1, 3⟩), (.comment, ⟨6, 19⟩, ⟨1, 6⟩),
        (.string, ⟨20, 28⟩, ⟨2, 9⟩), (.notEquals, ⟨28, 30⟩, ⟨3, 2⟩), (.error, ⟨30, 35⟩, ⟨3, 4⟩),
        (.error, ⟨36, 42⟩, ⟨3, 10⟩), (.endOfFile, ⟨42, 42⟩, ⟨3, 16⟩)] ∧
    Tiled mixedSource (tokensOf mixedSource) := by
  have hlength : mixedSource.utf8ByteSize < 0x100000000 - 1 := by decide +kernel
  exact ⟨hlength, by decide +kernel, tokens_tile_the_source mixedSource hlength⟩

end PascalFront
