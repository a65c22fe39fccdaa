-- Strings as they are written: in quotes, with every quote of the contents
-- doubled. Reading such a text gives the contents back, nothing else is ever
-- read as a string, and a string without an end takes all that is left.
import PascalFront.Proofs.Tiling

namespace PascalFront

open Lexeme
open String (utf8Len)

/-! ## The written form -/

/-- Some contents as a string writes them. -/
def quotedForm (s : List Char) : List Char := quoteMark :: (doubled s ++ [quoteMark])

/-- Behind an opening quote there is one that closes the string: in front of it every quote is
doubled, and no quote comes right behind it. -/
def Closes (rest : List Char) : Prop :=
  ∃ s after, rest = doubled s ++ quoteMark :: after ∧ NoQuote after

/-- The token of a string that begins at a mark. -/
def Token.stringAt (m : Mark) (s : List Char) : Token :=
  ⟨.string, String.ofList (quotedForm s), some (.text (String.ofList s)),
    .between m.offset (m.offset + utf8Len (quotedForm s)), m.position⟩

/-- The token of a string that begins at a mark and does not end. -/
def Token.openStringAt (m : Mark) (rest : List Char) : Token :=
  ⟨.error, String.ofList (quoteMark :: rest), some (.fault .unexpectedEnd),
    .between m.offset (m.offset + utf8Len (quoteMark :: rest)), m.position⟩

namespace Lexeme

theorem isBlank_quoteMark : isBlank quoteMark = false := by decide +kernel

theorem scan_quoteMark : scan quoteMark = quotedString := by
  have hbrace : quoteMark ≠ openBrace := by decide
  have hletter : isLetter quoteMark = false := by decide +kernel
  have hdigit : isDigit quoteMark = false := by decide
  funext rest
  simp [scan, hbrace, hletter, hdigit]

theorem quoted?_eq_none_iff {rest : List Char} : quoted? rest = none ↔ ¬ Closes rest := by
  constructor
  · rintro hnone ⟨s, after, hrest⟩
    rw [quoted?_eq_some_iff.mpr hrest] at hnone
    cases hnone
  · intro hopen
    rcases unquoted_or_quoted rest with hnone | ⟨s, after, hrest⟩
    · exact hnone
    · exact absurd ⟨s, after, hrest⟩ hopen

theorem quoted?_doubled_alone (s : List Char) : quoted? (doubled s) = none := by
  induction s with
  | nil => rfl
  | cons c s ih =>
    by_cases hc : c = quoteMark
    · rw [hc, doubled_quote]
      simp [quoted?, ih]
    · rw [doubled_other hc, quoted?_other hc, ih]
      rfl

/-- Where no quote closes a string, all that is left are its contents. -/
theorem not_closes_iff {rest : List Char} : ¬ Closes rest ↔ ∃ s, rest = doubled s := by
  rw [← quoted?_eq_none_iff]
  constructor
  · intro hnone
    induction rest using quoted?.induct with
    | case1 => exact ⟨[], rfl⟩
    | case2 tail ih =>
      simp only [quoted?, if_true, Option.map_eq_none_iff] at hnone
      obtain ⟨s, rfl⟩ := ih hnone
      exact ⟨quoteMark :: s, (doubled_quote s).symm⟩
    | case3 d tail hd => simp [quoted?, hd] at hnone
    | case4 => simp [quoted?] at hnone
    | case5 c tail hc ih =>
      rw [quoted?_other hc, Option.map_eq_none_iff] at hnone
      obtain ⟨s, rfl⟩ := ih hnone
      exact ⟨c :: s, (doubled_other hc s).symm⟩
  · rintro ⟨s, rfl⟩
    exact quoted?_doubled_alone s

/-- Only the scanner for strings finds a string. -/
theorem scan_string {c : Char} {rest : List Char} (hk : (scan c rest).kind = .string) :
    c = quoteMark ∧ Closes rest := by
  have h := readBy_scan c
  generalize scan c = scanner at h hk
  cases h with
  | comment =>
    rcases unclosed_or_closed rest with hrest | ⟨inside, after, rfl, hrest⟩
    · rw [comment_unclosed hrest] at hk
      cases hk
    · rw [comment_closed hrest] at hk
      cases hk
  | word => exact absurd (hk ▸ word_isWord c rest) (by decide)
  | number =>
    simp only [number, plain] at hk
    cases hvalue : (Numeral.read (c :: rest)).value <;> rw [hvalue] at hk <;> cases hk
  | string =>
    refine ⟨rfl, ?_⟩
    by_contra hopen
    rw [quotedString_unclosed (quoted?_eq_none_iff.mpr hopen)] at hk
    cases hk
  | symbol => exact absurd hk ((symbol_form c rest).kind_ne TokenKind.noConfusion (by decide))

end Lexeme

/-! ## Reading -/

namespace Scanner

variable {s r rest : List Char}

theorem reads_quotedForm (h : NoQuote r) :
    Reads [] (plain .string (some (.text (String.ofList s))) quoteMark (doubled s ++ [quoteMark]))
      r := by
  refine ⟨List.forall_mem_nil _, isBlank_quoteMark, ?_⟩
  have hscan := quotedString_closed s h
  rw [← scan_quoteMark] at hscan
  simpa [plain] using hscan

theorem reads_openString (h : ¬ Closes rest) :
    Reads [] (faulty .unexpectedEnd quoteMark rest) [] := by
  refine ⟨List.forall_mem_nil _, isBlank_quoteMark, ?_⟩
  have hscan := quotedString_unclosed (quoted?_eq_none_iff.mpr h)
  rw [← scan_quoteMark] at hscan
  simpa [faulty, plain] using hscan

/-- A written string is read as its contents, and what is behind it is read from there on. -/
theorem tokens_quotedForm (m : Mark) (s : List Char) (h : NoQuote r) :
    tokens ⟨m, quotedForm s ++ r⟩ = .stringAt m s :: tokens ⟨m.after (quotedForm s), r⟩ := by
  have htokens := tokens_reads m (reads_quotedForm (s := s) h)
  have hoffset := m.offset_after (quotedForm s)
  simp only [List.nil_append] at htokens
  unfold quotedForm at hoffset ⊢
  unfold Token.stringAt quotedForm
  rw [← hoffset]
  exact htokens

/-- A string without an end is read up to the end of the text. -/
theorem tokens_openString (m : Mark) (h : ¬ Closes rest) :
    tokens ⟨m, quoteMark :: rest⟩ =
      [.openStringAt m rest, .endAt (m.after (quoteMark :: rest))] := by
  have htokens := tokens_reads m (reads_openString h)
  have hoffset := m.offset_after (quoteMark :: rest)
  have hend := tokens_blank (m.after (quoteMark :: rest)) (List.forall_mem_nil (isBlank · = true))
  simp only [List.nil_append, List.append_nil] at htokens
  unfold Token.openStringAt
  rw [← hoffset]
  exact htokens.trans (congrArg _ hend)

/-- What is read at an opening quote is a string just where a quote closes it. -/
theorem tokens_quoteMark (m : Mark) (rest : List Char) :
    (∃ s after, rest = doubled s ++ quoteMark :: after ∧ NoQuote after ∧
      tokens ⟨m, quoteMark :: rest⟩ = .stringAt m s :: tokens ⟨m.after (quotedForm s), after⟩) ∨
    (¬ Closes rest ∧ tokens ⟨m, quoteMark :: rest⟩ =
      [.openStringAt m rest, .endAt (m.after (quoteMark :: rest))]) := by
  by_cases hcloses : Closes rest
  · obtain ⟨s, after, rfl, hafter⟩ := hcloses
    refine .inl ⟨s, after, rfl, hafter, ?_⟩
    have hform : quoteMark :: (doubled s ++ quoteMark :: after) = quotedForm s ++ after := by
      simp [quotedForm]
    rw [hform]
    exact tokens_quotedForm m s hafter
  · exact .inr ⟨hcloses, tokens_openString m hcloses⟩

/-- A string of a text stands there as its contents are written. -/
theorem Stands.string {m : Mark} {cs before after : List Char} {t : Token} {l : Lexeme}
    (h : Stands m cs t before l after) (hk : t.kind = .string) :
    ∃ s, t.value = some (.text (String.ofList s)) ∧ l.taken = quotedForm s ∧
      t.text = String.ofList (quotedForm s) := by
  have hkind : (scan l.first (l.more ++ after)).kind = .string := by rw [h.scanned, ← h.kind_eq, hk]
  obtain ⟨hfirst, s, behind, hrest, hbehind⟩ := scan_string hkind
  have hlexeme := h.scanned
  rw [hfirst, hrest, scan_quoteMark, quotedString_closed s hbehind] at hlexeme
  refine ⟨s, ?_, ?_, ?_⟩
  · rw [h.value_eq, ← hlexeme, plain]
  · rw [← hlexeme]
    rfl
  · rw [h.text_eq, ← hlexeme]
    rfl

end Scanner

/-! ## The law -/

/-- What is read as a string is what was written as one: at any place, whatever stands in front of
it and whatever comes behind it but a quote. -/
theorem strings_decode_what_they_encode :
    (∀ (m : Mark) (s r : List Char), NoQuote r →
      Scanner.tokens ⟨m, quotedForm s ++ r⟩ =
        .stringAt m s :: Scanner.tokens ⟨m.after (quotedForm s), r⟩) ∧
    (∀ (source : String), ∀ t ∈ tokensOf source, t.kind = .string →
      ∃ s : String, t.value = some (.text s) ∧ t.text = String.ofList (quotedForm s.toList) ∧
        (source.utf8ByteSize < 0x100000000 → t.span.slice source = t.text)) ∧
    ∀ (m : Mark) (rest : List Char),
      (Scanner.tokens ⟨m, quoteMark :: rest⟩ =
        [.openStringAt m rest, .endAt (m.after (quoteMark :: rest))] ↔ ¬ Closes rest) ∧
      ((∃ t ∈ (Scanner.tokens ⟨m, quoteMark :: rest⟩).head?,
        t.value = some (.fault .unexpectedEnd)) ↔ ¬ Closes rest) ∧
      (¬ Closes rest ↔ ∃ s, rest = doubled s) := by
  refine ⟨fun m s r h => Scanner.tokens_quotedForm m s h, fun source t ht hk => ?_,
    fun m rest => ?_⟩
  · obtain ⟨before, l, after, hs⟩ := Scanner.exists_stands ht (by rw [hk]; decide)
    obtain ⟨s, hvalue, htaken, htext⟩ := hs.string hk
    refine ⟨String.ofList s, hvalue, by rw [htext, String.toList_ofList], fun hlength => ?_⟩
    rw [hs.span hlength, String.utf8Len_append, htext, ← htaken]
    exact slice_eq hs.text
  · have hcases := Scanner.tokens_quoteMark m rest
    refine ⟨?_, ?_, Lexeme.not_closes_iff⟩
    · rcases hcases with ⟨s, after, hrest, hafter, htokens⟩ | ⟨hopen, htokens⟩
      · rw [htokens]
        refine ⟨fun heq => ?_, fun hopen => absurd ⟨s, after, hrest, hafter⟩ hopen⟩
        have hfirst := (List.cons.inj heq).1
        cases congrArg Token.kind hfirst
      · exact ⟨fun _ => hopen, fun _ => htokens⟩
    · rcases hcases with ⟨s, after, hrest, hafter, htokens⟩ | ⟨hopen, htokens⟩
      · rw [htokens]
        refine ⟨?_, fun hopen => absurd ⟨s, after, hrest, hafter⟩ hopen⟩
        rintro ⟨t, ht, hvalue⟩
        cases ht
        cases hvalue
      · rw [htokens]
        exact ⟨fun _ => hopen, fun _ => ⟨_, rfl, rfl⟩⟩

/-- Runs of quotes at the start, in the middle and at the end of a string, an empty string, and a
string that the doubled quote at its end leaves open. -/
def quotedSource : String :=
  "\x27\x27\x27a\x27\x27\x27\x27é\x27\x27\x27\x27\x27,\x27\x27:\x27b\x27\x27"

theorem quotedSource_is_decoded :
    quotedSource.toList =
      quotedForm "\x27a\x27\x27é\x27\x27".toList ++ ",\x27\x27:\x27b\x27\x27".toList ∧
    (tokensOf quotedSource).map (fun t => (t.kind, t.value, t.span)) =
      [(.string, some (.text "\x27a\x27\x27é\x27\x27"), ⟨0, 15⟩), (.comma, none, ⟨15, 16⟩),
        (.string, some (.text ""), ⟨16, 18⟩), (.colon, none, ⟨18, 19⟩),
        (.error, some (.fault .unexpectedEnd), ⟨19, 23⟩), (.endOfFile, none, ⟨23, 23⟩)] ∧
    tokensOf quotedSource = .stringAt .start "\x27a\x27\x27é\x27\x27".toList ::
      Scanner.tokens ⟨Mark.start.after (quotedForm "\x27a\x27\x27é\x27\x27".toList),
        ",\x27\x27:\x27b\x27\x27".toList⟩ ∧
    (∀ t ∈ tokensOf quotedSource, t.kind = .string → ∃ s : String,
      t.value = some (.text s) ∧ t.text = String.ofList (quotedForm s.toList) ∧
        t.span.slice quotedSource = t.text) ∧
    ¬ Closes "b\x27\x27".toList := by
  have hlength : quotedSource.utf8ByteSize < 0x100000000 := by decide +kernel
  have hrest : NoQuote ",\x27\x27:\x27b\x27\x27".toList := by
    rintro c ⟨⟩
    decide
  have hwritten : quotedSource.toList =
      quotedForm "\x27a\x27\x27é\x27\x27".toList ++ ",\x27\x27:\x27b\x27\x27".toList := by
    decide +kernel
  obtain ⟨hread, hstrings, hopen⟩ := strings_decode_what_they_encode
  refine ⟨hwritten, by decide +kernel, ?_, fun t ht hk => ?_, ?_⟩
  · rw [tokensOf, Scanner.start, hwritten]
    exact hread .start _ _ hrest
  · obtain ⟨s, hvalue, htext, hslice⟩ := hstrings quotedSource t ht hk
    exact ⟨s, hvalue, htext, hslice hlength⟩
  · exact (hopen .start _).2.2.mpr ⟨['b', quoteMark], by decide +kernel⟩

end PascalFront
