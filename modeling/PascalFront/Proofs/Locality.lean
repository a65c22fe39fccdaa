-- Lexemes are local. What a token is depends on its own characters alone: the
-- part of the source that it covers gives the same token by itself, whatever
-- stood around it. What stood behind it decides only where it ends, and there
-- it takes all that it can.
import PascalFront.Proofs.Tiling

namespace PascalFront

open String (utf8Len)

/-! ## What a token takes -/

namespace Token

/-- What a token is, apart from where it stands. -/
def content (t : Token) : TokenKind × String × Option TokenValue := (t.kind, t.text, t.value)

/-- A special symbol of one character, or a character that begins no token. -/
def IsLoneCharacter (t : Token) : Prop :=
  (t.kind.isSpecialSymbol = true ∧ t.text.length = 1) ∨ t.value = some (.fault .invalidCharacter)

instance (t : Token) : Decidable t.IsLoneCharacter := inferInstanceAs (Decidable (_ ∨ _))

/-- A token that has its text from the source stands between `before` and `after`. -/
structure StandsBetween (t : Token) (source : String) (before after : List Char) : Prop where
  text : source.toList = before ++ (t.text.toList ++ after)
  position : t.position = placeBehind before
  span : t.span = .between (utf8Len before) (utf8Len (before ++ t.text.toList))

/-- What a token takes is all that it can. -/
structure IsLongest (t : Token) (source : String) : Prop where
  /-- A word ends where no word character follows, and it is the reserved word that is spelled like
  it in small letters, or an identifier. -/
  word : t.kind.IsWord → (∃ before after, t.StandsBetween source before after ∧
      ∀ c ∈ after.head?, isWordChar c = false) ∧
    ∀ k : TokenKind, k.isReservedWord = true →
      (t.kind = k ↔ k.spelling = some (caseFold t.text))
  /-- A character alone makes no symbol with the next one. -/
  character : t.IsLoneCharacter → ∃ before after, t.StandsBetween source before after ∧
    ∀ c ∈ after.head?, ∀ k : TokenKind, k.isSpecialSymbol = true →
      k.spelling ≠ some (t.text ++ String.singleton c)
  notBrace : t.kind ≠ .leftBrace
  notQuote : t.kind ≠ .quote

end Token

/-! ## Tokens in a source -/

namespace Scanner

open Lexeme

variable {source : String} {m : Mark} {t : Token} {cs before after : List Char} {l : Lexeme}

theorem Stands.between (h : Stands .start source.toList t before l after)
    (htext : l.text = String.ofList l.taken) : t.StandsBetween source before after := by
  have htoken : t.text.toList = l.taken := by
    rw [h.token, placed, htext, String.toList_ofList]
  have hstart : Mark.start.offset = 0 := rfl
  refine ⟨?_, ?_, ?_⟩
  · rw [htoken]
    exact h.text
  · rw [h.token]
    exact position_after_start before
  · rw [htoken, h.token, String.utf8Len_append]
    simp only [placed, Mark.offset_after, hstart, Nat.zero_add]

theorem Stands.isLongest_literal (h : Stands .start source.toList t before l after)
    (hliteral : l.IsLiteral) : t.IsLongest source := by
  have hkind : t.kind.IsLiteral := h.kind_eq ▸ hliteral.kind
  refine ⟨fun hw => absurd hw (TokenKind.not_isWord_of_isLiteral hkind), ?_, ?_, ?_⟩
  · rintro (⟨hsymbol, -⟩ | hfault)
    · rw [TokenKind.isSpecialSymbol_of_isLiteral hkind] at hsymbol
      cases hsymbol
    · exact absurd (h.value_eq.symm.trans hfault) hliteral.value
  · intro hk
    exact absurd (hk ▸ hkind) (by simp [TokenKind.IsLiteral])
  · intro hk
    exact absurd (hk ▸ hkind) (by simp [TokenKind.IsLiteral])

theorem Stands.isLongest_word (h : Stands .start source.toList t before l after)
    (hword : scan l.first = word l.first) : t.IsLongest source := by
  have hscanned : word l.first (l.more ++ after) = l := hword ▸ h.scanned
  have htext := text_word l.first (l.more ++ after)
  have hvalue := value_word l.first (l.more ++ after)
  rw [hscanned] at htext hvalue
  have hkind : t.kind.IsWord := by
    have hw := word_isWord l.first (l.more ++ after)
    rwa [hscanned, ← h.kind_eq] at hw
  refine ⟨fun _ => ⟨⟨before, after, h.between htext, (word_longest l.first).ends hscanned⟩,
    fun k hk => ?_⟩, ?_, ?_, ?_⟩
  · have hiff := kind_word_eq_iff l.first (l.more ++ after) hk
    rwa [hscanned, ← h.kind_eq, ← h.text_eq] at hiff
  · rintro (⟨hsymbol, -⟩ | hfault)
    · exact absurd hkind (TokenKind.not_isWord_of_isSpecialSymbol hsymbol)
    · rw [h.value_eq, hvalue] at hfault
      cases hfault
  · intro hk
    exact absurd (hk ▸ hkind) (by decide)
  · intro hk
    exact absurd (hk ▸ hkind) (by decide)

theorem Stands.isLongest_symbol (h : Stands .start source.toList t before l after)
    (hbrace : l.first ≠ openBrace) (hquote : l.first ≠ quoteMark)
    (hsymbol : scan l.first = symbol l.first) : t.IsLongest source := by
  have hscanned : symbol l.first (l.more ++ after) = l := hsymbol ▸ h.scanned
  have hform := symbol_form l.first (l.more ++ after)
  rw [hscanned] at hform
  refine ⟨fun hw => absurd (h.kind_eq ▸ hw) hform.not_isWord, fun hlone => ?_, ?_, ?_⟩
  · -- a symbol of two characters is not alone, and no fault is one
    have hmore : l.more = [] := by
      refine hform.more_eq_nil ?_
      rw [← h.text_eq, ← h.value_eq]
      exact hlone.imp_left And.right
    refine ⟨before, after, h.between hform.text_eq, fun c hc k hk => ?_⟩
    have hnone := (symbol_longest l.first).ends hscanned hmore c hc
    have htext : t.text ++ String.singleton c = String.ofList [l.first, c] := by
      rw [h.text_eq, hform.text_eq, taken, hmore, String.singleton_eq_ofList,
        ← String.ofList_append, List.singleton_append]
    rw [htext]
    exact TokenKind.specialSymbol?_eq_none hnone hk
  · rw [h.kind_eq]
    exact hform.kind_ne_of_spelling TokenKind.noConfusion rfl hbrace
  · rw [h.kind_eq]
    exact hform.kind_ne_of_spelling TokenKind.noConfusion rfl hquote

theorem Stands.isLongest (h : Stands .start source.toList t before l after) :
    t.IsLongest source := by
  rcases scan_cases l.first (l.more ++ after) with
    hliteral | ⟨-, hword⟩ | ⟨hbrace, hquote, hsymbol⟩
  · exact h.isLongest_literal (h.scanned ▸ hliteral)
  · exact h.isLongest_word hword
  · exact h.isLongest_symbol hbrace hquote hsymbol

/-- A lexeme by itself is the token that it is among others. -/
theorem Stands.alone (h : Stands .start source.toList t before l after) :
    (tokensOf (String.ofList l.taken)).map Token.content = [t.content, (.endOfFile, "", none)] := by
  have hscanned := (scan_longest l.first).scanned h.scanned l.ends_nil
  have hreads : Reads [] l [] := ⟨List.forall_mem_nil _, h.visible, hscanned⟩
  have hnil : tokens ⟨Mark.start.after l.taken, []⟩ = [.endAt (Mark.start.after l.taken)] :=
    tokens_blank _ (List.forall_mem_nil _)
  have htokens := tokens_reads .start hreads
  simp only [List.nil_append, List.append_nil, hnil] at htokens
  rw [tokensOf, start, String.toList_ofList, htokens, h.token]
  rfl

end Scanner

theorem isLongest_endAt (m : Mark) (source : String) : (Token.endAt m).IsLongest source := by
  have hkind : (Token.endAt m).kind = .endOfFile := rfl
  refine ⟨fun hw => ?_, ?_, TokenKind.noConfusion, TokenKind.noConfusion⟩
  · rw [hkind] at hw
    exact absurd hw (by decide)
  · rintro (⟨hsymbol, -⟩ | hfault)
    · rw [hkind] at hsymbol
      exact absurd hsymbol (by decide)
    · cases hfault

/-- Every token is the same by itself, and none could be longer. -/
theorem lexemes_are_local_and_longest (source : String) :
    (source.utf8ByteSize < 0x100000000 → ∀ t ∈ tokensOf source, t.kind ≠ .endOfFile →
      (tokensOf (t.span.slice source)).map Token.content =
        [t.content, (.endOfFile, "", none)]) ∧
      ∀ t ∈ tokensOf source, t.IsLongest source := by
  refine ⟨fun hlength t ht hk => ?_, fun t ht => ?_⟩
  · obtain ⟨before, l, after, hs⟩ := Scanner.exists_stands ht hk
    have hslice : t.span.slice source = String.ofList l.taken := by
      rw [hs.span hlength, String.utf8Len_append]
      exact slice_eq hs.text
    rw [hslice]
    exact hs.alone
  · rcases Scanner.tokens_cases ht with rfl | ⟨before, l, after, hs⟩
    · exact isLongest_endAt _ source
    · exact hs.isLongest

/-- Here every lexeme touches the next one. -/
def touchingSource : String := "x:=1.e\x27a\x27\x27b\x27<?IF9\x7b "

theorem touchingSource_is_local :
    touchingSource.utf8ByteSize < 0x100000000 ∧
    (tokensOf touchingSource).map Token.content =
      [(.identifier, "x", none), (.assign, ":=", none), (.integer, "1", some (.integer 1)),
        (.dot, ".", none), (.identifier, "e", none),
        (.string, "\x27a\x27\x27b\x27", some (.text "a\x27b")), (.lessThan, "<", none),
        (.error, "?", some (.fault .invalidCharacter)), (.identifier, "IF9", none),
        (.error, " ", some (.fault .unexpectedEnd)), (.endOfFile, "", none)] ∧
    (∀ t ∈ (tokensOf touchingSource).dropLast, t.kind ≠ .endOfFile ∧
      (tokensOf (t.span.slice touchingSource)).map Token.content =
        [t.content, (.endOfFile, "", none)]) ∧
    (∃ t ∈ tokensOf touchingSource, t.kind.IsWord) ∧
    (∃ t ∈ tokensOf touchingSource, t.IsLoneCharacter) ∧
    ∀ t ∈ tokensOf touchingSource, t.IsLongest touchingSource := by
  have hlength : touchingSource.utf8ByteSize < 0x100000000 := by decide +kernel
  obtain ⟨hlocal, hlongest⟩ := lexemes_are_local_and_longest touchingSource
  have hkinds : ∀ t ∈ (tokensOf touchingSource).dropLast, t.kind ≠ .endOfFile := by decide +kernel
  refine ⟨hlength, by decide +kernel, fun t ht => ?_, by decide +kernel, by decide +kernel,
    hlongest⟩
  exact ⟨hkinds t ht, hlocal hlength t (List.dropLast_subset _ ht) (hkinds t ht)⟩

end PascalFront
