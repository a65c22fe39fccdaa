-- Kinds of lexemes. Every lexeme is a literal, a word or a symbol, by its first
-- character, and its kind tells which. Words and symbols have the kind that is
-- spelled like them.
import PascalFront.Proofs.Lexemes
import Mathlib.Data.List.Nodup

namespace PascalFront

/-! ## Kinds with one spelling -/

namespace TokenKind

theorem mem_all (k : TokenKind) : k ∈ all := by
  cases k <;> decide

/-- No two reserved words are spelled alike. -/
theorem nodup_spellings : (reservedWords.map spelling).Nodup := by
  decide +kernel

theorem reservedWord?_eq_some_iff {text : String} {k : TokenKind} :
    reservedWord? text = some k ↔ k.isReservedWord = true ∧ k.spelling = some (caseFold text) := by
  unfold reservedWord? spelledWord?
  constructor
  · intro h
    have hmem := List.mem_of_find?_eq_some h
    have hspelling := List.find?_some h
    exact ⟨(List.mem_filter.mp hmem).2, by simpa using hspelling⟩
  · rintro ⟨hword, hspelling⟩
    have hmem : k ∈ reservedWords := List.mem_filter.mpr ⟨mem_all k, hword⟩
    obtain ⟨k', hk'⟩ : ∃ k', reservedWords.find? (·.spelling == some (caseFold text)) = some k' :=
      Option.isSome_iff_exists.mp (by simpa using ⟨k, hmem, hspelling⟩)
    have hspelling' : k'.spelling = some (caseFold text) := by simpa using List.find?_some hk'
    have heq := List.inj_on_of_nodup_map nodup_spellings (List.mem_of_find?_eq_some hk') hmem
      (hspelling'.trans hspelling.symm)
    rw [← heq, hk']

theorem specialSymbol?_eq_some {text : String} {k : TokenKind} (h : specialSymbol? text = some k) :
    k.isSpecialSymbol = true ∧ k.spelling = some text := by
  have hmem := List.mem_of_find?_eq_some h
  have hspelling := List.find?_some h
  exact ⟨(List.mem_filter.mp hmem).2, by simpa using hspelling⟩

theorem specialSymbol?_eq_none {text : String} (h : specialSymbol? text = none) {k : TokenKind}
    (hk : k.isSpecialSymbol = true) : k.spelling ≠ some text := by
  have hmem : k ∈ specialSymbols := List.mem_filter.mpr ⟨mem_all k, hk⟩
  simpa using List.find?_eq_none.mp h k hmem

end TokenKind

/-! ## Words and literals -/

namespace TokenKind

/-- The kinds of words. -/
def IsWord (k : TokenKind) : Prop := k.isReservedWord = true ∨ k = .identifier

instance (k : TokenKind) : Decidable k.IsWord := inferInstanceAs (Decidable (_ ∨ _))

/-- The kinds of tokens with contents, and of faults. -/
def IsLiteral (k : TokenKind) : Prop := k ∈ [integer, real, string, comment, error]

instance (k : TokenKind) : Decidable k.IsLiteral := inferInstanceAs (Decidable (_ ∈ _))

theorem not_isWord_of_isSpecialSymbol {k : TokenKind} (h : k.isSpecialSymbol = true) :
    ¬ k.IsWord := by
  have hall : ∀ k ∈ all, k.isSpecialSymbol = true → ¬ k.IsWord := by decide +kernel
  exact hall k (mem_all k) h

theorem not_isWord_of_isLiteral {k : TokenKind} (h : k.IsLiteral) : ¬ k.IsWord := by
  have hall : ∀ k ∈ [integer, real, string, comment, error], ¬ k.IsWord := by decide
  exact hall k h

theorem isSpecialSymbol_of_isLiteral {k : TokenKind} (h : k.IsLiteral) :
    k.isSpecialSymbol = false := by
  have hall : ∀ k ∈ [integer, real, string, comment, error], k.isSpecialSymbol = false := by decide
  exact hall k h

end TokenKind

/-! ## Which scanner reads which kinds -/

namespace Lexeme

variable {c : Char} {rest : List Char}

/-- A lexeme of characters that stand for something else than themselves, or a fault among them. -/
structure IsLiteral (l : Lexeme) : Prop where
  kind : l.kind.IsLiteral
  value : l.value ≠ some (.fault .invalidCharacter)

theorem comment_isLiteral (rest : List Char) : (comment rest).IsLiteral := by
  rcases unclosed_or_closed rest with h | ⟨inside, after, rfl, h⟩
  · rw [comment_unclosed h]
    exact ⟨by simp [TokenKind.IsLiteral], by simp⟩
  · rw [comment_closed h]
    exact ⟨by simp [TokenKind.IsLiteral], by simp⟩

theorem quotedString_isLiteral (rest : List Char) : (quotedString rest).IsLiteral := by
  rcases unquoted_or_quoted rest with h | ⟨s, after, rfl, hafter⟩
  · rw [quotedString_unclosed h]
    exact ⟨by simp [faulty, plain, TokenKind.IsLiteral], by simp [faulty, plain]⟩
  · rw [quotedString_closed s hafter]
    exact ⟨by simp [plain, TokenKind.IsLiteral], by simp [plain]⟩

theorem comment_value (rest : List Char) (hk : (comment rest).kind = .error) :
    (comment rest).value = some (.fault .unexpectedEnd) := by
  rcases unclosed_or_closed rest with h | ⟨inside, after, rfl, h⟩
  · rw [comment_unclosed h]
  · rw [comment_closed h] at hk
    cases hk

theorem quotedString_value (rest : List Char) (hk : (quotedString rest).kind = .error) :
    (quotedString rest).value = some (.fault .unexpectedEnd) := by
  rcases unquoted_or_quoted rest with h | ⟨s, after, rfl, h⟩
  · rw [quotedString_unclosed h]
    rfl
  · rw [quotedString_closed s h] at hk
    cases hk

theorem Numeral.value_ne_invalidCharacter (n : Numeral) :
    n.value ≠ .fault .invalidCharacter := by
  unfold value
  split
  · split <;> simp
  · simp
  · split <;> simp

theorem number_isLiteral (c : Char) (rest : List Char) : (number c rest).IsLiteral := by
  constructor
  · simp only [number, plain]
    cases (Numeral.read (c :: rest)).value <;> simp [numberKind, TokenKind.IsLiteral]
  · simpa [number, plain] using Numeral.value_ne_invalidCharacter _

/-- Every lexeme is a literal, a word or a symbol. -/
theorem scan_cases (c : Char) (rest : List Char) : (scan c rest).IsLiteral ∨
    (isLetter c = true ∧ scan c = word c) ∨
    (c ≠ openBrace ∧ c ≠ quoteMark ∧ scan c = symbol c) := by
  have h := readBy_scan c
  generalize scan c = scanner at h ⊢
  cases h with
  | comment => exact .inl (comment_isLiteral rest)
  | word _ hletter => exact .inr (.inl ⟨hletter, rfl⟩)
  | number => exact .inl (number_isLiteral c rest)
  | string => exact .inl (quotedString_isLiteral rest)
  | symbol hbrace _ _ hquote => exact .inr (.inr ⟨hbrace, hquote, rfl⟩)

/-! ## Words -/

theorem kind_word (c : Char) (rest : List Char) : (word c rest).kind =
    (TokenKind.reservedWord? (word c rest).text).getD .identifier := by
  rw [word]
  dsimp only [plain]

theorem text_word (c : Char) (rest : List Char) :
    (word c rest).text = String.ofList (word c rest).taken := by
  rw [word]
  dsimp only [plain, taken]

theorem value_word (c : Char) (rest : List Char) : (word c rest).value = none := by
  rw [word]
  dsimp only [plain]

theorem word_isWord (c : Char) (rest : List Char) : (word c rest).kind.IsWord := by
  rw [kind_word]
  cases hk : TokenKind.reservedWord? (word c rest).text with
  | none => exact .inr rfl
  | some k => exact .inl (TokenKind.reservedWord?_eq_some_iff.mp hk).1

/-- The letter case of a word does not matter. -/
theorem kind_word_eq_iff (c : Char) (rest : List Char) {k : TokenKind}
    (hk : k.isReservedWord = true) :
    (word c rest).kind = k ↔ k.spelling = some (caseFold (word c rest).text) := by
  have hiff : TokenKind.reservedWord? (word c rest).text = some k ↔
      k.spelling = some (caseFold (word c rest).text) := by
    rw [TokenKind.reservedWord?_eq_some_iff]
    exact and_iff_right hk
  rw [← hiff, kind_word]
  cases TokenKind.reservedWord? (word c rest).text with
  | some k' => simp
  | none =>
    have hne : TokenKind.identifier ≠ k := by
      rintro rfl
      exact absurd hk (by decide)
    simp [hne]

/-! ## Symbols -/

namespace SymbolForm

variable {l : Lexeme} (h : SymbolForm c rest l)

include h

/-- The text of a symbol is the spelling of its kind. -/
theorem kind_cases : l.kind = .error ∨
    (l.kind.isSpecialSymbol = true ∧ l.kind.spelling = some (String.ofList l.taken)) := by
  cases h with
  | pair hfound => exact .inr (TokenKind.specialSymbol?_eq_some hfound)
  | single _ hfound => exact .inr (TokenKind.specialSymbol?_eq_some hfound)
  | unknown => exact .inl rfl

theorem kind_ne {k : TokenKind} (herror : k ≠ .error) (hk : k.isSpecialSymbol = false) :
    l.kind ≠ k := by
  rintro rfl
  rcases h.kind_cases with heq | ⟨hsymbol, -⟩
  · exact herror heq
  · rw [hk] at hsymbol
    cases hsymbol

theorem value_of_error (hk : l.kind = .error) :
    l.value = some (.fault .invalidCharacter) := by
  cases h with
  | unknown => rfl
  | pair hfound =>
    obtain ⟨hsymbol, -⟩ := TokenKind.specialSymbol?_eq_some hfound
    simp only [plain] at hk
    rw [hk] at hsymbol
    cases hsymbol
  | single _ hfound =>
    obtain ⟨hsymbol, -⟩ := TokenKind.specialSymbol?_eq_some hfound
    simp only [plain] at hk
    rw [hk] at hsymbol
    cases hsymbol

theorem not_isWord : ¬ l.kind.IsWord := by
  rcases h.kind_cases with heq | ⟨hsymbol, -⟩
  · rw [heq]
    decide
  · exact TokenKind.not_isWord_of_isSpecialSymbol hsymbol

theorem text_eq : l.text = String.ofList l.taken := by
  cases h <;> rfl

theorem first_eq : l.first = c := by
  cases h <;> rfl

/-- A symbol that is spelled with one character begins with it. -/
theorem kind_ne_of_spelling {k : TokenKind} {d : Char} (herror : k ≠ .error)
    (hk : k.spelling = some (String.singleton d)) (hc : c ≠ d) : l.kind ≠ k := by
  rintro rfl
  rcases h.kind_cases with heq | ⟨-, hspelling⟩
  · exact herror heq
  · have htaken : l.first :: l.more = [d] :=
      String.ofList_inj.mp (Option.some.inj (hspelling.symm.trans hk))
    exact hc (h.first_eq ▸ (List.cons.inj htaken).1)

theorem more_eq_nil (hlone : l.text.length = 1 ∨ l.value = some (.fault .invalidCharacter)) :
    l.more = [] := by
  cases h with
  | pair => simp [plain] at hlone
  | single => rfl
  | unknown => rfl

end SymbolForm

/-- Every lexeme but a comment has what it takes as its text. -/
theorem scan_plain {c : Char} (hc : c ≠ openBrace) (rest : List Char) :
    (scan c rest).text = String.ofList (scan c rest).taken ∧ (scan c rest).kind ≠ .comment := by
  have h := readBy_scan c
  generalize scan c = scanner at h ⊢
  cases h with
  | comment => exact absurd rfl hc
  | word =>
    refine ⟨text_word c rest, fun hk => ?_⟩
    exact absurd (hk ▸ word_isWord c rest) (by decide)
  | number =>
    refine ⟨rfl, ?_⟩
    simp only [number, plain]
    cases (Numeral.read (c :: rest)).value <;> exact TokenKind.noConfusion
  | string =>
    rcases unquoted_or_quoted rest with h | ⟨s, after, rfl, hafter⟩
    · rw [quotedString_unclosed h]
      exact ⟨rfl, TokenKind.noConfusion⟩
    · rw [quotedString_closed s hafter]
      exact ⟨rfl, TokenKind.noConfusion⟩
  | symbol =>
    have hform := symbol_form c rest
    exact ⟨hform.text_eq, hform.kind_ne TokenKind.noConfusion (by decide)⟩

/-- No lexeme is the token for the end, and a name starts with a letter. -/
theorem scan_kind (c : Char) (rest : List Char) : (scan c rest).kind ≠ .endOfFile ∧
    ((scan c rest).kind = .identifier →
      ∃ more, (scan c rest).text = String.ofList (c :: more) ∧ isLetter c = true) := by
  rcases scan_cases c rest with hliteral | ⟨hletter, hword⟩ | ⟨-, -, hsymbol⟩
  · refine ⟨fun hk => ?_, fun hk => ?_⟩
    · exact absurd (hk ▸ hliteral.kind) (by decide)
    · exact absurd (hk ▸ hliteral.kind) (by decide)
  · rw [hword]
    refine ⟨fun hk => ?_, fun _ => ⟨_, rfl, hletter⟩⟩
    exact absurd (hk ▸ word_isWord c rest) (by decide)
  · have hform := symbol_form c rest
    rw [hsymbol]
    refine ⟨hform.kind_ne TokenKind.noConfusion (by decide), fun hk => ?_⟩
    exact absurd (.inr hk) hform.not_isWord

theorem number_value (c : Char) (rest : List Char) (hk : (number c rest).kind = .error) :
    ∃ cause, (number c rest).value = some (.fault cause) := by
  have hkind : numberKind (Numeral.read (c :: rest)).value = .error := hk
  have hvalue : (number c rest).value = some (Numeral.read (c :: rest)).value := rfl
  rw [hvalue]
  generalize Numeral.read (c :: rest) = n at hkind ⊢
  unfold Numeral.value at hkind ⊢
  split at hkind
  · split at hkind
    · cases hkind
    · exact ⟨.integerRange, by simp [*]⟩
  · exact ⟨.invalidNumber, rfl⟩
  · split at hkind
    · cases hkind
    · exact ⟨.realRange, by simp [*]⟩

/-- A lexeme of kind `error` says what is wrong. -/
theorem scan_fault {c : Char} {rest : List Char} (hk : (scan c rest).kind = .error) :
    ∃ cause, (scan c rest).value = some (.fault cause) := by
  have h := readBy_scan c
  generalize scan c = scanner at h hk ⊢
  cases h with
  | comment => exact ⟨_, comment_value rest hk⟩
  | word => exact absurd (hk ▸ word_isWord c rest) (by decide)
  | number => exact number_value c rest hk
  | string => exact ⟨_, quotedString_value rest hk⟩
  | symbol => exact ⟨_, (symbol_form c rest).value_of_error hk⟩

end Lexeme

end PascalFront
