-- Letter case in the text. Nothing that the scanner looks at is changed when an
-- ASCII letter is made small: no class of characters, no reserved word, no part
-- of a number but the letter of its exponent. So the lexemes of a text in small
-- letters are the lexemes of the text, in small letters.
import PascalFront.Proofs.Texts

namespace PascalFront

/-! ## Characters -/

/-- What holds of the ASCII characters and of those that are their own small letters, holds of
all. -/
theorem char_cases {P : Char → Prop} (hascii : ∀ n < 128, P (Char.ofNat n))
    (hother : ∀ c : Char, c.toLower = c → P c) (c : Char) : P c := by
  by_cases hc : c.toNat < 128
  · have := hascii c.toNat hc
    rwa [Char.ofNat_toNat] at this
  · refine hother c (dif_neg ?_)
    rintro ⟨-, hle⟩
    have hle : c.toNat ≤ 90 := hle
    omega

/-- All that the scanner asks of a character is the same for its small letter. -/
@[mk_iff]
structure CaseBlind (c : Char) : Prop where
  letter : isLetter c.toLower = isLetter c
  digit : isDigit c.toLower = isDigit c
  wordChar : isWordChar c.toLower = isWordChar c
  blank : isBlank c.toLower = isBlank c
  size : c.toLower.utf8Size = c.utf8Size
  fixed : isLetter c = false → c.toLower = c
  fixed_digit : isDigit c = true → c.toLower = c
  exponent : (c.toLower = 'e' ∨ c.toLower = 'E') ↔ (c = 'e' ∨ c = 'E')
  sigma : c.toLower = 'Σ' ↔ c = 'Σ'
  small : Letters.small c.toLower = Letters.small c
  ignorable : Letters.inRanges Letters.caseIgnorableRanges c.toLower.toNat =
    Letters.inRanges Letters.caseIgnorableRanges c.toNat
  cased : Letters.inRanges Letters.casedRanges c.toLower.toNat =
    Letters.inRanges Letters.casedRanges c.toNat

instance (c : Char) : Decidable (CaseBlind c) := decidable_of_iff _ (caseBlind_iff c).symm

theorem caseBlind (c : Char) : CaseBlind c :=
  char_cases (P := CaseBlind) (by decide +kernel) (fun c hc => by simp [caseBlind_iff, hc]) c

/-- A character that is no letter is not changed, and no other one becomes it. -/
theorem toLower_eq_iff {c d : Char} (hd : isLetter d = false) : c.toLower = d ↔ c = d := by
  constructor
  · rintro rfl
    exact ((caseBlind c).fixed ((caseBlind c).letter ▸ hd)).symm
  · rintro rfl
    exact (caseBlind c).fixed hd

/-- The characters that are looked for one by one. -/
theorem marks_are_no_letters :
    ∀ d ∈ ['\n', '.', '+', '-', Lexeme.openBrace, Lexeme.closeBrace, Lexeme.quoteMark],
      isLetter d = false := by
  have hall : ['\n', '.', '+', '-', Lexeme.openBrace, Lexeme.closeBrace, Lexeme.quoteMark].all
      (!isLetter ·) = true := by
    decide +kernel
  intro d hd
  simpa using List.all_eq_true.mp hall d hd

theorem toLower_eq_mark_iff (c : Char) {d : Char}
    (hd : d ∈ ['\n', '.', '+', '-', Lexeme.openBrace, Lexeme.closeBrace, Lexeme.quoteMark]) :
    c.toLower = d ↔ c = d :=
  toLower_eq_iff (marks_are_no_letters d hd)

/-! ## Texts in small letters -/

/-- A row of characters in small ASCII letters. -/
def smallLetters (cs : List Char) : List Char := cs.map Char.toLower

@[simp]
theorem smallLetters_nil : smallLetters [] = [] := rfl

@[simp]
theorem smallLetters_cons (c : Char) (cs : List Char) :
    smallLetters (c :: cs) = c.toLower :: smallLetters cs := rfl

theorem smallLetters_append (cs ds : List Char) :
    smallLetters (cs ++ ds) = smallLetters cs ++ smallLetters ds := List.map_append

theorem drop_smallLetters (n : Nat) (cs : List Char) :
    (smallLetters cs).drop n = smallLetters (cs.drop n) := List.map_drop.symm

theorem take_smallLetters (n : Nat) (cs : List Char) :
    (smallLetters cs).take n = smallLetters (cs.take n) := List.map_take.symm

theorem length_smallLetters (cs : List Char) : (smallLetters cs).length = cs.length :=
  List.length_map _

theorem length_eq_of_smallLetters {cs ds : List Char} (h : smallLetters cs = smallLetters ds) :
    cs.length = ds.length := by
  rw [← length_smallLetters cs, h, length_smallLetters]

section

variable {p : Char → Bool}

theorem takeWhile_smallLetters (hp : ∀ c : Char, p c.toLower = p c) (cs : List Char) :
    (smallLetters cs).takeWhile p = smallLetters (cs.takeWhile p) := by
  have hcomp : p ∘ Char.toLower = p := funext hp
  rw [smallLetters, List.takeWhile_map, hcomp, smallLetters]

theorem dropWhile_smallLetters (hp : ∀ c : Char, p c.toLower = p c) (cs : List Char) :
    (smallLetters cs).dropWhile p = smallLetters (cs.dropWhile p) := by
  have hcomp : p ∘ Char.toLower = p := funext hp
  rw [smallLetters, List.dropWhile_map, hcomp, smallLetters]

theorem smallLetters_of_digits {cs : List Char} (h : ∀ c ∈ cs, isDigit c = true) :
    smallLetters cs = cs := by
  rw [smallLetters, List.map_congr_left fun c hc => (caseBlind c).fixed_digit (h c hc),
    List.map_id']

end

theorem toList_toLower (text : String) : text.toLower.toList = smallLetters text.toList :=
  String.toList_map

theorem toLower_ofList (cs : List Char) :
    (String.ofList cs).toLower = String.ofList (smallLetters cs) := by
  rw [← String.toList_inj, toList_toLower, String.toList_ofList, String.toList_ofList]

/-! ## Words -/

namespace Letters

theorem reachesCased_smallLetters (cs : List Char) :
    reachesCased (smallLetters cs) = reachesCased cs := by
  unfold reachesCased
  rw [dropWhile_smallLetters fun c => (caseBlind c).ignorable]
  cases cs.dropWhile fun c => inRanges caseIgnorableRanges c.toNat with
  | nil => rfl
  | cons c rest => exact (caseBlind c).cased

theorem smallSigma_smallLetters (before after : List Char) :
    smallSigma (smallLetters before) (smallLetters after) = smallSigma before after := by
  rw [smallSigma, reachesCased_smallLetters, reachesCased_smallLetters, smallSigma]

theorem smallAfter_smallLetters (before cs : List Char) :
    smallAfter (smallLetters before) (smallLetters cs) = smallAfter before cs := by
  induction cs generalizing before with
  | nil => rfl
  | cons c rest ih =>
    have hrest : smallAfter (c.toLower :: smallLetters before) (smallLetters rest) =
        smallAfter (c :: before) rest := ih (c :: before)
    rw [smallLetters_cons, smallAfter, hrest, smallSigma_smallLetters, (caseBlind c).small,
      smallAfter]
    simp only [(caseBlind c).sigma]

end Letters

/-- A name or a reserved word does not depend on the case of its ASCII letters. -/
theorem caseFold_toLower (text : String) : caseFold text.toLower = caseFold text := by
  rw [caseFold, toList_toLower, caseFold]
  exact congrArg String.ofList (Letters.smallAfter_smallLetters [] text.toList)

/-! ## Lexemes in small letters -/

def TokenValue.inSmallLetters : TokenValue → TokenValue
  | .text s => .text s.toLower
  | v => v

namespace Lexeme

/-- A lexeme with small letters in all that it is made of. -/
def inSmallLetters (l : Lexeme) : Lexeme :=
  ⟨l.kind, l.text.toLower, l.value.map TokenValue.inSmallLetters, l.first.toLower,
    smallLetters l.more⟩

/-- What two lexemes have in common that are the same in small letters. -/
theorem of_inSmallLetters {l l' : Lexeme} (h : l'.inSmallLetters = l.inSmallLetters) :
    l'.kind = l.kind ∧ l'.text.toLower = l.text.toLower ∧
      l'.value.map TokenValue.inSmallLetters = l.value.map TokenValue.inSmallLetters ∧
      smallLetters l'.taken = smallLetters l.taken := by
  obtain ⟨hkind, htext, hvalue, hfirst, hmore⟩ := Lexeme.mk.inj h
  refine ⟨hkind, htext, hvalue, ?_⟩
  change l'.first.toLower :: smallLetters l'.more = l.first.toLower :: smallLetters l.more
  rw [hfirst, hmore]

theorem plain_inSmallLetters (kind : TokenKind) (value : Option TokenValue) (first : Char)
    (more : List Char) : (plain kind value first more).inSmallLetters =
      plain kind (value.map TokenValue.inSmallLetters) first.toLower (smallLetters more) := by
  rw [plain, inSmallLetters, toLower_ofList, plain]
  rfl

/-! ### Comments -/

theorem commentText_smallLetters (inside : List Char) :
    commentText (smallLetters inside) = (commentText inside).toLower := by
  rw [commentText, commentText, toLower_ofList, smallLetters, smallLetters, List.map_map,
    List.map_map]
  refine congrArg String.ofList (List.map_congr_left fun c _ => ?_)
  simp only [Function.comp_apply, (caseBlind c).blank]
  split
  · rfl
  · rfl

theorem notBrace_small (c : Char) : (c.toLower != closeBrace) = (c != closeBrace) := by
  rw [Bool.eq_iff_iff, bne_iff_ne, bne_iff_ne]
  exact not_congr (toLower_eq_mark_iff c (by simp))

theorem comment_smallLetters (rest : List Char) :
    comment (smallLetters rest) = (comment rest).inSmallLetters := by
  unfold comment
  dsimp only
  rw [takeWhile_smallLetters notBrace_small, dropWhile_smallLetters notBrace_small,
    commentText_smallLetters]
  cases hrest : rest.dropWhile (· != closeBrace) with
  | nil => rfl
  | cons c after =>
    have hbrace : openBrace.toLower = openBrace := by decide
    simp [smallLetters, inSmallLetters, TokenValue.inSmallLetters, hbrace]

/-! ### Words -/

theorem word_smallLetters (c : Char) (rest : List Char) :
    word c.toLower (smallLetters rest) = (word c rest).inSmallLetters := by
  have htext : String.ofList (c.toLower :: smallLetters (rest.takeWhile isWordChar)) =
      (String.ofList (c :: rest.takeWhile isWordChar)).toLower :=
    (toLower_ofList (c :: rest.takeWhile isWordChar)).symm
  rw [word, word, plain_inSmallLetters, takeWhile_smallLetters fun c => (caseBlind c).wordChar,
    htext, TokenKind.reservedWord?, caseFold_toLower]
  rfl

/-! ### Numbers -/

namespace Numeral

/-- A number with a small letter in front of its exponent. -/
def inSmallLetters (n : Numeral) : Numeral :=
  { n with exponent := n.exponent.map fun (e, s, digits) => (e.toLower, s, digits) }

theorem value_inSmallLetters (n : Numeral) : n.inSmallLetters.value = n.value := by
  obtain ⟨whole, _ | fraction, _ | ⟨e, s, _ | ⟨d, digits⟩⟩⟩ := n <;> rfl

theorem smallLetters_sign {s : List Char} (h : s = [] ∨ s = ['+'] ∨ s = ['-']) :
    smallLetters s = s := by
  rcases h with rfl | rfl | rfl <;> decide

theorem chars_inSmallLetters {n : Numeral} (h : n.WellFormed) :
    n.inSmallLetters.chars = smallLetters n.chars := by
  have hfraction : smallLetters (fractionChars n.fraction) = fractionChars n.fraction := by
    cases hf : n.fraction with
    | none => rfl
    | some digits => exact congrArg ('.' :: ·) (smallLetters_of_digits (h.fraction digits hf).2)
  have hexponent : smallLetters (exponentChars n.exponent) =
      exponentChars n.inSmallLetters.exponent := by
    cases he : n.exponent with
    | none => simp [inSmallLetters, he, exponentChars, smallLetters]
    | some parts =>
      obtain ⟨e, s, digits⟩ := parts
      obtain ⟨-, hs, hdigits⟩ := h.exponent e s digits he
      have hsign := smallLetters_sign hs
      have hdigits := smallLetters_of_digits hdigits
      simp [inSmallLetters, he, exponentChars, smallLetters_append, hsign, hdigits]
  rw [chars, chars, smallLetters_append, smallLetters_append, smallLetters_of_digits h.whole,
    hfraction, hexponent]
  rfl

theorem takeDigits_smallLetters (cs : List Char) :
    (smallLetters cs).takeWhile isDigit = cs.takeWhile isDigit := by
  rw [takeWhile_smallLetters fun c => (caseBlind c).digit]
  exact smallLetters_of_digits fun d hd => List.mem_takeWhile_imp hd

theorem fraction?_smallLetters (cs : List Char) : fraction? (smallLetters cs) = fraction? cs := by
  rcases cs with _ | ⟨c, _ | ⟨d, more⟩⟩
  · rfl
  · simp [fraction?]
  · by_cases hc : c = '.'
    · subst hc
      have hmore := takeDigits_smallLetters more
      cases hd : isDigit d with
      | true =>
        have hfixed := (caseBlind d).fixed_digit hd
        simp [fraction?, hd, hfixed, ← hmore]
      | false =>
        have hsmall := (caseBlind d).digit.trans hd
        simp [fraction?, hd, hsmall]
    · have hsmall : c.toLower ≠ '.' := fun h => hc ((toLower_eq_mark_iff c (by simp)).mp h)
      simp [fraction?, hc, hsmall]

theorem sign_smallLetters (cs : List Char) : sign (smallLetters cs) = sign cs := by
  cases cs with
  | nil => rfl
  | cons c more =>
    have hplus : c.toLower = '+' ↔ c = '+' := toLower_eq_mark_iff c (by simp)
    have hminus : c.toLower = '-' ↔ c = '-' := toLower_eq_mark_iff c (by simp)
    simp only [smallLetters_cons, sign, hplus, hminus]
    split
    · rename_i hc
      rcases hc with rfl | rfl <;> rfl
    · rfl

theorem exponent?_smallLetters (cs : List Char) : exponent? (smallLetters cs) =
    (exponent? cs).map fun (e, s, digits) => (e.toLower, s, digits) := by
  cases cs with
  | nil => rfl
  | cons e more =>
    simp only [smallLetters_cons, exponent?, (caseBlind e).exponent, sign_smallLetters,
      drop_smallLetters, takeDigits_smallLetters]
    split
    · rfl
    · rfl

theorem read_smallLetters (cs : List Char) : read (smallLetters cs) = (read cs).inSmallLetters := by
  simp only [read, takeDigits_smallLetters, dropWhile_smallLetters fun c => (caseBlind c).digit,
    fraction?_smallLetters, drop_smallLetters, exponent?_smallLetters, inSmallLetters]

end Numeral

/-- The value of a number has no letters. -/
theorem Numeral.inSmallLetters_of_value (n : Numeral) : n.value.inSmallLetters = n.value := by
  unfold Numeral.value
  split
  · split
    · rfl
    · rfl
  · rfl
  · split
    · rfl
    · rfl

theorem number_smallLetters (c : Char) (rest : List Char) :
    number c.toLower (smallLetters rest) = (number c rest).inSmallLetters := by
  have hread : Numeral.read (c.toLower :: smallLetters rest) =
      (Numeral.read (c :: rest)).inSmallLetters := Numeral.read_smallLetters (c :: rest)
  rw [number, number, plain_inSmallLetters, Option.map_some, Numeral.inSmallLetters_of_value,
    hread, Numeral.value_inSmallLetters,
    Numeral.chars_inSmallLetters (Numeral.read_spec (c :: rest)).1, drop_smallLetters]

/-! ### Strings -/

theorem toLower_eq_quoteMark_iff (c : Char) : c.toLower = quoteMark ↔ c = quoteMark :=
  toLower_eq_mark_iff c (by simp)

theorem quoted?_smallLetters (cs : List Char) :
    quoted? (smallLetters cs) = (quoted? cs).map (Prod.map smallLetters smallLetters) := by
  have hmark : quoteMark.toLower = quoteMark := by decide
  induction cs using quoted?.induct with
  | case1 => rfl
  | case2 tail ih =>
    change quoted? (quoteMark :: quoteMark :: smallLetters tail) = _
    simp only [quoted?, if_true, ih]
    cases quoted? tail <;> rfl
  | case3 d tail hd =>
    have hsmall : d.toLower ≠ quoteMark := fun h => hd ((toLower_eq_quoteMark_iff d).mp h)
    change quoted? (quoteMark :: d.toLower :: smallLetters tail) = _
    simp only [quoted?, if_true, if_neg hd, if_neg hsmall]
    rfl
  | case4 => rfl
  | case5 c tail hc ih =>
    have hsmall : c.toLower ≠ quoteMark := fun h => hc ((toLower_eq_quoteMark_iff c).mp h)
    change quoted? (c.toLower :: smallLetters tail) = _
    rw [quoted?_other hsmall, quoted?_other hc, ih]
    cases quoted? tail <;> rfl

theorem quotedString_smallLetters (rest : List Char) :
    quotedString (smallLetters rest) = (quotedString rest).inSmallLetters := by
  have hmark : quoteMark.toLower = quoteMark := by decide
  unfold quotedString
  rw [quoted?_smallLetters]
  cases quoted? rest with
  | none =>
    dsimp only [Option.map_none]
    rw [faulty, faulty, plain_inSmallLetters, hmark]
    rfl
  | some parts =>
    obtain ⟨s, after⟩ := parts
    dsimp only [Option.map_some, Prod.map]
    rw [plain_inSmallLetters, hmark, length_smallLetters, length_smallLetters, take_smallLetters,
      ← toLower_ofList]
    rfl

/-! ### Symbols -/

/-- No special symbol has a letter. -/
theorem isLetter_of_spelling {k : TokenKind} (hk : k.isSpecialSymbol = true) {cs : List Char}
    (hspelling : k.spelling = some (String.ofList cs)) : ∀ c ∈ cs, isLetter c = false := by
  have hall : ∀ k ∈ TokenKind.all, k.isSpecialSymbol = true →
      ∀ text ∈ k.spelling, text.toList.all (!isLetter ·) = true := by
    decide +kernel
  have h := hall k (TokenKind.mem_all k) hk _ hspelling
  rw [String.toList_ofList, List.all_eq_true] at h
  intro c hc
  simpa using h c hc

theorem specialSymbol?_of_letter {cs : List Char} {c : Char} (hc : c ∈ cs)
    (hletter : isLetter c = true) : TokenKind.specialSymbol? (String.ofList cs) = none := by
  cases hk : TokenKind.specialSymbol? (String.ofList cs) with
  | none => rfl
  | some k =>
    obtain ⟨hsymbol, hspelling⟩ := TokenKind.specialSymbol?_eq_some hk
    rw [isLetter_of_spelling hsymbol hspelling c hc] at hletter
    cases hletter

theorem symbol_smallLetters {c : Char} (hc : isLetter c = false) (rest : List Char) :
    symbol c.toLower (smallLetters rest) = (symbol c rest).inSmallLetters := by
  have hfirst := (caseBlind c).fixed hc
  have hsingle : (symbol c []).inSmallLetters = symbol c [] := by
    simp only [symbol, Option.getD_none]
    split
    · rw [plain_inSmallLetters, hfirst]
      rfl
    · rw [faulty, plain_inSmallLetters, hfirst]
      rfl
  rw [hfirst]
  cases rest with
  | nil => exact hsingle.symm
  | cons d after =>
    change symbol c (d.toLower :: smallLetters after) = _
    cases hd : isLetter d with
    | true =>
      -- behind a letter the symbol stands alone
      have hnone : NoPair c (d :: after) := by
        rintro x ⟨⟩
        exact specialSymbol?_of_letter (by simp) hd
      have hsmall : NoPair c (d.toLower :: smallLetters after) := by
        rintro x ⟨⟩
        exact specialSymbol?_of_letter (c := d.toLower) (by simp) ((caseBlind d).letter.trans hd)
      rw [symbol_single hnone, symbol_single hsmall, hsingle]
    | false =>
      have hfixed := (caseBlind d).fixed hd
      rw [hfixed]
      cases hk : TokenKind.specialSymbol? (String.ofList [c, d]) with
      | some k =>
        rw [symbol_pair hk, symbol_pair hk, plain_inSmallLetters, hfirst]
        simp [hfixed]
      | none =>
        have hpair (more : List Char) : NoPair c (d :: more) := by
          rintro x ⟨⟩
          exact hk
        rw [symbol_single (hpair _), symbol_single (hpair _), hsingle]

/-! ### All lexemes -/

/-- The lexemes of a text in small letters are its lexemes in small letters. -/
theorem scan_smallLetters (c : Char) (rest : List Char) :
    scan c.toLower (smallLetters rest) = (scan c rest).inSmallLetters := by
  have hbrace : c.toLower = openBrace ↔ c = openBrace := toLower_eq_mark_iff c (by simp)
  simp only [scan, hbrace, (caseBlind c).letter, (caseBlind c).digit, toLower_eq_quoteMark_iff]
  split
  · exact comment_smallLetters rest
  · split
    · exact word_smallLetters c rest
    · split
      · exact number_smallLetters c rest
      · split
        · exact quotedString_smallLetters rest
        · rename_i hletter _ _
          exact symbol_smallLetters (Bool.eq_false_iff.mpr hletter) rest

/-- Only strings and comments have a text as their value. -/
theorem kind_of_text_value {c : Char} {rest : List Char} {s : String}
    (hvalue : (scan c rest).value = some (.text s)) :
    (scan c rest).kind = .string ∨ (scan c rest).kind = .comment := by
  have h := readBy_scan c
  generalize scan c = scanner at h hvalue ⊢
  cases h with
  | comment =>
    rcases unclosed_or_closed rest with h | ⟨inside, after, rfl, h⟩
    · rw [comment_unclosed h] at hvalue
      cases hvalue
    · rw [comment_closed h]
      exact .inr rfl
  | word => cases hvalue
  | number =>
    have hnumber : (Numeral.read (c :: rest)).value = .text s := Option.some.inj hvalue
    unfold Numeral.value at hnumber
    split at hnumber
    · split at hnumber <;> cases hnumber
    · cases hnumber
    · split at hnumber <;> cases hnumber
  | string =>
    rcases unquoted_or_quoted rest with h | ⟨s, after, rfl, hafter⟩
    · rw [quotedString_unclosed h] at hvalue
      cases hvalue
    · rw [quotedString_closed s hafter]
      exact .inl rfl
  | symbol =>
    have hform := symbol_form c rest
    generalize symbol c rest = l at hform hvalue ⊢
    cases hform <;> cases hvalue

end Lexeme

/-! ## Tokens -/

/-- Two tokens that are the same but for the letter case of their texts. -/
structure Token.Recased (t t' : Token) : Prop where
  text : t.text.toLower = t'.text.toLower
  rest : t' = { t with text := t'.text }

theorem Token.Recased.refl (t : Token) : t.Recased t := ⟨rfl, rfl⟩

/-- A token of which each character counts as it is: a string or a comment, or one of them without
its end. -/
def Token.isVerbatim (t : Token) : Bool :=
  t.kind == .string || t.kind == .comment || t.value == some (.fault .unexpectedEnd)

namespace Scanner

open Lexeme

variable {m : Mark} {cs ds blanks blanks' after after' : List Char} {l l' : Lexeme}

theorem after_smallLetters (m : Mark) (cs : List Char) :
    m.after (smallLetters cs) = m.after cs := by
  induction cs generalizing m with
  | nil => rfl
  | cons c cs ih =>
    have hfeed : c.toLower = '\n' ↔ c = '\n' := toLower_eq_mark_iff c (by simp)
    have hstep : m.step c.toLower = m.step c := by
      simp only [Mark.step, (caseBlind c).size, Position.after, hfeed]
    calc m.after (smallLetters (c :: cs))
      _ = (m.step c.toLower).after (smallLetters cs) := rfl
      _ = (m.step c).after cs := by rw [hstep, ih]

theorem after_eq_of_smallLetters (m : Mark) (h : smallLetters cs = smallLetters ds) :
    m.after cs = m.after ds := by
  rw [← after_smallLetters, h, after_smallLetters]

theorem blank_of_smallLetters (h : smallLetters cs = smallLetters ds)
    (hcs : ∀ c ∈ cs, isBlank c = true) : ∀ d ∈ ds, isBlank d = true := by
  intro d hd
  have hmem : d.toLower ∈ smallLetters cs := h ▸ List.mem_map_of_mem hd
  obtain ⟨c, hc, hsmall⟩ := List.mem_map.mp hmem
  rw [← (caseBlind d).blank, ← hsmall, (caseBlind c).blank]
  exact hcs c hc

/-- A text with the same letters begins with a lexeme with the same letters. -/
theorem exists_reads (h : Reads blanks l after)
    (hds : smallLetters ds = smallLetters (blanks ++ (l.taken ++ after))) :
    ∃ blanks' l' after', ds = blanks' ++ (l'.taken ++ after') ∧ Reads blanks' l' after' ∧
      smallLetters blanks' = smallLetters blanks ∧ l'.inSmallLetters = l.inSmallLetters ∧
      smallLetters after' = smallLetters after := by
  rw [smallLetters_append, smallLetters_append, Lexeme.taken, smallLetters_cons] at hds
  obtain ⟨blanks', ds, rfl, hblanks, hds⟩ := List.map_eq_append_iff.mp hds
  obtain ⟨taken', after', rfl, htaken, hafter⟩ := List.map_eq_append_iff.mp hds
  obtain ⟨c, more', rfl, hc, hmore⟩ := List.map_eq_cons_iff.mp htaken
  have hsmall : (scan c (more' ++ after')).inSmallLetters = l.inSmallLetters := by
    have hrest : smallLetters (more' ++ after') = smallLetters (l.more ++ after) := by
      rw [smallLetters_append, smallLetters_append]
      exact congrArg₂ (· ++ ·) hmore hafter
    rw [← scan_smallLetters, hc, hrest, scan_smallLetters, h.scanned]
  have hlength : (scan c (more' ++ after')).more.length = more'.length :=
    length_eq_of_smallLetters ((congrArg Lexeme.more hsmall).trans hmore.symm)
  obtain ⟨rest, hsplit, -⟩ := (scan_longest c).splits (more' ++ after')
  have hmore' : (scan c (more' ++ after')).more = more' :=
    (List.append_inj hsplit hlength.symm).1.symm
  have hfirst := first_scan c (more' ++ after')
  refine ⟨blanks', scan c (more' ++ after'), after', ?_, ⟨?_, ?_, ?_⟩, hblanks, hsmall, hafter⟩
  · rw [Lexeme.taken, hfirst, hmore']
  · exact blank_of_smallLetters hblanks.symm h.blanks
  · rw [hfirst, ← (caseBlind c).blank, hc, (caseBlind l.first).blank]
    exact h.visible
  · rw [hfirst, hmore']

/-- A lexeme by itself is the lexeme that it is in a text. -/
theorem Reads.alone (h : Reads blanks l after) : scan l.first l.more = l := by
  have := (scan_longest l.first).scanned h.scanned l.ends_nil
  rwa [List.append_nil] at this

theorem value_eq_of_smallLetters (h : Reads blanks l after) (h' : Reads blanks' l' after')
    (hsmall : l'.inSmallLetters = l.inSmallLetters)
    (hkind : l.kind ≠ .string ∧ l.kind ≠ .comment) : l'.value = l.value := by
  have hnone {k : Lexeme} (hk : scan k.first k.more = k)
      (hkind : k.kind ≠ .string ∧ k.kind ≠ .comment) :
      k.value.map TokenValue.inSmallLetters = k.value := by
    rcases hv : k.value with _ | v
    · rfl
    · cases v with
      | text s =>
        rw [← hk] at hv hkind
        rcases kind_of_text_value hv with heq | heq
        · exact absurd heq hkind.1
        · exact absurd heq hkind.2
      | _ => rfl
  obtain ⟨hkind', -, hvalue, -⟩ := of_inSmallLetters hsmall
  rw [← hnone h.alone hkind, ← hnone h'.alone (hkind'.symm ▸ hkind)]
  exact hvalue

theorem recased_placed (m : Mark) (h : Reads blanks l after) (h' : Reads blanks' l' after')
    (hsmall : l'.inSmallLetters = l.inSmallLetters)
    (hverbatim : (l.placed m).isVerbatim = true → l'.taken = l.taken) :
    (l.placed m).Recased (l'.placed m) := by
  cases hv : (l.placed m).isVerbatim with
  | true =>
    obtain ⟨hfirst, hmore⟩ := List.cons.inj (hverbatim hv)
    have heq : l' = l := by rw [← h.alone, ← h'.alone, hfirst, hmore]
    exact heq ▸ Token.Recased.refl _
  | false =>
    have hkind : l.kind ≠ .string ∧ l.kind ≠ .comment := by
      simp only [Token.isVerbatim, placed, Bool.or_eq_false_iff, beq_eq_false_iff_ne] at hv
      exact hv.1
    obtain ⟨hkind', htext, -, htaken⟩ := of_inSmallLetters hsmall
    refine ⟨htext.symm, ?_⟩
    simp only [placed, hkind', value_eq_of_smallLetters h h' hsmall hkind,
      after_eq_of_smallLetters m htaken]

/-- A second text has the strings and the comments of a first one as they are. -/
def KeepsVerbatim (m : Mark) (cs ds : List Char) : Prop :=
  ∀ t ∈ tokens ⟨m, cs⟩, t.isVerbatim = true → ∀ before l after, Stands m cs t before l after →
    (ds.drop before.length).take l.taken.length = l.taken

theorem KeepsVerbatim.rest (h : Reads blanks l after)
    (hlength : ds.length = (blanks ++ l.taken).length)
    (hkeeps : KeepsVerbatim m (blanks ++ (l.taken ++ after)) (ds ++ after')) :
    KeepsVerbatim (m.after (blanks ++ l.taken)) after after' := by
  intro t ht hv before k rest hs
  have hmem : t ∈ tokens ⟨m, blanks ++ (l.taken ++ after)⟩ := by
    rw [tokens_reads m h]
    exact List.mem_cons_of_mem _ ht
  have hstands :
      Stands m (blanks ++ (l.taken ++ after)) t (blanks ++ l.taken ++ before) k rest := by
    refine ⟨?_, ?_, hs.visible, hs.scanned⟩
    · rw [hs.text]
      simp
    · rw [hs.token, ← Mark.after_append]
  have hpart := hkeeps t hmem hv _ _ _ hstands
  rwa [List.length_append, ← hlength, List.drop_length_add_append] at hpart

/-- Two texts that are the same but for letter case, and the same in their strings and comments,
have tokens that are the same but for the letter case of their texts. -/
theorem tokens_recased (hds : smallLetters ds = smallLetters cs) (hkeeps : KeepsVerbatim m cs ds) :
    List.Forall₂ Token.Recased (tokens ⟨m, cs⟩) (tokens ⟨m, ds⟩) := by
  induction cs using text_induction generalizing m ds with
  | blank cs h =>
    rw [tokens_blank m h, tokens_blank m (blank_of_smallLetters hds.symm h),
      after_eq_of_smallLetters m hds]
    exact .cons (.refl _) .nil
  | lexeme blanks l after h ih =>
    obtain ⟨blanks', l', after', rfl, h', hblanks, hsmall, hafter⟩ := exists_reads h hds
    obtain ⟨-, -, -, htaken⟩ := of_inSmallLetters hsmall
    have hpast : smallLetters (blanks' ++ l'.taken) = smallLetters (blanks ++ l.taken) := by
      rw [smallLetters_append, smallLetters_append, hblanks, htaken]
    have hmarks := after_eq_of_smallLetters m hblanks
    have hmarks' := after_eq_of_smallLetters m hpast
    rw [tokens_reads m h, tokens_reads m h', hmarks, hmarks']
    refine .cons (recased_placed _ h h' hsmall fun hv => ?_) (ih hafter ?_)
    · have hmem : l.placed (m.after blanks) ∈ tokens ⟨m, blanks ++ (l.taken ++ after)⟩ := by
        rw [tokens_reads m h]
        exact List.mem_cons_self
      have hpart := hkeeps _ hmem hv blanks l after ⟨rfl, rfl, h.visible, h.scanned⟩
      rwa [← length_eq_of_smallLetters hblanks, List.drop_left,
        ← length_eq_of_smallLetters htaken, List.take_left] at hpart
    · rw [← List.append_assoc blanks'] at hkeeps
      exact .rest h (length_eq_of_smallLetters hpast) hkeeps

end Scanner

end PascalFront
