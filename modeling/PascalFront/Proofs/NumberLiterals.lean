-- Numbers as they are written: digits, a fraction and an exponent, each as long
-- as the text lets it be. What a number stands for follows from these parts, and
-- the next token begins right behind them.
import PascalFront.Proofs.Blanks
import PascalFront.Proofs.RealText
import Mathlib.Data.Nat.Digits.Defs

namespace PascalFront

open Lexeme
open String (utf8Len)

/-! ## The written form -/

/-- What a row of digits is worth in base ten. -/
def digitsValue (digits : List Char) : Nat := Nat.ofDigits 10 (digits.reverse.map digitValue)

theorem numberOf_eq_digitsValue (digits : List Char) : numberOf digits = digitsValue digits := by
  induction digits using List.reverseRecOn with
  | nil => rfl
  | append_singleton digits d ih =>
    have hlast : numberOf (digits ++ [d]) = 10 * numberOf digits + digitValue d := List.foldl_append
    rw [hlast, ih]
    simp [digitsValue, Nat.ofDigits_cons, Nat.add_comm]

namespace Lexeme.Numeral

/-- A point belongs to a number when a digit follows, with all the digits from there on. -/
inductive FractionAt : List Char → Option (List Char) → List Char → Prop
  | present {ds rest : List Char} : ds ≠ [] → AllDigits ds → StopsRun isDigit rest →
      FractionAt ('.' :: (ds ++ rest)) (some ds) rest
  | absent {cs : List Char} : (∀ d rest, cs = '.' :: d :: rest → isDigit d = false) →
      FractionAt cs none cs

inductive SignAt : List Char → List Char → List Char → Prop
  | present {c : Char} {rest : List Char} : c = '+' ∨ c = '-' → SignAt (c :: rest) [c] rest
  | absent {cs : List Char} : (∀ c ∈ cs.head?, c ≠ '+' ∧ c ≠ '-') → SignAt cs [] cs

/-- The letter of an exponent belongs to a number, with the sign and all the digits behind it, also
when there are none. -/
inductive ExponentAt : List Char → Option (Char × List Char × List Char) → List Char → Prop
  | present {e : Char} {cs s ds rest : List Char} : e = 'e' ∨ e = 'E' → SignAt cs s (ds ++ rest) →
      AllDigits ds → StopsRun isDigit rest → ExponentAt (e :: cs) (some (e, s, ds)) rest
  | absent {cs : List Char} : (∀ c ∈ cs.head?, c ≠ 'e' ∧ c ≠ 'E') → ExponentAt cs none cs

/-- A number at the start of a text, and the text behind it. -/
inductive NumberAt : List Char → Numeral → List Char → Prop
  | parts {whole behind rest after : List Char} {fraction : Option (List Char)}
      {exponent : Option (Char × List Char × List Char)} :
      whole ≠ [] → AllDigits whole → StopsRun isDigit behind →
      FractionAt behind fraction rest → ExponentAt rest exponent after →
      NumberAt (whole ++ behind) ⟨whole, fraction, exponent⟩ after

/-- What a number stands for: the kind of its token and the value. -/
inductive ReadsAs (n : Numeral) : TokenKind → TokenValue → Prop
  | invalid {e : Char} {s : List Char} : n.exponent = some (e, s, []) →
      ReadsAs n .error (.fault .invalidNumber)
  | integer : n.fraction = none → n.exponent = none → digitsValue n.whole ≤ 2 ^ 63 - 1 →
      ReadsAs n .integer (.integer (digitsValue n.whole))
  | integerRange : n.fraction = none → n.exponent = none → 2 ^ 63 - 1 < digitsValue n.whole →
      ReadsAs n .error (.fault .integerRange)
  | real {x : Binary64} : n.IsReal → (∀ e s ds, n.exponent = some (e, s, ds) → ds ≠ []) →
      Binary64.read? (String.ofList n.chars) = some x → x.isFinite = true →
      ReadsAs n .real (.real x)
  | realRange {x : Binary64} : n.IsReal → (∀ e s ds, n.exponent = some (e, s, ds) → ds ≠ []) →
      Binary64.read? (String.ofList n.chars) = some x → x.isFinite = false →
      ReadsAs n .error (.fault .realRange)

/-! ## The parts -/

section

variable {cs s ds rest after : List Char} {n : Numeral}

theorem FractionAt.eq {fraction : Option (List Char)} (h : FractionAt cs fraction rest) :
    fraction? cs = fraction ∧ cs = fractionChars fraction ++ rest := by
  cases h with
  | present hne hall hstop => exact ⟨fraction?_digits hne hall hstop, rfl⟩
  | absent hnone =>
    refine ⟨?_, rfl⟩
    unfold fraction?
    split
    · rename_i d more
      rw [hnone d more rfl]
      rfl
    · rfl

theorem exists_fractionAt (cs : List Char) : ∃ rest, FractionAt cs (fraction? cs) rest := by
  cases hf : fraction? cs with
  | some ds =>
    obtain ⟨hne, hall, rest, rfl, hstop⟩ := fraction?_eq_some hf
    exact ⟨rest, .present hne hall hstop⟩
  | none =>
    refine ⟨cs, .absent ?_⟩
    rintro d more rfl
    simpa [fraction?] using hf

theorem SignAt.eq (h : SignAt cs s rest) : sign cs = s ∧ cs = s ++ rest := by
  cases h with
  | present hc => exact ⟨by simp [sign, hc], rfl⟩
  | absent hnone =>
    refine ⟨?_, rfl⟩
    cases cs with
    | nil => rfl
    | cons c cs =>
      obtain ⟨hplus, hminus⟩ := hnone c rfl
      simp [sign, hplus, hminus]

theorem exists_signAt (cs : List Char) : ∃ rest, SignAt cs (sign cs) rest := by
  cases cs with
  | nil => exact ⟨[], .absent nofun⟩
  | cons c cs =>
    by_cases hc : c = '+' ∨ c = '-'
    · refine ⟨cs, ?_⟩
      rw [sign, if_pos hc]
      exact .present hc
    · refine ⟨c :: cs, ?_⟩
      rw [sign, if_neg hc]
      refine .absent ?_
      rintro d ⟨⟩
      exact not_or.mp hc

theorem ExponentAt.eq {exponent : Option (Char × List Char × List Char)}
    (h : ExponentAt cs exponent rest) :
    exponent? cs = exponent ∧ cs = exponentChars exponent ++ rest := by
  cases h with
  | present he hsign hall hstop =>
    obtain ⟨hs, rfl⟩ := hsign.eq
    refine ⟨?_, by simp [exponentChars]⟩
    simp [exponent?, he, hs, takeWhile_of_run hall hstop]
  | absent hnone =>
    refine ⟨?_, rfl⟩
    cases cs with
    | nil => rfl
    | cons c cs =>
      obtain ⟨hsmall, hlarge⟩ := hnone c rfl
      simp [exponent?, hsmall, hlarge]

theorem exists_exponentAt (cs : List Char) : ∃ rest, ExponentAt cs (exponent? cs) rest := by
  cases cs with
  | nil => exact ⟨[], .absent nofun⟩
  | cons c cs =>
    by_cases hc : c = 'e' ∨ c = 'E'
    · obtain ⟨behind, hsign⟩ := exists_signAt cs
      have hdrop := drop_of_eq_append hsign.eq.2
      have hsplit : behind.takeWhile isDigit ++ behind.dropWhile isDigit = behind :=
        List.takeWhile_append_dropWhile
      refine ⟨behind.dropWhile isDigit, ?_⟩
      simp only [exponent?, hc, if_true, hdrop]
      refine .present hc ?_ (fun d hd => List.mem_takeWhile_imp hd) (stopsRun_dropWhile _ _)
      rw [hsplit]
      exact hsign
    · refine ⟨c :: cs, ?_⟩
      rw [exponent?, if_neg hc]
      refine .absent ?_
      rintro d ⟨⟩
      exact not_or.mp hc

/-- A text begins with one number at most, the one that is read. -/
theorem NumberAt.eq (h : NumberAt cs n after) : n = read cs ∧ cs = n.chars ++ after := by
  cases h with
  | parts hne hall hstop hfraction hexponent =>
    obtain ⟨hf, rfl⟩ := hfraction.eq
    obtain ⟨he, rfl⟩ := hexponent.eq
    refine ⟨?_, by simp [chars]⟩
    rw [read, takeWhile_of_run hall hstop, dropWhile_of_run hall hstop, hf, List.drop_left, he]

theorem exists_numberAt {c : Char} (hc : isDigit c = true) (rest : List Char) :
    ∃ after, NumberAt (c :: rest) (read (c :: rest)) after := by
  obtain ⟨behind, hfraction⟩ := exists_fractionAt (rest.dropWhile isDigit)
  obtain ⟨after, hexponent⟩ := exists_exponentAt behind
  have hdrop := drop_of_eq_append hfraction.eq.2
  have hread : read (c :: rest) =
      ⟨c :: rest.takeWhile isDigit, fraction? (rest.dropWhile isDigit), exponent? behind⟩ := by
    simp [read, hc, hdrop]
  have hall : AllDigits (c :: rest.takeWhile isDigit) :=
    List.forall_mem_cons.mpr ⟨hc, fun d hd => List.mem_takeWhile_imp hd⟩
  have hnumber :=
    NumberAt.parts (by simp) hall (stopsRun_dropWhile isDigit rest) hfraction hexponent
  rw [List.cons_append, List.takeWhile_append_dropWhile] at hnumber
  rw [hread]
  exact ⟨after, hnumber⟩

theorem NumberAt.unique {n' : Numeral} {after' : List Char} (h : NumberAt cs n after)
    (h' : NumberAt cs n' after') : n' = n ∧ after' = after := by
  obtain ⟨rfl, hsplit⟩ := h.eq
  obtain ⟨rfl, hsplit'⟩ := h'.eq
  exact ⟨rfl, List.append_cancel_left (hsplit'.symm.trans hsplit)⟩

/-! ## The value -/

theorem NumberAt.legible (h : NumberAt cs n after)
    (hexponent : ∀ e s ds, n.exponent = some (e, s, ds) → ds ≠ []) : n.Legible := by
  have hdigits : n.whole ≠ [] := by
    cases h with
    | parts hne => exact hne
  exact ⟨h.eq.1 ▸ (read_spec cs).1, hdigits, hexponent⟩

theorem value_invalid {e : Char} (h : n.exponent = some (e, s, [])) :
    n.value = .fault .invalidNumber := by
  cases hf : n.fraction <;> simp [value, hf, h]

theorem value_integer (hfraction : n.fraction = none) (hexponent : n.exponent = none) :
    n.value = if digitsValue n.whole ≤ 2 ^ 63 - 1 then .integer (digitsValue n.whole)
      else .fault .integerRange := by
  simp only [value, hfraction, hexponent, numberOf_eq_digitsValue]
  rfl

theorem value_real (hreal : n.IsReal)
    (hexponent : ∀ e s ds, n.exponent = some (e, s, ds) → ds ≠ []) :
    n.value = if (Binary64.nearest false n.decimal).isFinite then
      .real (.nearest false n.decimal) else .fault .realRange := by
  have hnearest : n.realValue = .nearest false n.decimal := rfl
  rw [← hnearest, value]
  split
  · rename_i hf he
    exact absurd hreal (by simp [IsReal, hf, he])
  · rename_i e s he
    exact absurd rfl (hexponent e s [] he)
  · rfl

/-- What a number stands for is what it is read as. -/
theorem ReadsAs.eq {kind : TokenKind} {v : TokenValue} (hn : NumberAt cs n after)
    (h : ReadsAs n kind v) : n.value = v ∧ numberKind n.value = kind := by
  suffices hvalue : n.value = v by
    refine ⟨hvalue, ?_⟩
    rw [hvalue]
    cases h <;> rfl
  cases h with
  | invalid he => exact value_invalid he
  | integer hf he hle => rw [value_integer hf he, if_pos hle]
  | integerRange hf he hlt => rw [value_integer hf he, if_neg (Nat.not_le.mpr hlt)]
  | real hreal hdigits hread hfinite =>
    have hx := (read?_chars (hn.legible hdigits) false).symm.trans hread
    rw [value_real hreal hdigits, Option.some.inj hx, if_pos hfinite]
  | realRange hreal hdigits hread hinfinite =>
    have hx := (read?_chars (hn.legible hdigits) false).symm.trans hread
    rw [value_real hreal hdigits, Option.some.inj hx, hinfinite]
    rfl

/-- Every number stands for something. -/
theorem exists_readsAs (hn : NumberAt cs n after) : ∃ kind v, ReadsAs n kind v := by
  by_cases hdigits : ∀ e s ds, n.exponent = some (e, s, ds) → ds ≠ []
  · by_cases hreal : n.IsReal
    · have hread := read?_chars (hn.legible hdigits) false
      cases hfinite : (Binary64.nearest false n.decimal).isFinite with
      | true => exact ⟨_, _, .real hreal hdigits hread hfinite⟩
      | false => exact ⟨_, _, .realRange hreal hdigits hread hfinite⟩
    · obtain ⟨hf, he⟩ : n.fraction = none ∧ n.exponent = none := by
        simpa [IsReal, not_or] using hreal
      rcases Nat.lt_or_ge (2 ^ 63 - 1) (digitsValue n.whole) with hlt | hle
      · exact ⟨_, _, .integerRange hf he hlt⟩
      · exact ⟨_, _, .integer hf he hle⟩
  · push Not at hdigits
    obtain ⟨e, s, ds, he, rfl⟩ := hdigits
    exact ⟨_, _, .invalid he⟩

end

end Numeral

/-! ## Reading -/

theorem isLetter_of_isDigit {c : Char} (hc : isDigit c = true) : isLetter c = false := by
  have hrange : 48 ≤ c.toNat ∧ c.toNat ≤ 57 := by
    simpa [isDigit, Char.le_def, UInt32.le_iff_toNat_le] using hc
  have h := isLetter_digit c.toNat (by omega) (by omega)
  rwa [Char.ofNat_toNat] at h

theorem scan_digit {c : Char} (hc : isDigit c = true) : scan c = number c := by
  have h := readBy_scan c
  generalize scan c = scanner at h ⊢
  cases h with
  | comment => cases hc
  | word _ hletter => rw [isLetter_of_isDigit hc] at hletter; cases hletter
  | number => rfl
  | string => cases hc
  | symbol _ _ hdigit => rw [hc] at hdigit; cases hdigit

/-- Nothing makes a symbol of two characters with a point. -/
theorem noPair_point (after : List Char) : NoPair '.' after := by
  have hall : ∀ k ∈ TokenKind.specialSymbols, ∀ s ∈ k.spelling,
      s.toList.head? = some '.' → s.toList.length = 1 := by
    decide +kernel
  intro d _
  refine List.find?_eq_none.mpr fun k hk hspelling => ?_
  have hlength := hall k hk _ (beq_iff_eq.mp hspelling)
  simp at hlength

theorem scan_point (rest : List Char) : scan '.' rest = plain .dot none '.' [] := by
  have hsymbol : scan '.' = symbol '.' := by
    have h := readBy_scan '.'
    generalize scan '.' = scanner at h ⊢
    cases h with
    | word _ hletter => exact absurd hletter (by decide +kernel)
    | number _ _ hdigit => exact absurd hdigit (by decide)
    | symbol => rfl
  rw [hsymbol, symbol_single (noPair_point rest)]
  decide +kernel

end Lexeme

/-- The token of a number that begins at a mark. -/
def Token.numberAt (m : Mark) (n : Lexeme.Numeral) (kind : TokenKind) (value : TokenValue) :
    Token :=
  ⟨kind, String.ofList n.chars, some value, .between m.offset (m.offset + utf8Len n.chars),
    m.position⟩

/-- The token of a point at a mark. -/
def Token.pointAt (m : Mark) : Token :=
  ⟨.dot, ".", none, .between m.offset (m.offset + 1), m.position⟩

namespace Scanner

open Lexeme

variable {n : Numeral} {after rest : List Char} {c : Char}

/-- A number is read as the token of what it stands for, and the next token begins behind it. -/
theorem tokens_numberAt (m : Mark) (hc : isDigit c = true)
    (h : Numeral.NumberAt (c :: rest) n after) {kind : TokenKind} {value : TokenValue}
    (hread : n.ReadsAs kind value) :
    tokens ⟨m, c :: rest⟩ = .numberAt m n kind value :: tokens ⟨m.after n.chars, after⟩ := by
  obtain ⟨rfl, hsplit⟩ := h.eq
  obtain ⟨rfl, rfl⟩ := hread.eq h
  have htaken := taken_number hc rest
  have hmore : rest = (number c rest).more ++ after := by
    rw [← htaken] at hsplit
    exact (List.cons.inj hsplit).2
  have hreads : Reads [] (number c rest) after := by
    refine ⟨List.forall_mem_nil _, ?_, ?_⟩
    · by_contra hblank
      exact absurd hc (by simpa using isDigit_of_blank (Bool.not_eq_false _ ▸ hblank))
    · rw [← hmore]
      exact congrFun (scan_digit hc) rest
  have htokens := tokens_reads m hreads
  rw [List.nil_append, List.nil_append, htaken, ← hsplit] at htokens
  rw [htokens, Token.numberAt, ← htaken, ← m.offset_after]
  rfl

theorem tokens_pointAt (m : Mark) (rest : List Char) :
    tokens ⟨m, '.' :: rest⟩ = .pointAt m :: tokens ⟨m.after ['.'], rest⟩ := by
  have hreads : Reads [] (plain .dot none '.' []) rest :=
    ⟨List.forall_mem_nil _, by decide +kernel, scan_point rest⟩
  exact tokens_reads m hreads

end Scanner

/-! ## The law -/

/-- Wherever a token begins with a digit there is one number, as long as it can be, and it is read
as the one thing that it stands for. A point behind it is a token of its own. -/
theorem numbers_are_read_exactly (m : Mark) {c : Char} (hc : isDigit c = true) (rest : List Char) :
    ∃ (n : Lexeme.Numeral) (after : List Char) (kind : TokenKind) (value : TokenValue),
      Lexeme.Numeral.NumberAt (c :: rest) n after ∧
      (∀ n' after', Lexeme.Numeral.NumberAt (c :: rest) n' after' → n' = n ∧ after' = after) ∧
      n.ReadsAs kind value ∧
      (∀ kind' value', n.ReadsAs kind' value' → kind' = kind ∧ value' = value) ∧
      c :: rest = n.chars ++ after ∧
      Scanner.tokens ⟨m, c :: rest⟩ =
        .numberAt m n kind value :: Scanner.tokens ⟨m.after n.chars, after⟩ ∧
      (n.Legible → Binary64.read? (String.ofList n.chars) = some (.nearest false n.decimal)) ∧
      ∀ behind, after = '.' :: behind → Scanner.tokens ⟨m.after n.chars, after⟩ =
        .pointAt (m.after n.chars) :: Scanner.tokens ⟨(m.after n.chars).after ['.'], behind⟩ := by
  obtain ⟨after, hnumber⟩ := Lexeme.Numeral.exists_numberAt hc rest
  obtain ⟨kind, value, hread⟩ := Lexeme.Numeral.exists_readsAs hnumber
  refine ⟨_, after, kind, value, hnumber, fun n' after' => hnumber.unique, hread,
    fun kind' value' hread' => ?_, hnumber.eq.2, Scanner.tokens_numberAt m hc hnumber hread,
    fun hlegible => Lexeme.Numeral.read?_chars hlegible false, ?_⟩
  · obtain ⟨rfl, rfl⟩ := hread.eq hnumber
    obtain ⟨rfl, rfl⟩ := hread'.eq hnumber
    exact ⟨rfl, rfl⟩
  · rintro behind rfl
    exact Scanner.tokens_pointAt _ behind

/-- A number with zeros in front and with all its parts. -/
def paddedReal : Lexeme.Numeral := ⟨['0', '0'], some ['7', '5'], some ('E', ['-'], ['2'])⟩

theorem paddedReal_is_read :
    isDigit '0' = true ∧
    Lexeme.Numeral.NumberAt (paddedReal.chars ++ ['.', '.']) paddedReal ['.', '.'] ∧
    paddedReal.ReadsAs .real (.real ⟨0x3f7eb851eb851eb8⟩) ∧
    Scanner.tokens ⟨.start, paddedReal.chars ++ ['.', '.']⟩ =
      [.numberAt .start paddedReal .real (.real ⟨0x3f7eb851eb851eb8⟩), .pointAt ⟨8, 1, 9⟩,
        .pointAt ⟨9, 1, 10⟩, .endAt ⟨10, 1, 11⟩] := by
  have hdigits : ∀ cs ∈ [['0', '0'], ['7', '5'], ['2']], Lexeme.Numeral.AllDigits cs := by
    simp [Lexeme.Numeral.AllDigits, isDigit]
  have hnumber : Lexeme.Numeral.NumberAt (paddedReal.chars ++ ['.', '.']) paddedReal
      ['.', '.'] := by
    have hexponent : Lexeme.Numeral.ExponentAt ('E' :: '-' :: (['2'] ++ ['.', '.']))
        (some ('E', ['-'], ['2'])) ['.', '.'] :=
      .present (.inr rfl) (.present (.inr rfl)) (hdigits ['2'] (by simp)) (stopsRun_cons.mpr rfl)
    have hfraction : Lexeme.Numeral.FractionAt
        ('.' :: (['7', '5'] ++ ['E', '-', '2', '.', '.'])) (some ['7', '5'])
        ['E', '-', '2', '.', '.'] :=
      .present (List.cons_ne_nil _ _) (hdigits ['7', '5'] (by simp)) (stopsRun_cons.mpr rfl)
    exact .parts (List.cons_ne_nil _ _) (hdigits ['0', '0'] (by simp)) (stopsRun_cons.mpr rfl)
      hfraction hexponent
  have hread : paddedReal.ReadsAs .real (.real ⟨0x3f7eb851eb851eb8⟩) := by
    refine .real (.inl (Option.some_ne_none _)) ?_ (by decide +kernel) (by decide +kernel)
    rintro e s ds ⟨⟩
    decide
  obtain ⟨n, after, kind, value, hn, hunique, hvalue, hdetermined, -, htokens, -, hpoint⟩ :=
    numbers_are_read_exactly .start (c := '0') rfl ['0', '.', '7', '5', 'E', '-', '2', '.', '.']
  obtain ⟨rfl, rfl⟩ := hunique _ _ hnumber
  obtain ⟨rfl, rfl⟩ := hdetermined _ _ hread
  refine ⟨rfl, hnumber, hread, htokens.trans (congrArg _ ?_)⟩
  rw [hpoint ['.'] rfl, Scanner.tokens_pointAt]
  have hend := Scanner.tokens_blank (((Mark.start.after paddedReal.chars).after ['.']).after ['.'])
    (List.forall_mem_nil (isBlank · = true))
  rw [hend]
  decide +kernel

/-- Numbers at the edges of what is a number and of what is in range. -/
example :
    (tokensOf "1. 1..2 1.5e 1e+ 10END 9223372036854775807 0009223372036854775808 1e999").map
      (fun t => (t.kind, t.text)) =
    [(.integer, "1"), (.dot, "."), (.integer, "1"), (.dot, "."), (.dot, "."), (.integer, "2"),
      (.error, "1.5e"), (.error, "1e+"), (.error, "10E"), (.identifier, "ND"),
      (.integer, "9223372036854775807"), (.error, "0009223372036854775808"), (.error, "1e999"),
      (.endOfFile, "")] := by
  decide +kernel

end PascalFront
