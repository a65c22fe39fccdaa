-- The text of a finite double reads back as that double, in every style. The
-- text is a numeral whose value is that of the shortest decimal, and reading a
-- numeral rounds the decimal that it writes.
import PascalFront.Binary64.Text
import PascalFront.Proofs.CrossReference
import PascalFront.Proofs.Rounding

namespace PascalFront

/-! ## Digits -/

theorem numberOf_append (a b : List Char) :
    numberOf (a ++ b) = numberOf a * 10 ^ b.length + numberOf b := by
  have h : numberOf (a ++ b) = Nat.ofDigitChars 10 (a ++ b) 0 := rfl
  rw [h, Nat.ofDigitChars_append, Nat.ofDigitChars_eq_ofDigitChars_zero, Nat.mul_comm]
  rfl

theorem numberOf_zeros (k : Nat) : numberOf (List.replicate k '0') = 0 :=
  Nat.ofDigitChars_replicate_zero

theorem allDigits_toDigits (n : Nat) : Lexeme.Numeral.AllDigits (Nat.toDigits 10 n) := by
  intro c hc
  have hdigit := Char.isDigit_iff_toNat.mp (Nat.isDigit_of_mem_toDigits (by decide) (by decide) hc)
  simpa [isDigit, Char.le_def, UInt32.le_iff_toNat_le] using hdigit

theorem allDigits_append {a b : List Char} :
    Lexeme.Numeral.AllDigits (a ++ b) ↔
      Lexeme.Numeral.AllDigits a ∧ Lexeme.Numeral.AllDigits b := by
  simp [Lexeme.Numeral.AllDigits, or_imp, forall_and]

theorem allDigits_zeros (k : Nat) : Lexeme.Numeral.AllDigits (List.replicate k '0') := by
  intro c hc
  rw [List.eq_of_mem_replicate hc]
  decide

/-- A number is written without needless zeros in front. -/
theorem head?_toDigits {n : Nat} (h : n ≠ 0) : (Nat.toDigits 10 n).head? ≠ some '0' := by
  induction n using Nat.strongRecOn with
  | ind n ih =>
    rw [Nat.toDigits_eq_if (by decide)]
    split
    case isTrue hlt =>
      have hdigit : ∀ d < 10, d ≠ 0 → d.digitChar ≠ '0' := by decide
      simpa using hdigit n hlt h
    case isFalse hge =>
      have := ih (n / 10) (by omega) (by omega)
      rwa [List.head?_append_of_ne_nil _ Nat.toDigits_ne_nil]

/-! ## The digits of a decimal -/

/-- The digits stand for a number when the first one counts `10 ^ e`. -/
structure Layout (digits : List Char) (e : Int) (q : ℚ) : Prop where
  nonempty : digits ≠ []
  all : Lexeme.Numeral.AllDigits digits
  value : numberOf digits * (10 : ℚ) ^ (e + 1 - digits.length) = q
  /-- Only zero begins with a zero. -/
  lead : digits.head? = some '0' → digits = ['0'] ∧ e = 0

namespace Binary64

/-- The digits of a decimal and the zeros that are left out at its end. -/
theorem trimmed_digits (n : Nat) : ∃ (ds : List Char) (k : Nat),
    ((Nat.toDigits 10 n).reverse.dropWhile (· == '0')).reverse = ds ∧
      Nat.toDigits 10 n = ds ++ List.replicate k '0' := by
  obtain ⟨zeros, hzeros⟩ : ∃ zeros, zeros = (Nat.toDigits 10 n).reverse.takeWhile (· == '0') :=
    ⟨_, rfl⟩
  refine ⟨_, zeros.length, rfl, ?_⟩
  have hall : zeros = List.replicate zeros.length '0' := by
    refine List.eq_replicate_iff.mpr ⟨rfl, fun c hc => ?_⟩
    rw [hzeros] at hc
    simpa using List.mem_takeWhile_imp hc
  have hsplit := List.takeWhile_append_dropWhile (p := (· == '0'))
      (l := (Nat.toDigits 10 n).reverse)
  rw [← hzeros, hall] at hsplit
  rw [← List.reverse_inj, List.reverse_append, List.reverse_reverse, List.reverse_replicate, hsplit]

theorem layout_digitsOf (d : Decimal) : Layout (digitsOf d) (firstExponent d) d.value := by
  obtain ⟨ds, k, htrimmed, hsplit⟩ := trimmed_digits d.digits
  have hnumber : d.digits = numberOf ds * 10 ^ k := by
    rw [← numberOf_toDigits d.digits, hsplit, numberOf_append, numberOf_zeros,
      List.length_replicate, Nat.add_zero]
  have hdigits : digitsOf d = if ds = [] then ['0'] else ds := by
    unfold digitsOf
    rw [htrimmed]
    cases ds <;> simp
  by_cases hzero : d.digits = 0
  · have hds : ds = [] := by
      rw [← htrimmed, hzero]
      decide
    rw [hdigits, if_pos hds, firstExponent, if_pos hzero, Decimal.value_eq_zero.mpr hzero]
    exact ⟨by simp, allDigits_zeros 1, by simp [numberOf, digitValue], fun _ => ⟨rfl, rfl⟩⟩
  · have hds : ds ≠ [] := by
      rintro rfl
      exact hzero (by simpa [numberOf] using hnumber)
    rw [hdigits, if_neg hds, firstExponent, if_neg hzero]
    refine ⟨hds, (allDigits_append.mp (hsplit ▸ allDigits_toDigits d.digits)).1, ?_, fun hlead =>
      ?_⟩
    · have hcount : digitCount d.digits = ds.length + k := by simp [digitCount, hsplit]
      rw [Decimal.value, hnumber, ← hnumber, hcount, show d.exponent + ((ds.length + k : Nat) : Int)
        - 1 + 1 -
        (ds.length : Int) =
          (k : Int) + d.exponent by push_cast; ring, zpow_add₀ (by norm_num), zpow_natCast, hnumber]
      push_cast
      ring
    · have hfirst := head?_toDigits hzero
      rw [hsplit, List.head?_append_of_ne_nil _ hds] at hfirst
      exact absurd hlead hfirst

end Binary64

/-! ## Numerals -/

namespace Lexeme.Numeral

/-- The decimal that a numeral writes. -/
def decimal (n : Numeral) : Decimal :=
  ⟨numberOf (n.whole ++ n.fraction.getD []), exponentValue n.exponent - (n.fraction.getD []).length⟩

/-- A numeral with all its parts, and without zeros in front. -/
structure Complete (n : Numeral) : Prop extends n.WellFormed where
  digits : n.whole ≠ []
  lead : n.whole.head? = some '0' → n.whole = ['0']
  exponentDigits : ∀ e s ds, n.exponent = some (e, s, ds) → ds ≠ []

/-- A numeral with all its parts, whatever it begins with. -/
structure Legible (n : Numeral) : Prop extends n.WellFormed where
  digits : n.whole ≠ []
  exponentDigits : ∀ e s ds, n.exponent = some (e, s, ds) → ds ≠ []

theorem Complete.legible {n : Numeral} (h : n.Complete) : n.Legible :=
  ⟨h.toWellFormed, h.digits, h.exponentDigits⟩

theorem Complete.ofPlaces {whole : List Char} {fraction : Option (List Char)}
    (hall : AllDigits whole) (hdigits : whole ≠ []) (hlead : whole.head? = some '0' → whole = ['0'])
    (hfraction : ∀ ds, fraction = some ds → ds ≠ [] ∧ AllDigits ds) :
    Complete ⟨whole, fraction, none⟩ :=
  ⟨⟨hall, hfraction, fun _ _ _ h => nomatch h⟩, hdigits, hlead, fun _ _ _ h => nomatch h⟩

theorem Complete.withExponent {whole ds : List Char} {fraction : Option (List Char)} {sign : Char}
    (h : Complete ⟨whole, fraction, none⟩) (hsign : sign = '+' ∨ sign = '-') (hdigits : ds ≠ [])
    (hall : AllDigits ds) : Complete ⟨whole, fraction, some ('e', [sign], ds)⟩ := by
  refine ⟨⟨h.whole, h.fraction, ?_⟩, h.digits, h.lead, ?_⟩ <;> rintro e s es ⟨⟩
  · exact ⟨.inl rfl, .inr (by simpa using hsign), hall⟩
  · exact hdigits

/-- A numeral behind a minus, or alone. -/
def signed (negative : Bool) (n : Numeral) : List Char :=
  if negative then '-' :: n.chars else n.chars

/-- Whether the spelling shows that the number is real. -/
def IsReal (n : Numeral) : Prop := n.fraction ≠ none ∨ n.exponent ≠ none

end Lexeme.Numeral

/-- A text that writes a number as a numeral. -/
structure Spells (cs : List Char) (n : Lexeme.Numeral) (q : ℚ) : Prop where
  chars : n.chars = cs
  complete : n.Complete
  value : n.decimal.value = q

namespace Layout

open Lexeme

variable {digits : List Char} {e : Int} {q : ℚ}

/-- A numeral of the same digits has the same value when its exponent makes up for the zeros that
it adds at their end. -/
theorem value_decimal (h : Layout digits e q) {n : Numeral} {k : Nat}
    (hdigits : numberOf (n.whole ++ n.fraction.getD []) = numberOf (digits ++ List.replicate k '0'))
    (hexponent : Numeral.exponentValue n.exponent - (n.fraction.getD []).length + k =
      e + 1 - digits.length) :
    n.decimal.value = q := by
  have hnumber : numberOf (n.whole ++ n.fraction.getD []) = numberOf digits * 10 ^ k := by
    rw [hdigits, numberOf_append, numberOf_zeros, List.length_replicate, Nat.add_zero]
  rw [Decimal.value, Numeral.decimal, hnumber, ← h.value, ← hexponent, zpow_add₀ (by norm_num),
    zpow_natCast]
  push_cast
  ring

/-- Below one, the digits stand behind zeros. -/
theorem below (h : Layout digits e q) (hneg : e < 0) :
    ∃ n : Numeral, Spells (['0', '.'] ++ List.replicate (-e - 1).toNat '0' ++ digits) n q ∧
      n.IsReal := by
  obtain ⟨zeros, hzeros⟩ : ∃ zeros, zeros = List.replicate (-e - 1).toNat '0' := ⟨_, rfl⟩
  have hlength : (zeros.length : Int) = -e - 1 := by
    rw [hzeros, List.length_replicate]
    omega
  refine ⟨⟨['0'], some (zeros ++ digits), none⟩,
    ⟨?_, .ofPlaces (allDigits_zeros 1) (by simp) (by simp) ?_, ?_⟩,
    .inl (by simp)⟩
  · simp [Numeral.chars, Numeral.fractionChars, Numeral.exponentChars, hzeros]
  · rintro ds ⟨⟩
    exact ⟨by simp [h.nonempty], allDigits_append.mpr ⟨hzeros ▸ allDigits_zeros _, h.all⟩⟩
  · refine h.value_decimal (k := 0) ?_ ?_
    · have hnone : numberOf (['0'] ++ zeros) = 0 := by
        rw [hzeros]
        exact numberOf_zeros ((-e - 1).toNat + 1)
      rw [Option.getD_some, ← List.append_assoc, numberOf_append, hnone]
      simp
    · simp only [Numeral.exponentValue, Option.getD_some, List.length_append]
      omega

/-- The digits in front of the point, filled up with zeros. -/
def whole (digits : List Char) (e : Int) : List Char :=
  digits.take (e.toNat + 1) ++ List.replicate (e.toNat + 1 - digits.length) '0'

theorem whole_ne_nil (h : Layout digits e q) : whole digits e ≠ [] := by
  have hpos := List.length_pos_iff.mpr h.nonempty
  refine List.length_pos_iff.mp ?_
  rw [whole, List.length_append, List.length_take]
  omega

/-- The numerals that begin with these digits have no needless zero in front. -/
theorem complete_whole (h : Layout digits e q) {fraction : Option (List Char)}
    (hfraction : ∀ ds, fraction = some ds → ds ≠ [] ∧ Numeral.AllDigits ds) :
    Numeral.Complete ⟨whole digits e, fraction, none⟩ := by
  refine .ofPlaces ?_ h.whole_ne_nil (fun hfirst => ?_) hfraction
  · exact allDigits_append.mpr ⟨fun d hd => h.all d (List.mem_of_mem_take hd), allDigits_zeros _⟩
  · have hhead : digits.head? = (whole digits e).head? := by
      obtain ⟨d, ds, hds⟩ := List.exists_cons_of_ne_nil h.nonempty
      simp [whole, hds]
    obtain ⟨rfl, rfl⟩ := h.lead (hhead.trans hfirst)
    rfl

/-- From one on, digits or zeros fill the places in front of the point. -/
theorem positional (h : Layout digits e q) (pointAlways : Bool) :
    ∃ n : Numeral, Spells (Binary64.positionalText pointAlways digits e) n q ∧
      (pointAlways = true → n.IsReal) := by
  unfold Binary64.positionalText
  split
  case isTrue hneg =>
    obtain ⟨n, hn, hreal⟩ := h.below hneg
    exact ⟨n, hn, fun _ => hreal⟩
  case isFalse hpos =>
    have hwhole : whole digits e =
        digits.take (e.toNat + 1) ++ List.replicate (e.toNat + 1 - digits.length) '0' := rfl
    simp only [← hwhole]
    cases hdrop : digits.drop (e.toNat + 1) with
    | nil =>
      have hshort : digits.length ≤ e.toNat + 1 := List.drop_eq_nil_iff.mp hdrop
      rw [List.take_of_length_le hshort] at hwhole
      cases pointAlways with
      | false =>
        refine ⟨⟨whole digits e, none, none⟩, ⟨?_, h.complete_whole nofun, ?_⟩, nofun⟩
        · simp [Numeral.chars, Numeral.fractionChars, Numeral.exponentChars]
        · refine h.value_decimal (k := e.toNat + 1 - digits.length) (by simp [hwhole]) ?_
          simp only [Numeral.exponentValue, Option.getD_none, List.length_nil]
          omega
      | true =>
        refine ⟨⟨whole digits e, some ['0'], none⟩, ⟨?_, h.complete_whole ?_, ?_⟩, fun _ =>
          .inl (by simp)⟩
        · simp [Numeral.chars, Numeral.fractionChars, Numeral.exponentChars]
        · rintro ds ⟨⟩
          exact ⟨by simp, allDigits_zeros 1⟩
        · refine h.value_decimal (k := e.toNat + 1 - digits.length + 1) ?_ ?_
          · simp [hwhole, List.replicate_succ']
          · simp only [Numeral.exponentValue, Option.getD_some, List.length_singleton]
            omega
    | cons d ds =>
      have hlong := congrArg List.length hdrop
      rw [List.length_drop, List.length_cons] at hlong
      rw [show e.toNat + 1 - digits.length = 0 by omega, List.replicate_zero,
        List.append_nil] at hwhole
      refine ⟨⟨whole digits e, some (d :: ds), none⟩, ⟨?_, h.complete_whole ?_, ?_⟩, fun _ =>
        .inl (by simp)⟩
      · simp [Numeral.chars, Numeral.fractionChars, Numeral.exponentChars]
      · rintro ds ⟨⟩
        exact ⟨by simp, fun c hc => h.all c (List.mem_of_mem_drop (hdrop ▸ hc))⟩
      · refine h.value_decimal (k := 0) ?_ ?_
        · simp only [hwhole, Option.getD_some, ← hdrop, List.take_append_drop, List.replicate_zero,
            List.append_nil]
        · simp only [Numeral.exponentValue, Option.getD_some, List.length_cons]
          omega

/-- With an exponent, one digit stands in front of the point, if there is a point. -/
theorem scientific (h : Layout digits e q) :
    ∃ n : Numeral, Spells (Binary64.exponentText digits e) n q ∧ n.IsReal := by
  obtain ⟨d, ds, rfl⟩ := List.exists_cons_of_ne_nil h.nonempty
  obtain ⟨sign, hsign⟩ : ∃ sign, sign = if e < 0 then '-' else '+' := ⟨_, rfl⟩
  have hexponent : Numeral.exponentValue (some ('e', [sign], Nat.toDigits 10 e.natAbs)) = e := by
    rw [Numeral.exponentValue, numberOf_toDigits, hsign]
    by_cases hneg : e < 0
    · rw [if_pos (by simp [hneg])]
      omega
    · rw [if_neg (by simp [hneg])]
      omega
  obtain ⟨fraction, hfraction⟩ : ∃ fraction, fraction = if ds = [] then none else some ds :=
    ⟨_, rfl⟩
  have hds : fraction.getD [] = ds := by
    rw [hfraction]
    split <;> simp_all
  have hcomplete : Numeral.Complete ⟨[d], fraction, none⟩ := by
    refine .ofPlaces (fun c hc => h.all c (by simp_all)) (by simp) (by simp) ?_
    rintro ds' rfl
    obtain ⟨hne, rfl⟩ : ds ≠ [] ∧ ds' = ds := by simpa using hfraction
    exact ⟨hne, fun c hc => h.all c (by simp [hc])⟩
  refine ⟨⟨[d], fraction, some ('e', [sign], Nat.toDigits 10 e.natAbs)⟩, ⟨?_, hcomplete.withExponent
    (by rw [hsign]; split <;> simp) Nat.toDigits_ne_nil (allDigits_toDigits _), ?_⟩, .inr (by simp)⟩
  · cases ds <;>
      simp [Numeral.chars, Numeral.fractionChars, Numeral.exponentChars, Binary64.exponentText,
        hfraction, hsign]
  · refine h.value_decimal (k := 0) (by simp [hds]) ?_
    simp only [hexponent, hds, List.length_cons]
    omega

end Layout

/-! ## Reading a numeral -/

namespace Lexeme.Numeral

variable {n : Numeral}

/-- The rest of a numeral behind its fraction is read as its exponent. -/
theorem exponent?_chars (h : n.Legible) :
    Binary64.exponent? (exponentChars n.exponent) = some (exponentValue n.exponent) := by
  cases he : n.exponent with
  | none => rfl
  | some parts =>
    obtain ⟨e, s, ds⟩ := parts
    obtain ⟨hletter, hsign, hall⟩ := h.exponent e s ds he
    obtain ⟨d, rest, rfl⟩ := List.exists_cons_of_ne_nil (h.exponentDigits e s ds he)
    obtain ⟨hplus, hminus⟩ := digit_ne_sign (hall d (by simp))
    have hdigits : isDigit d = true ∧ ∀ x ∈ rest, isDigit x = true := List.forall_mem_cons.mp hall
    rcases hsign with rfl | rfl | rfl <;>
      simpa [Binary64.exponent?, exponentChars, exponentValue, hletter, hplus, hminus] using hdigits

/-- A numeral is read as the double nearest to the decimal that it writes. -/
theorem unsigned?_chars (h : n.Legible) (negative : Bool) :
    Binary64.unsigned? negative n.chars = some (.nearest negative n.decimal) := by
  have hexponent := exponent?_chars h
  have hends := ends_nil n
  have hstop := stopsRun_fraction h.toWellFormed hends
  rw [List.append_nil] at hstop
  have hchars : n.chars = n.whole ++ (fractionChars n.fraction ++ exponentChars n.exponent) := by
    simp [chars]
  have hwhole : n.whole.isEmpty = false := by simpa using h.digits
  unfold Binary64.unsigned?
  simp only [hchars, takeWhile_of_run h.whole hstop, dropWhile_of_run h.whole hstop, hwhole,
    Bool.false_and,
    Bool.false_eq_true, if_false]
  cases hf : n.fraction with
  | some ds =>
    have hall := (h.fraction ds hf).2
    have hstop' := stopsRun_exponent h.toWellFormed hends
    rw [List.append_nil] at hstop'
    simp [fractionChars, takeWhile_of_run hall hstop', dropWhile_of_run hall hstop', hexponent,
      Binary64.ofParts,
      decimal, hf]
  | none =>
    simp only [fractionChars, List.nil_append]
    split
    case h_1 rest hpoint =>
      -- an exponent begins with a letter
      cases he : n.exponent with
      | none => simp [exponentChars, he] at hpoint
      | some parts =>
        obtain ⟨e, s, ds⟩ := parts
        simp only [exponentChars, he, List.cons.injEq] at hpoint
        obtain ⟨rfl, -⟩ := hpoint
        exact absurd (h.exponent _ s ds he).1 (by decide)
    case h_2 => simp [hexponent, Binary64.ofParts, decimal, hf]

theorem chars_first (h : n.Legible) : ∃ d more, n.chars = d :: more ∧ isDigit d = true := by
  obtain ⟨d, whole, hwhole⟩ := List.exists_cons_of_ne_nil h.digits
  refine ⟨d, whole ++ fractionChars n.fraction ++ exponentChars n.exponent, ?_,
    h.whole d (by simp [hwhole])⟩
  simp [chars, hwhole]

theorem signed_first (h : n.Complete) (negative : Bool) :
    ∃ c more, n.signed negative = c :: more ∧ (c = '-' ∨ isDigit c = true) := by
  obtain ⟨d, more, hchars, hd⟩ := chars_first h.legible
  cases negative with
  | true => exact ⟨'-', n.chars, rfl, .inl rfl⟩
  | false => exact ⟨d, more, hchars, .inr hd⟩

/-! ## Integers -/

theorem complete_toDigits (k : Nat) : Complete ⟨Nat.toDigits 10 k, none, none⟩ := by
  refine .ofPlaces (allDigits_toDigits k) Nat.toDigits_ne_nil (fun hzero => ?_) nofun
  by_cases hk : k = 0
  · subst hk
    decide
  · exact absurd hzero (head?_toDigits hk)

/-- An integer is written as a numeral without a point and an exponent. -/
theorem toList_toString_int (k : Int) :
    (toString k).toList = signed (decide (k < 0)) ⟨Nat.toDigits 10 k.natAbs, none, none⟩ := by
  cases k with
  | ofNat k => simp [signed, chars, fractionChars, exponentChars, toString, Int.repr]
  | negSucc k => simp [signed, chars, fractionChars, exponentChars, toString, Int.repr]

theorem toString_int_injective {k l : Int} (h : toString k = toString l) : k = l := by
  have hsigned := congrArg String.toList h
  rw [toList_toString_int, toList_toString_int] at hsigned
  obtain ⟨d, more, hd, hdigit⟩ := chars_first (complete_toDigits k.natAbs).legible
  obtain ⟨d', more', hd', hdigit'⟩ := chars_first (complete_toDigits l.natAbs).legible
  have hminus := (digit_ne_sign hdigit).2
  have hminus' := (digit_ne_sign hdigit').2
  by_cases hk : k < 0 <;> by_cases hl : l < 0 <;>
    simp only [signed, hk, hl, decide_true, decide_false, Bool.false_eq_true, if_true,
      if_false] at hsigned
  · have habs := toDigits_injective (by simpa [chars, fractionChars, exponentChars] using hsigned)
    omega
  · rw [hd'] at hsigned
    exact absurd (List.cons.inj hsigned).1.symm hminus'
  · rw [hd] at hsigned
    exact absurd (List.cons.inj hsigned).1 hminus
  · have habs := toDigits_injective (by simpa [chars, fractionChars, exponentChars] using hsigned)
    omega

/-! ## Reading a number with a sign -/

theorem toLower_digit : ∀ k < 58, 48 ≤ k → (Char.ofNat k).toLower ≠ 'n' ∧
    (Char.ofNat k).toLower ≠ 'i' := by
  decide

/-- Nothing that begins with a digit is one of the words for infinity and NaN. -/
theorem not_word {d : Char} (hd : isDigit d = true) (more word : List Char)
    (hword : word.head? = some 'n' ∨ word.head? = some 'i') :
    String.ofList ((d :: more).map Char.toLower) ≠ String.ofList word := by
  have hrange : 48 ≤ d.toNat ∧ d.toNat ≤ 57 := by
    simpa [isDigit, Char.le_def, UInt32.le_iff_toNat_le] using hd
  obtain ⟨hn, hi⟩ := toLower_digit d.toNat (by omega) (by omega)
  rw [Char.ofNat_toNat] at hn hi
  intro heq
  rw [String.ofList_inj] at heq
  rw [← heq] at hword
  simp [hn, hi] at hword

/-- A numeral with or without a minus is read as the double nearest to what it writes. -/
theorem read?_chars (h : n.Legible) (negative : Bool) :
    Binary64.read? (String.ofList (n.signed negative)) = some (.nearest negative n.decimal) := by
  obtain ⟨d, more, hchars, hd⟩ := chars_first h
  have hread := unsigned?_chars h negative
  obtain ⟨hplus, hminus⟩ := digit_ne_sign hd
  have hnan := not_word hd more "nan".toList (.inl rfl)
  have hinf := not_word hd more "inf".toList (.inr rfl)
  have hinfinity := not_word hd more "infinity".toList (.inr rfl)
  simp only [String.ofList_toList] at hnan hinf hinfinity
  rw [signed, hchars] at *
  unfold Binary64.read?
  simp only [String.toList_ofList]
  cases negative with
  | true => simp only [if_true, hnan, hinf, hinfinity, or_self, if_false, hread]
  | false =>
    simp only [Bool.false_eq_true, if_false]
    split
    case h_1 heq =>
      cases heq
      exact absurd rfl hplus
    case h_2 heq =>
      cases heq
      exact absurd rfl hminus
    case h_3 => simp only [hnan, hinf, hinfinity, or_self, if_false, hread]

end Lexeme.Numeral

/-! ## Reading a text -/

namespace Binary64

open Lexeme

/-- A double is written as a numeral of the value of its shortest decimal, behind a minus when it is
negative. -/
theorem textIn_spells (style : RealStyle) (x : Binary64) : ∃ n : Numeral, n.Complete ∧
    x.textIn style = n.signed x.isNegative ∧ n.decimal.value = (x.shortest style.tie).value ∧
      (style.pointAlways = true → n.IsReal) := by
  have hlayout := layout_digitsOf (x.shortest style.tie)
  unfold textIn
  by_cases hpositional : style.positional (firstExponent (x.shortest style.tie)) = true
  · obtain ⟨n, hn, hreal⟩ := hlayout.positional style.pointAlways
    exact ⟨n, hn.complete, by simp [hpositional, hn.chars, Numeral.signed], hn.value, hreal⟩
  · obtain ⟨n, hn, hreal⟩ := hlayout.scientific
    exact ⟨n, hn.complete,
      by simp [hpositional, hn.chars, Numeral.signed], hn.value, fun _ => hreal⟩

/-- The text of a finite double reads back as the double. -/
theorem read?_textIn (style : RealStyle) {x : Binary64} (hx : x.isFinite = true) :
    read? (String.ofList (x.textIn style)) = some x := by
  obtain ⟨n, hn, htext, hvalue, -⟩ := textIn_spells style x
  rw [htext, Numeral.read?_chars hn.legible, nearest_value _ hvalue, nearest_shortest _ hx]

/-- Finite doubles with one listing are one double. -/
theorem listingText_injective {x y : Binary64} (hx : x.isFinite = true) (hy : y.isFinite = true)
    (h : x.listingText = y.listingText) : x = y := by
  have hlisting : ∀ {z : Binary64}, z.isFinite = true → read? z.listingText = some z := by
    intro z hz
    rw [← read?_textIn .listing hz]
    simp [listingText, isNaN, hz]
  apply Option.some.inj
  rw [← hlisting hx, ← hlisting hy, h]

end Binary64

end PascalFront
