-- A blank ends a lexeme. What the scanner reads in front of a text does not change
-- when the text is the same as before up to a blank, whatever is at the blank and
-- behind it: only a string or a comment reads on there.
import PascalFront.Proofs.Texts

namespace PascalFront

/-! ## Blank characters -/

namespace Letters

/-- The search in a table finds what lies in one of its intervals. -/
theorem inRanges_iff {ranges : List (Nat × Nat)} (hsorted : ranges.Pairwise (·.2 < ·.1)) {n : Nat} :
    inRanges ranges n = true ↔ ∃ r ∈ ranges, r.1 ≤ n ∧ n ≤ r.2 := by
  induction ranges with
  | nil => simp [inRanges]
  | cons r₀ ranges ih =>
    obtain ⟨hfirst, hrest⟩ := List.pairwise_cons.mp hsorted
    unfold inRanges
    split
    · rename_i hlast
      rw [decide_eq_true_iff]
      constructor
      · exact fun h => ⟨r₀, List.mem_cons_self, h, hlast⟩
      · rintro ⟨r, hr, hl, hu⟩
        rcases List.mem_cons.mp hr with rfl | hr
        · exact hl
        · have := hfirst r hr
          omega
    · rename_i hlast
      rw [ih hrest]
      constructor
      · rintro ⟨r, hr, h⟩
        exact ⟨r, List.mem_cons_of_mem _ hr, h⟩
      · rintro ⟨r, hr, h⟩
        rcases List.mem_cons.mp hr with rfl | hr
        · exact absurd h.2 hlast
        · exact ⟨r, hr, h⟩

end Letters

/-- There are few blanks, so what is asked of all of them can be looked up. -/
theorem forall_blank {P : Char → Prop}
    (hall : ∀ r ∈ Letters.blankRanges, ∀ n ∈ List.range' r.1 (r.2 + 1 - r.1), P (Char.ofNat n))
    {c : Char} (hc : isBlank c = true) : P c := by
  have hsorted : Letters.blankRanges.Pairwise (·.2 < ·.1) := by decide
  obtain ⟨r, hr, hle, hge⟩ := (Letters.inRanges_iff hsorted).mp hc
  have hmem : c.toNat ∈ List.range' r.1 (r.2 + 1 - r.1) := by
    rw [List.mem_range'_1]
    omega
  have := hall r hr c.toNat hmem
  rwa [Char.ofNat_toNat] at this

section

variable {c : Char} (hc : isBlank c = true)

include hc

theorem isWordChar_of_blank : isWordChar c = false :=
  forall_blank (P := fun c => isWordChar c = false) (by decide +kernel) hc

theorem isDigit_of_blank : isDigit c = false :=
  forall_blank (P := fun c => isDigit c = false) (by decide +kernel) hc

theorem ne_of_blank {d : Char} (hd : isBlank d = false) : c ≠ d := by
  rintro rfl
  rw [hc] at hd
  cases hd

/-- No special symbol has a blank in it. -/
theorem specialSymbol?_of_blank (b : Char) :
    TokenKind.specialSymbol? (String.ofList [b, c]) = none := by
  have hall : ∀ k ∈ TokenKind.all, ∀ s ∈ k.spelling, s.toList.all (!isBlank ·) = true := by
    decide +kernel
  cases hk : TokenKind.specialSymbol? (String.ofList [b, c]) with
  | none => rfl
  | some k =>
    have hspelling := (TokenKind.specialSymbol?_eq_some hk).2
    have hvisible := hall k (TokenKind.mem_all k) _ hspelling
    simp [hc] at hvisible

end

/-! ## The same up to a blank -/

/-- The second text is the first one, or it is so up to some blank of it. -/
inductive UpToBlank : List Char → List Char → Prop
  | nil : UpToBlank [] []
  | blank {d : Char} (cs ds : List Char) : isBlank d = true → UpToBlank cs (d :: ds)
  | cons (c : Char) {cs ds : List Char} : UpToBlank cs ds → UpToBlank (c :: cs) (c :: ds)

theorem StopsRun.upToBlank {p : Char → Bool} {cs ds : List Char} (h : StopsRun p cs)
    (hp : ∀ c, isBlank c = true → p c = false) (hs : UpToBlank cs ds) : StopsRun p ds := by
  cases hs with
  | nil => exact h
  | blank cs ds hd => exact stopsRun_cons.mpr (hp _ hd)
  | cons c _ => exact stopsRun_cons.mpr (stopsRun_cons.mp h)

namespace Lexeme

variable {after after' : List Char}

namespace Numeral

theorem sign_upToBlank (h : sign after = []) (hs : UpToBlank after after') : sign after' = [] := by
  cases hs with
  | nil => rfl
  | @blank d cs ds hd =>
    have hplus : d ≠ '+' := ne_of_blank hd (by decide)
    have hminus : d ≠ '-' := ne_of_blank hd (by decide)
    simp [sign, hplus, hminus]
  | cons c _ => exact h

theorem exponent?_upToBlank (h : exponent? after = none) (hs : UpToBlank after after') :
    exponent? after' = none := by
  cases hs with
  | nil => rfl
  | @blank d cs ds hd =>
    have hsmall : d ≠ 'e' := ne_of_blank hd (by decide)
    have hcapital : d ≠ 'E' := ne_of_blank hd (by decide)
    simp [exponent?, hsmall, hcapital]
  | cons c _ =>
    have hc : ¬ (c = 'e' ∨ c = 'E') := by
      intro hc
      simp [exponent?, hc] at h
    simp [exponent?, hc]

theorem fraction?_upToBlank (h : fraction? after = none) (hs : UpToBlank after after') :
    fraction? after' = none := by
  cases hs with
  | nil => rfl
  | @blank d cs ds hd =>
    have hpoint : d ≠ '.' := ne_of_blank hd (by decide)
    simp [fraction?, hpoint]
  | cons c hs =>
    by_cases hc : c = '.'
    · -- a point is no fraction by itself, so the character behind it decides
      subst hc
      cases hs with
      | nil => exact h
      | blank cs ds hd => simp [fraction?, isDigit_of_blank hd]
      | cons d _ =>
        cases hd : isDigit d with
        | true => simp [fraction?, hd] at h
        | false => simp [fraction?, hd]
    · simp [fraction?, hc]

theorem Ends.upToBlank {n : Numeral} (h : n.Ends after) (hs : UpToBlank after after') :
    n.Ends after' := by
  obtain ⟨hstop, hrest⟩ := h
  refine ⟨hstop.upToBlank (fun _ => isDigit_of_blank) hs, ?_⟩
  cases he : n.exponent with
  | some parts =>
    rw [he] at hrest
    exact fun hsign hdigits => sign_upToBlank (hrest hsign hdigits) hs
  | none =>
    rw [he] at hrest
    exact ⟨exponent?_upToBlank hrest.1 hs, fun hf => fraction?_upToBlank (hrest.2 hf) hs⟩

end Numeral

theorem NoPair.upToBlank {c : Char} (h : NoPair c after) (hs : UpToBlank after after') :
    NoPair c after' := by
  cases hs with
  | nil => exact h
  | blank cs ds hd =>
    rintro _ ⟨⟩
    exact specialSymbol?_of_blank hd c
  | cons d _ => exact h

theorem NoQuote.upToBlank (h : NoQuote after) (hs : UpToBlank after after') : NoQuote after' := by
  have hquote : ∀ c, isBlank c = true → (c == quoteMark) = false := by
    intro c hc
    exact beq_eq_false_iff_ne.mpr (ne_of_blank hc (by decide))
  exact StopsRun.upToBlank h hquote hs

/-- A lexeme is read in front of a text as it is read in front of one that is the same up to a
blank. A lexeme without its end has taken the whole text, and nothing may come behind it. -/
theorem scan_upToBlank {c : Char} {l : Lexeme} (h : scan c (l.more ++ after) = l)
    (hs : UpToBlank after after')
    (hend : l.value = some (.fault .unexpectedEnd) → after = [] → after' = []) :
    scan c (l.more ++ after') = l := by
  have hread := readBy_scan c
  generalize scan c = scanner at h hread ⊢
  cases hread with
  | comment =>
    refine comment_longest.scanned h fun hk => hend ?_ (comment_longest.ends h hk)
    rw [← h] at hk ⊢
    exact comment_value _ hk
  | word =>
    have hends := (word_longest c).ends h
    exact (word_longest c).scanned h (hends.upToBlank (fun _ => isWordChar_of_blank) hs)
  | number _ _ hdigit =>
    have hends := (number_longest hdigit).ends h
    exact (number_longest hdigit).scanned h (hends.upToBlank hs)
  | string =>
    have hends := quotedString_longest.ends h
    refine quotedString_longest.scanned h ?_
    by_cases hk : l.kind = .error
    · rw [if_pos hk] at hends ⊢
      refine hend ?_ hends
      rw [← h] at hk ⊢
      exact quotedString_value _ hk
    · rw [if_neg hk] at hends ⊢
      exact hends.upToBlank hs
  | symbol =>
    have hends := (symbol_longest c).ends h
    exact (symbol_longest c).scanned h fun hmore => (hends hmore).upToBlank hs

end Lexeme

/-! ## Blanks between lexemes -/

namespace Scanner

open Lexeme

/-- Blanks only move what stands behind them. -/
theorem tokens_past_blanks (m : Mark) {blanks : List Char} (h : ∀ c ∈ blanks, isBlank c = true)
    (ds : List Char) : tokens ⟨m, blanks ++ ds⟩ = tokens ⟨m.after blanks, ds⟩ := by
  induction ds using text_induction with
  | blank ds hds =>
    have hall : ∀ c ∈ blanks ++ ds, isBlank c = true := List.forall_mem_append.mpr ⟨h, hds⟩
    rw [tokens_blank m hall, tokens_blank _ hds, Mark.after_append]
  | lexeme blanks' l after hl _ =>
    have hall : ∀ c ∈ blanks ++ blanks', isBlank c = true :=
      List.forall_mem_append.mpr ⟨h, hl.blanks⟩
    have hreads : Reads (blanks ++ blanks') l after := ⟨hall, hl.visible, hl.scanned⟩
    rw [← List.append_assoc, tokens_reads m hreads, tokens_reads _ hl, List.append_assoc,
      Mark.after_append, Mark.after_append]

end Scanner

end PascalFront
