-- Words of a source text. A name starts with a letter, and so it does in small
-- letters; a hidden variable starts with a dollar sign. So no program can name
-- a hidden variable.
import PascalFront.Proofs.Sentences
import PascalFront.Proofs.Preservation
import PascalFront.Proofs.Blanks
import Mathlib.Data.List.Basic

namespace PascalFront

/-! ## Letters stay letters -/

namespace Letters

theorem letterRanges_chain :
    letterRanges.IsChain fun r r' : Nat × Nat => r.2 < r'.1 ∧ r'.1 ≤ r'.2 := by
  decide +kernel

theorem letterRanges_sorted : letterRanges.Pairwise (·.2 < ·.1) := by
  have : Trans (fun r r' : Nat × Nat => r.2 < r'.1 ∧ r'.1 ≤ r'.2)
      (fun r r' : Nat × Nat => r.2 < r'.1 ∧ r'.1 ≤ r'.2)
      (fun r r' : Nat × Nat => r.2 < r'.1 ∧ r'.1 ≤ r'.2) :=
    ⟨fun h h' => ⟨by omega, h'.2⟩⟩
  exact (List.isChain_iff_pairwise.mp letterRanges_chain).imp And.left

theorem letterRanges_valid : ∀ r ∈ letterRanges, r.2 < 0xD800 ∨ 0xDFFF < r.1 ∧ r.2 < 0x110000 := by
  decide +kernel

/-- The first and the last small letter of a run of capitals. -/
def CaseRun.smallEnds (run : CaseRun) : Nat × Nat :=
  ((run.first + run.shift).toNat, (run.last + run.shift).toNat)

/-- A run of capitals has its small letters within one run of letters. -/
theorem smallEnds_within :
    ((smallLetterRuns.map CaseRun.smallEnds).all fun e =>
      letterRanges.any fun r => r.1.ble e.1 && e.2.ble r.2) = true := by
  decide +kernel

theorem run_within {run : CaseRun} (h : run ∈ smallLetterRuns) :
    ∃ r ∈ letterRanges, r.1 ≤ run.smallEnds.1 ∧ run.smallEnds.2 ≤ r.2 := by
  have := List.all_eq_true.mp smallEnds_within run.smallEnds (List.mem_map_of_mem h)
  simpa [List.any_eq_true] using this

theorem shiftCase_within {runs : List CaseRun} (h : runs ⊆ smallLetterRuns) {n : Nat}
    (hn : ∃ r ∈ letterRanges, r.1 ≤ n ∧ n ≤ r.2) :
    ∃ r ∈ letterRanges, r.1 ≤ shiftCase runs n ∧ shiftCase runs n ≤ r.2 := by
  induction runs with
  | nil => exact hn
  | cons run rest ih =>
    obtain ⟨r, hr, hl, hu⟩ := run_within (h List.mem_cons_self)
    unfold CaseRun.smallEnds at hl hu
    unfold shiftCase
    split
    · split
      · exact ⟨r, hr, by omega, by omega⟩
      · exact hn
    · exact ih fun run hrun => h (List.mem_cons_of_mem _ hrun)

/-- The character of a code point that is listed as a letter. -/
theorem isLetter_ofNat {n : Nat} (h : ∃ r ∈ letterRanges, r.1 ≤ n ∧ n ≤ r.2) :
    isLetter (Char.ofNat n) = true := by
  have hvalid : n.isValidChar := by
    obtain ⟨r, hr, hl, hu⟩ := h
    rcases letterRanges_valid r hr with hlow | ⟨hhigh, hmax⟩
    · exact .inl (by omega)
    · exact .inr ⟨by omega, by omega⟩
  have hnat : (Char.ofNat n).toNat = n := by
    unfold Char.ofNat
    rw [dif_pos hvalid]
    rfl
  unfold isLetter
  rw [hnat]
  exact (inRanges_iff letterRanges_sorted).mpr h

theorem isLetter_toLower : ∀ n < 128, isLetter (Char.ofNat n) = true →
    isLetter (Char.ofNat n).toLower = true := by
  decide +kernel

theorem small_letter {c : Char} (hc : isLetter c = true) :
    ∃ d rest, small c = d :: rest ∧ isLetter d = true := by
  unfold small
  split
  · rename_i hascii
    have h := isLetter_toLower c.toNat hascii
    rw [Char.ofNat_toNat] at h
    exact ⟨_, _, rfl, h hc⟩
  · split
    · exact ⟨_, _, rfl, by decide +kernel⟩
    · have hmem := (inRanges_iff letterRanges_sorted).mp hc
      exact ⟨_, _, rfl, isLetter_ofNat (shiftCase_within (List.Subset.refl _) hmem)⟩

theorem smallAfter_letter {c : Char} (hc : isLetter c = true) (before more : List Char) :
    ∃ d rest, smallAfter before (c :: more) = d :: rest ∧ isLetter d = true := by
  unfold smallAfter
  split
  · refine ⟨_, _, rfl, ?_⟩
    unfold smallSigma
    split <;> decide +kernel
  · obtain ⟨d, rest, heq, hd⟩ := small_letter hc
    rw [heq]
    exact ⟨d, _, rfl, hd⟩

end Letters

/-- What starts with a letter starts with one in small letters. -/
theorem caseFold_letter {c : Char} (hc : isLetter c = true) (more : List Char) :
    ∃ d rest, (caseFold (String.ofList (c :: more))).toList = d :: rest ∧ isLetter d = true := by
  obtain ⟨d, rest, heq, hd⟩ := Letters.smallAfter_letter hc [] more
  refine ⟨d, rest, ?_, hd⟩
  unfold caseFold
  rw [String.toList_ofList (l := c :: more), String.toList_ofList, heq]

/-- What starts with a letter is not the name of a hidden variable. -/
theorem isHidden_caseFold {c : Char} (hc : isLetter c = true) (more : List Char) :
    isHidden (caseFold (String.ofList (c :: more))) = false := by
  obtain ⟨d, rest, hfold, hd⟩ := caseFold_letter hc more
  have hstem : ({} : Settings).whenStem.toList = '$' :: "when_".toList := by decide +kernel
  have hdollar : d ≠ '$' := by
    rintro rfl
    exact absurd hd (by decide +kernel)
  unfold isHidden
  rw [hfold, hstem, List.isPrefixOf_cons_cons]
  simp [hdollar.symm]

/-! ## The tokens of a text -/

/-- A name in a text starts with a letter. -/
theorem Scanner.identifier_letter {m : Mark} {cs : List Char} {t : Token}
    (ht : t ∈ tokens ⟨m, cs⟩) (hk : t.kind = .identifier) :
    ∃ c more, t.text = String.ofList (c :: more) ∧ isLetter c = true := by
  obtain ⟨before, l, after, h⟩ := exists_stands ht (by rw [hk]; exact TokenKind.noConfusion)
  have hname := (Lexeme.scan_kind l.first (l.more ++ after)).2
  rw [h.scanned, ← h.kind_eq, ← h.text_eq] at hname
  exact ⟨l.first, hname hk⟩

/-- What a parser sees of a text: the end once, no comment and no faulty token, and no name of a
hidden variable. -/
theorem grammaticalTokens_spec (source : String) :
    Parser.EndsOnce ((tokensOf source).filter Cursor.isGrammatical) ∧
      (∀ t ∈ (tokensOf source).filter Cursor.isGrammatical, t.kind ≠ .comment ∧ t.kind ≠ .error) ∧
      ∀ t ∈ (tokensOf source).filter Cursor.isGrammatical, t.kind = .identifier →
        t.asName.Visible := by
  refine ⟨?_, ?_, ?_⟩
  · obtain ⟨body, heq, hbody⟩ := Scanner.tokens_end .start source.toList
    have hkept : Cursor.isGrammatical (.endAt (Mark.start.after source.toList)) = true := rfl
    refine ⟨body.filter Cursor.isGrammatical, .endAt (Mark.start.after source.toList), ?_, rfl,
      fun t ht => ?_⟩
    · rw [tokensOf, Scanner.start, heq, List.filter_append, List.filter_cons_of_pos hkept,
        List.filter_nil]
    · exact beq_eq_false_iff_ne.mpr (hbody t (List.mem_filter.mp ht).1)
  · intro t ht
    simpa [Cursor.isGrammatical] using (List.mem_filter.mp ht).2
  · intro t ht hk
    obtain ⟨c, more, htext, hletter⟩ := Scanner.identifier_letter (List.mem_filter.mp ht).1 hk
    change isHidden (caseFold t.text) = false
    rw [htext]
    exact isHidden_caseFold hletter more

end PascalFront
