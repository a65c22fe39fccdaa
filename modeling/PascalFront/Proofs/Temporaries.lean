-- Which names are temporary. Runs on the same tokens read the same statements,
-- whatever they call their hidden variables. Under a stem that is longer than
-- every identifier, no name of the program stands for a hidden variable, so
-- there the table tells which WHEN statements have been read.
import PascalFront.Proofs.HiddenVariables

namespace PascalFront

namespace ParserState

variable {s u : ParserState}

theorem Twin.advance (h : Twin s u) : Twin s.advance u.advance := by
  obtain ⟨_, u', hrun, -, htwin⟩ :=
    Parser.Abreast.twin (p := Parser.advance) (q := Parser.advance) h rfl
  cases hrun
  exact htwin

/-- Under a stem longer than all identifiers, none of them is called like a hidden variable. -/
theorem exists_wordsApart (settings : Settings) (s : ParserState) :
    ∃ stem, s.WordsApart { settings with whenStem := stem } := by
  let letters (t : Token) := (caseFold t.text).toList
  let all := (s.cursor.tokens.map letters).flatten
  refine ⟨String.ofList ('$' :: all), ?_⟩
  rintro t ht - ⟨line, hname⟩
  have hle : (letters t).length ≤ all.length :=
    (List.sublist_flatten_of_mem (List.mem_map_of_mem ht)).length_le
  have hlength : (letters t).length =
      ('$' :: all).length + (Nat.toDigits 10 line).length := by
    rw [← String.toList_ofList (l := '$' :: all), ← List.length_append]
    exact congrArg List.length ((congrArg String.toList hname).trans (toList_whenName _ line))
  rw [List.length_cons] at hlength
  omega

end ParserState

namespace Parser

open ParserState

/-! ## Headers under another stem -/

instance : Abreast (pure true) (pure true) := abreast_pure rfl

instance : Abreast thenHeader thenHeader := by unfold thenHeader; infer_instance

instance : Abreast whileHeader whileHeader := by unfold whileHeader; infer_instance

instance : Abreast countingHeader countingHeader := by unfold countingHeader; infer_instance

section

variable {settings other : Settings}

instance : Abreast (negativeHeader settings) (negativeHeader other) := by
  unfold negativeHeader; infer_instance

variable [SameLimit settings other]

instance : Abreast (elseHeader settings) (elseHeader other) := by
  unfold elseHeader; infer_instance

instance : Abreast (zeroHeader settings) (zeroHeader other) := by
  unfold zeroHeader; infer_instance

instance : Abreast (positiveHeader settings) (positiveHeader other) := by
  unfold positiveHeader; infer_instance

variable (other)

theorem exists_header_abreast {k : TokenKind} {header : Parser Bool}
    (h : header ∈ headers settings k) : ∃ header' ∈ headers other k, Abreast header header' := by
  cases k <;> simp only [headers, List.mem_cons, List.not_mem_nil, or_false] at h ⊢
  case kwIf =>
    rcases h with rfl | rfl
    · exact ⟨_, .inl rfl, inferInstance⟩
    · exact ⟨_, .inr rfl, inferInstance⟩
  case kwWhile =>
    rw [h]
    exact ⟨_, rfl, inferInstance⟩
  case kwLoop =>
    rw [h]
    exact ⟨_, rfl, inferInstance⟩
  case kwWhen =>
    rcases h with rfl | rfl | rfl
    · exact ⟨_, .inl rfl, inferInstance⟩
    · exact ⟨_, .inr (.inl rfl), inferInstance⟩
    · exact ⟨_, .inr (.inr rfl), inferInstance⟩

/-! ## Statements under another stem -/

variable {s s' u : ParserState}

theorem ReachesItem.twin {closer : TokenKind} {nodes : List Node}
    (h : ReachesItem settings closer nodes s s') (hsu : Twin s u) (nodes' : List Node) :
    ∃ u', ReachesItem other closer nodes' u u' ∧ Twin s' u' := by
  induction h generalizing u nodes' with
  | here hcloser hend =>
    rw [← hsu.kind] at hcloser hend
    exact ⟨u, .here hcloser hend, hsu⟩
  | @later nodes nodes₁ s s₁ s' hturn _ ih =>
    obtain ⟨o, u₁, hturn', hlike, htwin⟩ := Abreast.twin
      (q := listTurn other (statement other) closer nodes') hsu hturn
    cases o with
    | none => exact hlike.elim
    | some nodes₁' =>
      obtain ⟨u', hitem, htwin'⟩ := ih htwin nodes₁'
      exact ⟨u', .later hturn' hitem, htwin'⟩

theorem ReachesPart.twin (h : ReachesPart settings s s') (hsu : Twin s u) :
    ∃ u', ReachesPart other u u' ∧ Twin s' u' := by
  cases h with
  | header hmem hrun =>
    obtain ⟨header', hmem', _⟩ := exists_header_abreast other hmem
    obtain ⟨b, u', hrun', rfl, htwin⟩ := Abreast.twin (q := header') hsu hrun
    exact ⟨u', .header (hsu.kind ▸ hmem') hrun', htwin⟩
  | item hcloser hitem =>
    obtain ⟨u', hitem', htwin⟩ := hitem.twin other hsu.advance []
    exact ⟨u', .item (hsu.kind ▸ hcloser) hitem', htwin⟩

theorem ReachesWithin.twin (h : ReachesWithin settings s s') (hsu : Twin s u) :
    ∃ u', ReachesWithin other u u' ∧ Twin s' u' := by
  induction h with
  | refl => exact ⟨u, .refl, hsu⟩
  | tail _ hpart ih =>
    obtain ⟨u₁, hwithin, htwin⟩ := ih
    obtain ⟨u', hpart', htwin'⟩ := hpart.twin other htwin
    exact ⟨u', .tail hwithin hpart', htwin'⟩

/-- A run under another stem reads the same statements. -/
theorem ReachesStatement.twin (h : ReachesStatement settings s s') (hsu : Twin s u) :
    ∃ u', ReachesStatement other u u' ∧ Twin s' u' := by
  cases h with
  | block hk hitem hwithin =>
    obtain ⟨u₁, hitem', htwin⟩ := hitem.twin other hsu.advance []
    obtain ⟨u', hwithin', htwin'⟩ := hwithin.twin other htwin
    exact ⟨u', .block (hsu.kind.trans hk) hitem' hwithin', htwin'⟩
  | bare hk hitem hwithin =>
    obtain ⟨u₁, hitem', htwin⟩ := hitem.twin other hsu []
    obtain ⟨u', hwithin', htwin'⟩ := hwithin.twin other htwin
    exact ⟨u', .bare (hsu.kind ▸ hk) hitem' hwithin', htwin'⟩

end

theorem EvaluatesWhen.twin {s u : ParserState} {line : Nat} (h : EvaluatesWhen s line)
    (hsu : Twin s u) : EvaluatesWhen u line := by
  obtain ⟨hk, hline, value, s', hvalue⟩ := h
  obtain ⟨value', u', hvalue', -, -⟩ := Abreast.twin (q := expression) hsu.advance hvalue
  exact ⟨hsu.kind.trans hk, hsu.advance.line.trans hline, value', u', hvalue'⟩

/-! ## The temporary names -/

/-- A name is temporary when a WHEN statement stands on its line whose expression the run reads. -/
theorem isTemporary_iff (settings : Settings) (ts : List Token) (name : String) :
    IsTemporary settings ts name ↔ ∃ line, name = settings.whenName line ∧
      ∃ s, ReachesStatement settings (.start ts {}) s ∧ EvaluatesWhen s line := by
  constructor
  · rintro ⟨line, hname, hhidden⟩
    obtain ⟨stem, hwords⟩ := exists_wordsApart settings (.start ts {})
    have : SameLimit { settings with whenStem := stem } settings := ⟨rfl⟩
    obtain ⟨u, hreads, hwhen⟩ := (hides_program_iff hwords rfl line).mp (hhidden stem)
    obtain ⟨s, hreads', htwin⟩ := hreads.twin settings (twin_start ts {})
    exact ⟨line, hname, s, hreads', hwhen.twin htwin⟩
  · rintro ⟨line, hname, s, hreads, hwhen⟩
    refine ⟨line, hname, fun stem => ?_⟩
    have : SameLimit settings { settings with whenStem := stem } := ⟨rfl⟩
    obtain ⟨u, hreads', htwin⟩ :=
      hreads.twin { settings with whenStem := stem } (twin_start ts {})
    exact ((hwhen.twin htwin).hides _).steps hreads'.steps

end Parser

end PascalFront
