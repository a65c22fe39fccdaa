-- Letter case in a whole parse. A parser looks at the kinds, the values and the
-- places of tokens; the one text that it reads is a name, which it enters in
-- small letters. So two texts that are the same but for letter case outside
-- strings and comments give the same tree, the same failure and the same table.
import PascalFront.Proofs.LetterCase
import PascalFront.Proofs.Resemblance
import PascalFront.Proofs.Tiling

namespace PascalFront

open String (utf8Len)

/-! ## What may differ -/

/-- Two diagnostics that are the same, but for the letter case of a text that was found. -/
inductive Diagnostic.Recased : Diagnostic → Diagnostic → Prop
  | refl (d : Diagnostic) : Recased d d
  | found (d : Diagnostic) (span : Span) {x y : String} : x.toLower = y.toLower →
      Recased (d.label span ("found `" ++ x ++ "`")) (d.label span ("found `" ++ y ++ "`"))

namespace Token.Recased

variable {t t' : Token}

theorem exists_text (h : t.Recased t') :
    ∃ text, t.text.toLower = text.toLower ∧ t' = { t with text } := ⟨t'.text, h.text, h.rest⟩

/-- A name is read in one way only. -/
theorem caseFold_eq (h : t.Recased t') : caseFold t'.text = caseFold t.text := by
  rw [← caseFold_toLower, ← h.text, caseFold_toLower]

/-- The fault of a token does not depend on letter case. -/
theorem fault_eq (h : t.Recased t') :
    Diagnostic.ofErrorToken? t' = Diagnostic.ofErrorToken? t := by
  rw [h.rest]
  rfl

theorem atToken (h : t.Recased t') (cause : Cause) :
    (Diagnostic.atToken t cause).Recased (.atToken t' cause) := by
  obtain ⟨y, hletters, rfl⟩ := h.exists_text
  obtain ⟨kind, x, value, span, position⟩ := t
  cases hend : kind == .endOfFile with
  | true =>
    have heq : Diagnostic.atToken ⟨kind, y, value, span, position⟩ cause =
        .atToken ⟨kind, x, value, span, position⟩ cause := by
      simp [Diagnostic.atToken, Token.isEnd, hend]
    rw [heq]
    exact .refl _
  | false =>
    have hfound (z : String) : Diagnostic.atToken ⟨kind, z, value, span, position⟩ cause =
        { Diagnostic.ofCause .parser span cause with position := some position }.label span
          ("found `" ++ z ++ "`") := by
      simp [Diagnostic.atToken, Token.isEnd, hend, Diagnostic.label]
    rw [hfound, hfound]
    exact .found _ _ hletters

end Token.Recased

/-- Letter case is one of the things that a parser does not see. -/
def Resemblance.letterCase : Resemblance where
  tokens := Token.Recased
  diagnostics := Diagnostic.Recased
  refl := .refl
  rest {t t'} h := by
    have hspan : t'.span = t.span := by rw [h.rest]
    rw [hspan]
    exact h.rest
  name h := h.caseFold_eq
  closing {t t'} h := by
    have hclosing : Cursor.closing t' = Cursor.closing t := by
      rw [h.rest]
      rfl
    exact hclosing ▸ .refl _
  fault {t t'} h := by
    rw [h.fault_eq]
    cases Diagnostic.ofErrorToken? t with
    | none => exact .none
    | some d => exact .some (.refl d)
  atToken h cause := h.atToken cause

/-! ## Source texts -/

/-- A token takes the character of a text with this number. -/
def Token.Covers (t : Token) (source : String) (i : Nat) : Prop :=
  ∃ before l after, Scanner.Stands .start source.toList t before l after ∧
    before.length ≤ i ∧ i < before.length + l.taken.length

/-- Two texts that are the same but for the letter case of ASCII letters, and no letter of a string
or a comment is one of them, whether or not the string or the comment has an end. -/
structure Recasing (a b : String) : Prop where
  letters : a.toLower = b.toLower
  outside : ∀ i, a.toList[i]? ≠ b.toList[i]? →
    ∀ t ∈ tokensOf a, t.isVerbatim = true → ¬ t.Covers a i

/-- Two outcomes that are the same but for the letter case of texts that were found. -/
structure Outcome.Recased (o o' : Outcome) : Prop where
  tree : o'.tree = o.tree
  symbols : o'.symbols = o.symbols
  diagnostics : List.Forall₂ Diagnostic.Recased o.diagnostics o'.diagnostics

section

variable {a b : String}

/-- What a token takes lies within its span. -/
theorem Token.Covers.within {t : Token} {i : Nat} (h : t.Covers a i)
    (hlength : a.utf8ByteSize < 0x100000000) : i < a.length ∧
      t.span.start ≤ utf8Len (a.toList.take i) ∧ utf8Len (a.toList.take i) < t.span.stop := by
  obtain ⟨before, l, after, hs, hle, hlt⟩ := h
  have htake : a.toList.take i = before ++ l.taken.take (i - before.length) := by
    rw [hs.text, List.take_append, List.take_of_length_le hle,
      List.take_append_of_le_length (by omega)]
  have hrest : l.taken.drop (i - before.length) ≠ [] := by
    rw [Ne, List.drop_eq_nil_iff]
    omega
  have hparts : utf8Len l.taken =
      utf8Len (l.taken.take (i - before.length)) + utf8Len (l.taken.drop (i - before.length)) := by
    rw [← String.utf8Len_append, List.take_append_drop]
  have hpos := utf8Len_pos hrest
  have hwhole := congrArg List.length hs.text
  rw [String.length_toList, List.length_append, List.length_append] at hwhole
  rw [hs.span hlength, htake, String.utf8Len_append, String.utf8Len_append]
  dsimp only
  omega

theorem toLower_eq_toLower_iff :
    a.toLower = b.toLower ↔ smallLetters a.toList = smallLetters b.toList := by
  rw [← String.toList_inj, toList_toLower, toList_toLower]

/-- It is enough to look at the spans. -/
theorem recasing_of_spans (hlength : a.utf8ByteSize < 0x100000000)
    (hletters : smallLetters a.toList = smallLetters b.toList)
    (houtside : ∀ i < a.length, a.toList[i]? ≠ b.toList[i]? →
      ∀ t ∈ tokensOf a, t.isVerbatim = true →
        utf8Len (a.toList.take i) < t.span.start ∨ t.span.stop ≤ utf8Len (a.toList.take i)) :
    Recasing a b := by
  refine ⟨toLower_eq_toLower_iff.mpr hletters, fun i hne t ht hv hcovers => ?_⟩
  obtain ⟨hi, hstart, hstop⟩ := hcovers.within hlength
  have := houtside i hi hne t ht hv
  omega

theorem Recasing.keepsVerbatim (h : Recasing a b) :
    Scanner.KeepsVerbatim .start a.toList b.toList := by
  intro t ht hv before l after hs
  refine List.ext_getElem? fun i => ?_
  rw [List.getElem?_take, List.getElem?_drop]
  split
  · rename_i hi
    have hsame : a.toList[before.length + i]? = b.toList[before.length + i]? := by
      by_contra hne
      exact h.outside _ hne t ht hv ⟨before, l, after, hs, by omega, by omega⟩
    rw [← hsame, hs.text, List.getElem?_append_right (by omega), Nat.add_sub_cancel_left,
      List.getElem?_append_left hi]
  · rw [List.getElem?_eq_none (by omega)]

theorem Recasing.tokens (h : Recasing a b) :
    List.Forall₂ Token.Recased (tokensOf a) (tokensOf b) :=
  Scanner.tokens_recased (toLower_eq_toLower_iff.mp h.letters).symm h.keepsVerbatim

theorem Parser.runOn_recased {p : Parser Node} [Blind .letterCase p] (h : Recasing a b) :
    (p.runOn a).Recased (p.runOn b) := by
  have htokens : List.Forall₂ Resemblance.letterCase.tokens (tokensOf a) (tokensOf b) := h.tokens
  have hrun := runOn_alike (p := p) (Resemblance.grammatical htokens) (Resemblance.faults htokens)
  exact ⟨hrun.tree, hrun.symbols, hrun.diagnostics⟩

end

/-- Letter case outside strings and comments makes no difference to the tree or the failure, nor to
the table, and none to the diagnostics but in the texts that they say were found. -/
theorem letter_case_makes_no_difference (settings : Settings) {a b : String} (h : Recasing a b) :
    (parseProgram settings a).Recased (parseProgram settings b) :=
  Parser.runOn_recased h

/-- A program with two syntax errors, a number without its end and a comment without its end. -/
def loudSource : String :=
  "BEGIN Alpha := 1E2 \x7b Two \x7d + \x27It\x27 Beta; GAMMA := 3E+ END. \x7b Open"

/-- The same program in other letter case. -/
def quietSource : String :=
  "begin alpha := 1e2 \x7b Two \x7d + \x27It\x27 beta; gamma := 3e+ end. \x7b Open"

theorem loudSource_is_quietSource : Recasing loudSource quietSource ∧
    (parseProgram {} loudSource).diagnostics.flatMap (·.labels.map Label.text) =
      ["invalid number", "unexpected end of file", "found `Beta`", "found `END`"] ∧
    (parseProgram {} quietSource).diagnostics.flatMap (·.labels.map Label.text) =
      ["invalid number", "unexpected end of file", "found `beta`", "found `end`"] ∧
    (parseProgram {} loudSource).Recased (parseProgram {} quietSource) := by
  have h : Recasing loudSource quietSource :=
    recasing_of_spans (by decide +kernel) (by decide +kernel) (by decide +kernel)
  exact ⟨h, by decide +kernel, by decide +kernel, letter_case_makes_no_difference {} h⟩

end PascalFront
