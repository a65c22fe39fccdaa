-- Comments are as good as blanks. Whether a character belongs to a comment can be
-- told from left to right: a brace opens one, unless it stands in a string, or no
-- brace behind it closes it. The scanner cuts a text in the same way. So a text
-- with blanks for its comments has the tokens that count, at the same places, and
-- a parser does the same with them.
import PascalFront.Proofs.Blanks
import PascalFront.Proofs.Resemblance

namespace PascalFront

open Lexeme (openBrace closeBrace quoteMark)

/-! ## The characters of comments -/

/-- What the next character of a text stands in. -/
inductive Region where
  | code
  | string
  | comment

/-- The characters of a text, each with whether it belongs to a closed comment. A comment goes from
its opening brace through the next closing brace, and without one there is no closed comment. -/
def marked : Region → List Char → List (Char × Bool)
  | _, [] => []
  | .code, c :: cs =>
    if c = openBrace ∧ closeBrace ∈ cs then (c, true) :: marked .comment cs
    else (c, false) :: marked (if c = quoteMark then .string else .code) cs
  | .string, c :: cs => (c, false) :: marked (if c = quoteMark then .code else .string) cs
  | .comment, c :: cs => (c, true) :: marked (if c = closeBrace then .code else .comment) cs

/-- The characters of the closed comments of a source. -/
def commentChars (source : String) : List Char :=
  ((marked .code source.toList).filter (·.2)).map (·.1)

/-- What comments are overwritten with: any blanks, but line feeds for line feeds only. -/
structure Blanking where
  blank : Char → Char
  isBlank_blank : ∀ c, isBlank (blank c) = true
  lineFeed : ∀ c, blank c = '\n' ↔ c = '\n'

namespace Blanking

/-- Spaces, and the line feeds as they are. -/
def spaces : Blanking where
  blank c := if c = '\n' then '\n' else ' '
  isBlank_blank c := by
    split <;> decide +kernel
  lineFeed c := by
    split <;> simp_all

/-- A character, overwritten if it is marked. -/
def fill (b : Blanking) (p : Char × Bool) : Char := if p.2 then b.blank p.1 else p.1

/-- A source with its closed comments overwritten, character by character. -/
def overwrite (b : Blanking) (source : String) : String :=
  String.ofList ((marked .code source.toList).map b.fill)

end Blanking

theorem map_fst_pair (flag : Bool) (cs : List Char) : (cs.map (·, flag)).map (·.1) = cs := by
  rw [List.map_map]
  exact List.map_id _

theorem Blanking.map_fill_false (b : Blanking) (cs : List Char) :
    (cs.map (·, false)).map b.fill = cs := by
  rw [List.map_map]
  exact List.map_id _

theorem Blanking.blank_of_marked (b : Blanking) (cs : List Char) :
    ∀ c ∈ (cs.map (·, true)).map b.fill, isBlank c = true := by
  simp only [List.map_map, List.forall_mem_map]
  exact fun c _ => b.isBlank_blank c

theorem map_fst_marked (r : Region) (cs : List Char) : (marked r cs).map (·.1) = cs := by
  induction cs generalizing r with
  | nil => cases r <;> rfl
  | cons c cs ih =>
    cases r with
    | code =>
      unfold marked
      split <;> rw [List.map_cons, ih]
    | string => rw [marked, List.map_cons, ih]
    | comment => rw [marked, List.map_cons, ih]

/-! ## Comments among lexemes -/

/-- A character that begins neither a comment nor a string. -/
def OpensNothing (c : Char) : Prop := c ≠ openBrace ∧ c ≠ quoteMark

theorem opensNothing_of_blank {c : Char} (h : isBlank c = true) : OpensNothing c :=
  ⟨ne_of_blank h (by decide), ne_of_blank h (by decide)⟩

theorem marked_plain {cs : List Char} (h : ∀ c ∈ cs, OpensNothing c) (after : List Char) :
    marked .code (cs ++ after) = cs.map (·, false) ++ marked .code after := by
  induction cs with
  | nil => rfl
  | cons c cs ih =>
    obtain ⟨⟨hbrace, hquote⟩, hrest⟩ := List.forall_mem_cons.mp h
    simp [marked, hbrace, hquote, ih hrest]

theorem marked_inside {inside : List Char} (h : closeBrace ∉ inside) (after : List Char) :
    marked .comment (inside ++ closeBrace :: after) =
      (inside ++ [closeBrace]).map (·, true) ++ marked .code after := by
  induction inside with
  | nil => simp [marked]
  | cons c inside ih =>
    have hc : c ≠ closeBrace := (List.ne_of_not_mem_cons h).symm
    simp [marked, hc, ih (List.not_mem_of_not_mem_cons h)]

theorem marked_closed {inside : List Char} (h : closeBrace ∉ inside) (after : List Char) :
    marked .code (openBrace :: (inside ++ closeBrace :: after)) =
      (openBrace :: (inside ++ [closeBrace])).map (·, true) ++ marked .code after := by
  have hmem : closeBrace ∈ inside ++ closeBrace :: after := by simp
  rw [marked, if_pos ⟨rfl, hmem⟩, marked_inside h]
  rfl

/-- Where nothing closes a comment, there is none. -/
theorem marked_unclosed {cs : List Char} (h : closeBrace ∉ cs) {r : Region} (hr : r ≠ .comment) :
    marked r cs = cs.map (·, false) := by
  induction cs generalizing r with
  | nil => cases r <;> rfl
  | cons c cs ih =>
    have hrest := List.not_mem_of_not_mem_cons h
    cases r with
    | code =>
      rw [marked, if_neg fun hc => hrest hc.2, ih hrest (by split <;> nofun), List.map_cons]
    | string => rw [marked, ih hrest (by split <;> nofun), List.map_cons]
    | comment => exact absurd rfl hr

theorem marked_quote (cs : List Char) :
    marked .code (quoteMark :: cs) = (quoteMark, false) :: marked .string cs := by
  have hbrace : quoteMark ≠ openBrace := by decide
  simp [marked, hbrace]

/-- A doubled quote ends a string and begins another one, which is the same here. -/
theorem marked_quoted (s after : List Char) :
    marked .string (Lexeme.doubled s ++ quoteMark :: after) =
      (Lexeme.doubled s ++ [quoteMark]).map (·, false) ++ marked .code after := by
  induction s with
  | nil => simp [marked, Lexeme.doubled]
  | cons c s ih =>
    by_cases hc : c = quoteMark
    · rw [hc, Lexeme.doubled_quote, List.cons_append, List.cons_append, marked, if_pos rfl,
        marked_quote, ih]
      rfl
    · rw [Lexeme.doubled_other hc, List.cons_append, marked, if_neg hc, ih]
      rfl

theorem marked_unquoted {cs : List Char} (h : Lexeme.quoted? cs = none) :
    marked .string cs = cs.map (·, false) := by
  induction cs using Lexeme.quoted?.induct with
  | case1 => rfl
  | case2 tail ih =>
    have htail : Lexeme.quoted? tail = none := by simpa [Lexeme.quoted?] using h
    rw [marked, if_pos rfl, marked_quote, ih htail]
    rfl
  | case3 d tail hd => simp [Lexeme.quoted?, hd] at h
  | case4 => simp [Lexeme.quoted?] at h
  | case5 c tail hc ih =>
    have htail : Lexeme.quoted? tail = none := by simpa [Lexeme.quoted?_other hc] using h
    rw [marked, if_neg hc, ih htail]
    rfl

namespace Lexeme

theorem opensNothing_of_wordChar {c : Char} (h : isWordChar c = true) : OpensNothing c := by
  constructor
  · rintro rfl
    exact absurd h (by decide +kernel)
  · rintro rfl
    exact absurd h (by decide +kernel)

theorem opensNothing_of_digit {c : Char} (h : isDigit c = true) : OpensNothing c := by
  constructor
  · rintro rfl
    exact absurd h (by decide)
  · rintro rfl
    exact absurd h (by decide)

theorem Numeral.opensNothing {n : Numeral} (hn : n.WellFormed) : ∀ c ∈ n.chars, OpensNothing c := by
  have hdigits {ds : List Char} (hds : AllDigits ds) : ∀ c ∈ ds, OpensNothing c :=
    fun c hc => opensNothing_of_digit (hds c hc)
  have hpoint : OpensNothing '.' := by constructor <;> decide
  have hfraction : ∀ c ∈ fractionChars n.fraction, OpensNothing c := by
    cases hf : n.fraction with
    | none => nofun
    | some ds => exact List.forall_mem_cons.mpr ⟨hpoint, hdigits (hn.fraction ds hf).2⟩
  have hexponent : ∀ c ∈ exponentChars n.exponent, OpensNothing c := by
    cases he : n.exponent with
    | none => nofun
    | some parts =>
      obtain ⟨e, s, ds⟩ := parts
      obtain ⟨hletter, hsign, hall⟩ := hn.exponent e s ds he
      refine List.forall_mem_cons.mpr ⟨?_, List.forall_mem_append.mpr ⟨?_, hdigits hall⟩⟩
      · rcases hletter with rfl | rfl <;> constructor <;> decide
      · rcases hsign with rfl | rfl | rfl
        · nofun
        · exact List.forall_mem_singleton.mpr (by constructor <;> decide)
        · exact List.forall_mem_singleton.mpr (by constructor <;> decide)
  unfold chars
  exact List.forall_mem_append.mpr
    ⟨List.forall_mem_append.mpr ⟨hdigits hn.whole, hfraction⟩, hexponent⟩

/-- No symbol of two characters has a brace or a quote in it. -/
theorem opensNothing_of_pair {c d : Char} {k : TokenKind}
    (hk : TokenKind.specialSymbol? (String.ofList [c, d]) = some k) : OpensNothing d := by
  have hall : ∀ k ∈ TokenKind.all, ∀ s ∈ k.spelling, s.toList.length = 2 →
      s.toList.all (fun x => x != openBrace && x != quoteMark) = true := by
    decide +kernel
  have hspelling := (TokenKind.specialSymbol?_eq_some hk).2
  have hpair := hall k (TokenKind.mem_all k) _ hspelling
  rw [String.toList_ofList] at hpair
  have hd := List.all_eq_true.mp (hpair rfl) d (by simp)
  simpa [OpensNothing] using hd

theorem opensNothing_of_scan {c : Char} (hc : OpensNothing c) (rest : List Char) :
    ∀ d ∈ (scan c rest).taken, OpensNothing d := by
  have hread := readBy_scan c
  generalize scan c = scanner at hread ⊢
  cases hread with
  | comment => exact absurd rfl hc.1
  | word =>
    exact List.forall_mem_cons.mpr ⟨hc, fun d hd =>
      opensNothing_of_wordChar (List.mem_takeWhile_imp hd)⟩
  | number _ _ hdigit =>
    rw [taken_number hdigit]
    exact Numeral.opensNothing (Numeral.read_spec _).1
  | string => exact absurd rfl hc.2
  | symbol =>
    have hform := symbol_form c rest
    generalize symbol c rest = l at hform ⊢
    cases hform with
    | pair hk =>
      exact List.forall_mem_cons.mpr ⟨hc, List.forall_mem_singleton.mpr (opensNothing_of_pair hk)⟩
    | single => exact List.forall_mem_singleton.mpr hc
    | unknown => exact List.forall_mem_singleton.mpr hc

/-- In front of a text, all characters of a lexeme are marked when it is a comment and none of them
otherwise, and what is behind the lexeme is marked as it is by itself. -/
def MarkedAlike (l : Lexeme) (rest : List Char) : Prop :=
  ∃ after, rest = l.more ++ after ∧
    marked .code (l.first :: rest) = l.taken.map (·, l.kind == .comment) ++ marked .code after

theorem comment_markedAlike (rest : List Char) : (comment rest).MarkedAlike rest := by
  rcases unclosed_or_closed rest with h | ⟨inside, after, rfl, h⟩
  · have hnone : closeBrace ∉ openBrace :: rest :=
      List.not_mem_cons_of_ne_of_not_mem (by decide) h
    have hmarked : marked .code (openBrace :: rest) = (openBrace :: rest).map (·, false) :=
      marked_unclosed hnone (by nofun)
    rw [comment_unclosed h]
    exact ⟨[], by simp, hmarked.trans (List.append_nil _).symm⟩
  · rw [comment_closed h]
    exact ⟨after, by simp, marked_closed h after⟩

theorem quotedString_markedAlike (rest : List Char) : (quotedString rest).MarkedAlike rest := by
  rcases unquoted_or_quoted rest with h | ⟨s, after, rfl, hafter⟩
  · have hmarked : marked .code (quoteMark :: rest) = (quoteMark :: rest).map (·, false) := by
      rw [marked_quote, marked_unquoted h, List.map_cons]
    rw [quotedString_unclosed h]
    exact ⟨[], by simp [faulty, plain], hmarked.trans (List.append_nil _).symm⟩
  · have hmarked := marked_quoted s after
    rw [quotedString_closed s hafter]
    refine ⟨after, by simp [plain], ?_⟩
    rw [plain, marked_quote, hmarked]
    rfl

/-- Whatever a text begins with, comments and nothing else are marked in it. -/
theorem scan_markedAlike (c : Char) (rest : List Char) : (scan c rest).MarkedAlike rest := by
  by_cases hc : OpensNothing c
  · obtain ⟨after, hsplit, -⟩ := (scan_longest c).splits rest
    have hkind : ((scan c rest).kind == .comment) = false :=
      beq_eq_false_iff_ne.mpr (scan_plain hc.1 rest).2
    have htaken : (scan c rest).first :: rest = (scan c rest).taken ++ after := by
      rw [taken, List.cons_append, ← hsplit]
    refine ⟨after, hsplit, ?_⟩
    rw [htaken, hkind]
    exact marked_plain (opensNothing_of_scan hc rest) after
  · have hread := readBy_scan c
    generalize scan c = scanner at hread ⊢
    cases hread with
    | comment => exact comment_markedAlike rest
    | string => exact quotedString_markedAlike rest
    | word _ hletter =>
      exact absurd (opensNothing_of_wordChar (by simp [isWordChar, hletter])) hc
    | number _ _ hdigit => exact absurd (opensNothing_of_digit hdigit) hc
    | symbol hbrace _ _ hquote => exact absurd ⟨hbrace, hquote⟩ hc

end Lexeme

/-! ## Places -/

-- Lines and columns never move, bytes only when a blank has another size than the
-- character below it. So `exact` says whether bytes are compared as well, and one
-- induction serves for both.

/-- Two marks at the same place of two texts, and behind the same number of bytes if `exact`. -/
structure Mark.Beside (exact : Prop) (m m' : Mark) : Prop where
  position : m'.position = m.position
  offset : exact → m'.offset = m.offset

/-- Two tokens that are the same but for the span, and the span as well if `exact`. -/
structure Token.Beside (exact : Prop) (t t' : Token) : Prop where
  rest : t' = { t with span := t'.span }
  span : exact → t'.span = t.span

/-- Every marked character gets a blank of as many bytes. -/
def Blanking.KeepsBytes (b : Blanking) (ps : List (Char × Bool)) : Prop :=
  ∀ p ∈ ps, p.2 = true → (b.blank p.1).utf8Size = p.1.utf8Size

theorem Blanking.keepsBytes_append {b : Blanking} {ps qs : List (Char × Bool)} :
    b.KeepsBytes (ps ++ qs) ↔ b.KeepsBytes ps ∧ b.KeepsBytes qs := List.forall_mem_append

section

variable {exact : Prop} {m m' : Mark} (b : Blanking)

theorem Mark.Beside.step (h : m.Beside exact m') {p : Char × Bool}
    (hbytes : exact → p.2 = true → (b.blank p.1).utf8Size = p.1.utf8Size) :
    (m.step p.1).Beside exact (m'.step (b.fill p)) := by
  obtain ⟨c, inComment⟩ := p
  cases inComment with
  | false =>
    refine ⟨?_, fun he => ?_⟩
    · exact congrArg (Position.after · c) h.position
    · exact congrArg (· + c.utf8Size) (h.offset he)
  | true =>
    refine ⟨?_, fun he => ?_⟩
    · have hfeed := b.lineFeed c
      simp only [Mark.step, Blanking.fill, Position.after, h.position, if_true, hfeed]
    · have hsize : (b.blank c).utf8Size = c.utf8Size := hbytes he rfl
      simp only [Mark.step, Blanking.fill, if_true, h.offset he, hsize]

/-- Overwriting moves nothing in lines and columns. -/
theorem Mark.Beside.after (h : m.Beside exact m') {ps : List (Char × Bool)}
    (hbytes : exact → b.KeepsBytes ps) :
    (m.after (ps.map (·.1))).Beside exact (m'.after (ps.map b.fill)) := by
  induction ps generalizing m m' with
  | nil => exact h
  | cons p ps ih =>
    have hstep := h.step b fun he => hbytes he p List.mem_cons_self
    exact ih hstep fun he p hp => hbytes he p (List.mem_cons_of_mem _ hp)

theorem Mark.Beside.placed (h : m.Beside exact m') (l : Lexeme) :
    (l.placed m).Beside exact (l.placed m') := by
  refine ⟨?_, fun he => ?_⟩
  · simp only [Lexeme.placed, h.position]
  · simp only [Lexeme.placed, Mark.offset_after, h.offset he]

theorem Mark.Beside.endAt (h : m.Beside exact m') :
    (Token.endAt m).Beside exact (Token.endAt m') := by
  refine ⟨?_, fun he => ?_⟩
  · simp only [Token.endAt, h.position]
  · simp only [Token.endAt, h.offset he]

end

/-! ## Texts without their comments -/

namespace Scanner

open Lexeme

theorem upToBlank_fill (b : Blanking) (ps : List (Char × Bool)) :
    UpToBlank (ps.map (·.1)) (ps.map b.fill) := by
  induction ps with
  | nil => exact .nil
  | cons p ps ih =>
    obtain ⟨c, inComment⟩ := p
    cases inComment with
    | false => exact .cons c ih
    | true => exact .blank _ _ (b.isBlank_blank c)

/-- The characters up to the end of a lexeme, with the lexeme marked if it is a comment. -/
theorem marked_reads {blanks after : List Char} {l : Lexeme} (h : Reads blanks l after) :
    marked .code (blanks ++ (l.taken ++ after)) =
      (blanks.map (·, false) ++ l.taken.map (·, l.kind == .comment)) ++ marked .code after := by
  have hblanks : ∀ c ∈ blanks, OpensNothing c := fun c hc => opensNothing_of_blank (h.blanks c hc)
  have halike := scan_markedAlike l.first (l.more ++ after)
  rw [h.scanned] at halike
  obtain ⟨after', hsplit, hmarked⟩ := halike
  obtain rfl := List.append_cancel_left hsplit
  have htaken : l.taken ++ after = l.first :: (l.more ++ after) := rfl
  rw [marked_plain hblanks, htaken, hmarked, List.append_assoc]

theorem marked_blank {cs : List Char} (h : ∀ c ∈ cs, isBlank c = true) :
    marked .code cs = cs.map (·, false) := by
  have := marked_plain (fun c hc => opensNothing_of_blank (h c hc)) []
  rwa [List.append_nil, marked, List.append_nil] at this

/-- A lexeme is read in front of an overwritten text as it is read in front of the text. -/
theorem Reads.overwritten {blanks after : List Char} {l : Lexeme} (h : Reads blanks l after)
    (b : Blanking) : Reads blanks l ((marked .code after).map b.fill) := by
  have hseam := upToBlank_fill b (marked .code after)
  rw [map_fst_marked] at hseam
  exact ⟨h.blanks, h.visible, scan_upToBlank h.scanned hseam fun _ hafter => by rw [hafter]; rfl⟩

/-- The tokens of an overwritten text are the tokens of the text but the comments, at their
places. -/
theorem tokens_overwritten (b : Blanking) {exact : Prop} {m m' : Mark} (hm : m.Beside exact m')
    (cs : List Char) (hbytes : exact → b.KeepsBytes (marked .code cs)) :
    List.Forall₂ (Token.Beside exact) ((tokens ⟨m, cs⟩).filter (·.kind != .comment))
      (tokens ⟨m', (marked .code cs).map b.fill⟩) := by
  induction cs using text_induction generalizing m m' with
  | blank cs h =>
    have hmarks := hm.after b hbytes
    have hsame : (marked .code cs).map b.fill = cs := by
      rw [marked_blank h, b.map_fill_false]
    rw [map_fst_marked, hsame] at hmarks
    rw [hsame, tokens_blank m h, tokens_blank m' h]
    exact .cons hmarks.endAt .nil
  | lexeme blanks l after h ih =>
    rw [marked_reads h] at hbytes ⊢
    simp only [Blanking.keepsBytes_append] at hbytes
    have hbefore := hm.after b fun he => (hbytes he).1.1
    have hpast := hm.after b fun he => Blanking.keepsBytes_append.mpr (hbytes he).1
    rw [map_fst_pair, b.map_fill_false] at hbefore
    rw [List.map_append, List.map_append, map_fst_pair, map_fst_pair, b.map_fill_false] at hpast
    rw [tokens_reads m h, List.map_append, List.map_append, b.map_fill_false]
    cases hkind : l.kind == .comment with
    | true =>
      -- the whole comment is blank now, and so it goes with the blanks in front of it
      have hall := List.forall_mem_append.mpr ⟨h.blanks, b.blank_of_marked l.taken⟩
      have hdrop : (l.placed (m.after blanks)).kind = .comment := beq_iff_eq.mp hkind
      rw [hkind] at hpast
      rw [List.filter_cons_of_neg (by simp [hdrop]), tokens_past_blanks m' hall]
      exact ih hpast fun he => (hbytes he).2
    | false =>
      have hkeep : (l.placed (m.after blanks)).kind ≠ .comment := beq_eq_false_iff_ne.mp hkind
      rw [hkind, b.map_fill_false] at hpast
      rw [List.filter_cons_of_pos (by simp [hkeep]), b.map_fill_false, List.append_assoc,
        tokens_reads m' (h.overwritten b)]
      exact .cons (hbefore.placed l) (ih hpast fun he => (hbytes he).2)

end Scanner

/-! ## Outcomes -/

/-- All that a diagnostic says, but for the bytes that it points to. -/
def Diagnostic.withoutSpans (d : Diagnostic) : Diagnostic :=
  { d with
    span := .origin
    labels := d.labels.map fun l => { l with span := .origin } }

/-- The tree or the failure, the table and the diagnostics, but for the bytes that they point to. -/
def Outcome.withoutSpans (o : Outcome) : Outcome :=
  { o with diagnostics := o.diagnostics.map Diagnostic.withoutSpans }

namespace Token.Beside

variable {exact : Prop} {t t' : Token}

theorem exists_span (h : t.Beside exact t') :
    ∃ span, (exact → span = t.span) ∧ t' = { t with span } := ⟨t'.span, h.span, h.rest⟩

theorem closing (h : t.Beside exact t') :
    (Cursor.closing t).Beside exact (Cursor.closing t') := by
  obtain ⟨span, hspan, rfl⟩ := h.exists_span
  refine ⟨rfl, fun he => ?_⟩
  simp only [Cursor.closing, hspan he]

end Token.Beside

/-- Spans are one of the things that a parser does not see. -/
def Resemblance.place (exact : Prop) : Resemblance where
  tokens := Token.Beside exact
  diagnostics d d' := d'.withoutSpans = d.withoutSpans ∧ (exact → d' = d)
  refl _ := ⟨rfl, fun _ => rfl⟩
  rest {t t'} h := by
    obtain ⟨span, -, rfl⟩ := h.exists_span
    rfl
  name {t t'} h := by rw [h.rest]
  closing h := h.closing
  fault {t t'} h := by
    obtain ⟨span, hspan, rfl⟩ := h.exists_span
    unfold Diagnostic.ofErrorToken?
    dsimp only
    split
    · exact .some ⟨rfl, fun he => by rw [hspan he]⟩
    · exact .none
  atToken {t t'} h cause := by
    obtain ⟨span, hspan, rfl⟩ := h.exists_span
    exact ⟨rfl, fun he => by rw [hspan he]⟩

theorem Outcome.Alike.withoutSpans {exact : Prop} {o o' : Outcome}
    (h : o.Alike (.place exact) o') :
    o'.withoutSpans = o.withoutSpans ∧ (exact → o' = o) := by
  obtain ⟨tree, diagnostics, symbols⟩ := o
  obtain ⟨tree', diagnostics', symbols'⟩ := o'
  obtain ⟨htree, hsymbols, hdiagnostics⟩ := h
  dsimp only at htree hsymbols hdiagnostics
  subst htree hsymbols
  constructor
  · have hsame : diagnostics.map Diagnostic.withoutSpans =
        diagnostics'.map Diagnostic.withoutSpans := by
      rw [← List.forall₂_eq_eq_eq, List.forall₂_map_left_iff, List.forall₂_map_right_iff]
      exact hdiagnostics.imp fun _ _ hd => hd.1.symm
    simp only [Outcome.withoutSpans, hsame]
  · intro he
    have hsame : diagnostics = diagnostics' := by
      rw [← List.forall₂_eq_eq_eq]
      exact hdiagnostics.imp fun _ _ hd => (hd.2 he).symm
    rw [hsame]

/-! ## The law -/

theorem grammatical_without_comments (ts : List Token) :
    (ts.filter (·.kind != .comment)).filter Cursor.isGrammatical =
      ts.filter Cursor.isGrammatical := by
  rw [List.filter_filter]
  refine List.filter_congr fun t _ => ?_
  unfold Cursor.isGrammatical
  cases t.kind != .comment <;> simp

/-- ASCII characters have one byte each. -/
theorem utf8Size_of_ascii {c : Char} (h : c.toNat < 128) : c.utf8Size = 1 := by
  have hle : c.val.toNat ≤ 127 := Nat.le_of_lt_succ h
  exact Char.utf8Size_eq_one_iff.mpr (UInt32.le_iff_toNat_le.mpr hle)

/-- A parse that gives the same for a source and for the source with its comments overwritten: the
same tree or failure, the same table and the same diagnostics, on the same lines and columns. Where
the comments and the blanks are ASCII, the diagnostics point to the same bytes as well. -/
structure TransparentTo (parse : String → Outcome) (b : Blanking) (source : String) : Prop where
  places : (parse (b.overwrite source)).withoutSpans = (parse source).withoutSpans
  bytes : (∀ c ∈ commentChars source, c.toNat < 128 ∧ (b.blank c).toNat < 128) →
    parse (b.overwrite source) = parse source

theorem tokensOf_overwrite (b : Blanking) (source : String) {exact : Prop}
    (hbytes : exact → b.KeepsBytes (marked .code source.toList)) :
    List.Forall₂ (Token.Beside exact) ((tokensOf source).filter (·.kind != .comment))
      (tokensOf (b.overwrite source)) := by
  have hstart : Mark.start.Beside exact Mark.start := ⟨rfl, fun _ => rfl⟩
  unfold tokensOf Scanner.start Blanking.overwrite
  rw [String.toList_ofList]
  exact Scanner.tokens_overwritten b hstart source.toList hbytes

/-- No comment is left, so all of them are overwritten. -/
theorem no_comment_overwrite (b : Blanking) (source : String) :
    ∀ t ∈ tokensOf (b.overwrite source), t.kind ≠ .comment := by
  intro t ht
  have htokens : List.Forall₂ (Token.Beside False) _ (tokensOf (b.overwrite source)) :=
    tokensOf_overwrite b source nofun
  have hkinds : ((tokensOf source).filter (·.kind != .comment)).map Token.kind =
      (tokensOf (b.overwrite source)).map Token.kind := by
    rw [← List.forall₂_eq_eq_eq, List.forall₂_map_left_iff, List.forall₂_map_right_iff]
    exact htokens.imp fun _ _ hbeside => by rw [hbeside.rest]
  have hmem := List.mem_map_of_mem ht (f := Token.kind)
  rw [← hkinds] at hmem
  obtain ⟨u, hu, hkind⟩ := List.mem_map.mp hmem
  rw [← hkind]
  simpa using (List.mem_filter.mp hu).2

theorem Parser.transparent (p : Parser Node) [∀ e, Blind (.place e) p] (b : Blanking)
    (source : String) : TransparentTo p.runOn b source := by
  have hrun (exact : Prop) (hbytes : exact → b.KeepsBytes (marked .code source.toList)) :
      (p.runOn source).Alike (.place exact) (p.runOn (b.overwrite source)) := by
    have htokens : List.Forall₂ (Resemblance.place exact).tokens
        ((tokensOf source).filter (·.kind != .comment)) (tokensOf (b.overwrite source)) :=
      tokensOf_overwrite b source hbytes
    have hrow := Resemblance.grammatical htokens
    have hfaults := Resemblance.faults htokens
    rw [grammatical_without_comments] at hrow
    rw [lexicalDiagnostics_without fun t ht => by simp [ht]] at hfaults
    exact runOn_alike hrow hfaults
  constructor
  · exact (hrun False nofun).withoutSpans.1
  · intro hascii
    refine (hrun True fun _ p hp hmark => ?_).withoutSpans.2 trivial
    have hmem : p.1 ∈ commentChars source :=
      List.mem_map_of_mem (List.mem_filter.mpr ⟨hp, hmark⟩)
    obtain ⟨hc, hblank⟩ := hascii p.1 hmem
    rw [utf8Size_of_ascii hc, utf8Size_of_ascii hblank]

/-- Overwriting leaves no comment behind, and it makes no difference to a parse, wherever the
comments stand and whichever blanks stand there instead of them. -/
theorem comments_are_transparent (settings : Settings) (b : Blanking) (source : String) :
    (∀ t ∈ tokensOf (b.overwrite source), t.kind ≠ .comment) ∧
      TransparentTo (parseProgram settings) b source ∧ TransparentTo parseStatement b source :=
  ⟨no_comment_overwrite b source, (Parser.program settings).transparent b source,
    (Parser.loneStatement {}).transparent b source⟩

/-- Comments within what could be a symbol or a number, behind faults, over the end of a line and
in a string, and one without its end. -/
def coveredSource : String :=
  "BEGIN x :\x7ba\x7d= 1\x7bb\n\x7d.5; y <\x7bc\x7d> \x27it\x7bs\x7d\x27 # " ++
    "3e\x7bx\x7d4 END. \x7b \x27q"

theorem coveredSource_is_transparent :
    Blanking.spaces.overwrite coveredSource =
      "BEGIN x :   = 1  \n .5; y <   > \x27it\x7bs\x7d\x27 # 3e   4 END. \x7b \x27q" ∧
    (∀ c ∈ commentChars coveredSource,
      c.toNat < 128 ∧ (Blanking.spaces.blank c).toNat < 128) ∧
    (parseProgram {} coveredSource).diagnostics.length = 10 ∧
    parseProgram {} (Blanking.spaces.overwrite coveredSource) = parseProgram {} coveredSource := by
  have hascii : ∀ c ∈ commentChars coveredSource,
      c.toNat < 128 ∧ (Blanking.spaces.blank c).toNat < 128 := by
    have hall : (commentChars coveredSource).all (fun c =>
        decide (c.toNat < 128 ∧ (Blanking.spaces.blank c).toNat < 128)) = true := by
      decide +kernel
    simpa only [List.all_eq_true, decide_eq_true_iff] using hall
  have hsame := (comments_are_transparent {} .spaces coveredSource).2.1.bytes hascii
  exact ⟨by decide +kernel, hascii, by decide +kernel, hsame⟩

/-- A comment that is not ASCII has more bytes than spaces in its place. -/
example :
    (parseProgram {} "\x7bé\x7d#").diagnostics.map (·.span) = [⟨4, 5⟩] ∧
      (parseProgram {} (Blanking.spaces.overwrite "\x7bé\x7d#")).diagnostics.map (·.span) =
        [⟨3, 4⟩] := by
  decide +kernel

end PascalFront
