-- Lexemes are longest matches. A scanner takes characters until one comes that
-- cannot belong to the lexeme, and it makes of them what it would make of them
-- in front of anything else that cannot. Both facts are stated once for each
-- class of lexemes, with what may stand behind a lexeme as the link.
import PascalFront.Lexeme
import Mathlib.Data.List.TakeWhile

namespace PascalFront

/-! ## Runs of one class -/

/-- The characters do not begin with one of a class. -/
def StopsRun (p : Char → Bool) (cs : List Char) : Prop := ∀ c ∈ cs.head?, p c = false

section

variable {p : Char → Bool} {run after : List Char}

theorem stopsRun_nil (p : Char → Bool) : StopsRun p [] := by
  intro c hc
  cases hc

theorem stopsRun_cons {c : Char} {cs : List Char} : StopsRun p (c :: cs) ↔ p c = false := by
  simp [StopsRun]

theorem stopsRun_dropWhile (p : Char → Bool) (cs : List Char) : StopsRun p (cs.dropWhile p) := by
  intro c hc
  rcases h : cs.dropWhile p with _ | ⟨d, ds⟩
  · simp [h] at hc
  · have hne : cs.dropWhile p ≠ [] := by simp [h]
    have hd := List.head_dropWhile_not p hne
    simp only [h, List.head_cons] at hd
    simp only [h, List.head?_cons, Option.mem_some_iff] at hc
    rwa [← hc]

theorem takeWhile_of_run (hrun : ∀ c ∈ run, p c = true) (hafter : StopsRun p after) :
    (run ++ after).takeWhile p = run := by
  rw [List.takeWhile_append_of_pos hrun]
  cases after with
  | nil => simp
  | cons c cs => simp [stopsRun_cons.mp hafter]

theorem drop_of_eq_append {cs before rest : List Char} (h : cs = before ++ rest) :
    cs.drop before.length = rest := by
  rw [h, List.drop_left]

theorem dropWhile_of_run (hrun : ∀ c ∈ run, p c = true) (hafter : StopsRun p after) :
    (run ++ after).dropWhile p = after := by
  rw [List.dropWhile_append_of_pos hrun]
  cases after with
  | nil => simp
  | cons c cs => simp [stopsRun_cons.mp hafter]

end

namespace Lexeme

/-! ## Longest matches -/

/-- What may stand behind a lexeme is given by `Ends`. A scanner for such lexemes stops only where
the text behind may stand there, and it would make the same of the text in front of any other text
that may stand there. -/
structure Longest (scanner : List Char → Lexeme) (Ends : Lexeme → List Char → Prop) : Prop where
  splits : ∀ rest, ∃ after, rest = (scanner rest).more ++ after ∧ Ends (scanner rest) after
  again : ∀ rest after, Ends (scanner rest) after →
    scanner ((scanner rest).more ++ after) = scanner rest

theorem Longest.congr {scanner : List Char → Lexeme} {Ends Ends' : Lexeme → List Char → Prop}
    (h : Longest scanner Ends)
    (heq : ∀ rest after, Ends (scanner rest) after ↔ Ends' (scanner rest) after) :
    Longest scanner Ends' := by
  constructor
  · intro rest
    obtain ⟨after, hsplit, hends⟩ := h.splits rest
    exact ⟨after, hsplit, (heq rest after).mp hends⟩
  · intro rest after hends
    exact h.again rest after ((heq rest after).mpr hends)

section

variable {scanner : List Char → Lexeme} {Ends : Lexeme → List Char → Prop} {l : Lexeme}
  {after : List Char}

theorem Longest.ends (h : Longest scanner Ends) (hl : scanner (l.more ++ after) = l) :
    Ends l after := by
  obtain ⟨after', hsplit, hends⟩ := h.splits (l.more ++ after)
  rw [hl] at hsplit hends
  rwa [List.append_cancel_left hsplit]

theorem Longest.scanned (h : Longest scanner Ends) (hl : scanner (l.more ++ after) = l)
    {after' : List Char} (hends : Ends l after') : scanner (l.more ++ after') = l := by
  have hagain := h.again (l.more ++ after) after'
  rw [hl] at hagain
  exact hagain hends

end

/-! ## Comments -/

theorem comment_unclosed {inside : List Char} (h : closeBrace ∉ inside) :
    comment inside =
      ⟨.error, commentText inside, some (.fault .unexpectedEnd), openBrace, inside⟩ := by
  have hrun : ∀ c ∈ inside, (c != closeBrace) = true := by
    intro c hc
    exact bne_iff_ne.mpr fun heq => h (heq ▸ hc)
  have htake := takeWhile_of_run hrun (stopsRun_nil _)
  have hdrop := dropWhile_of_run hrun (stopsRun_nil _)
  rw [List.append_nil] at htake hdrop
  simp [comment, htake, hdrop]

theorem comment_closed {inside : List Char} (h : closeBrace ∉ inside) (after : List Char) :
    comment (inside ++ closeBrace :: after) =
      ⟨.comment, commentText inside, some (.text (commentText inside)), openBrace,
        inside ++ [closeBrace]⟩ := by
  have hrun : ∀ c ∈ inside, (c != closeBrace) = true := by
    intro c hc
    exact bne_iff_ne.mpr fun heq => h (heq ▸ hc)
  have hstop : StopsRun (· != closeBrace) (closeBrace :: after) :=
    stopsRun_cons.mpr (bne_self_eq_false _)
  simp [comment, takeWhile_of_run hrun hstop, dropWhile_of_run hrun hstop]

theorem unclosed_or_closed (rest : List Char) :
    closeBrace ∉ rest ∨ ∃ inside after, rest = inside ++ closeBrace :: after ∧
      closeBrace ∉ inside := by
  by_cases h : closeBrace ∈ rest
  · obtain ⟨inside, after, hrest, hinside⟩ := List.eq_append_cons_of_mem h
    exact .inr ⟨inside, after, hrest, hinside⟩
  · exact .inl h

theorem comment_longest :
    Longest comment fun l after => l.kind = .error → after = [] := by
  constructor
  · intro rest
    rcases unclosed_or_closed rest with h | ⟨inside, after, rfl, h⟩
    · rw [comment_unclosed h]
      exact ⟨[], by simp, fun _ => rfl⟩
    · rw [comment_closed h]
      exact ⟨after, by simp, fun hk => by cases hk⟩
  · intro rest after' hends
    rcases unclosed_or_closed rest with h | ⟨inside, after, rfl, h⟩
    · rw [comment_unclosed h] at hends ⊢
      rw [hends rfl, List.append_nil, comment_unclosed h]
    · rw [comment_closed h, List.append_assoc, List.singleton_append, comment_closed h]

/-! ## Words -/

theorem word_longest (c : Char) : Longest (word c) fun _ after => StopsRun isWordChar after := by
  constructor
  · intro rest
    exact ⟨rest.dropWhile isWordChar, List.takeWhile_append_dropWhile.symm,
      stopsRun_dropWhile _ _⟩
  · intro rest after hends
    have hrun : ∀ d ∈ rest.takeWhile isWordChar, isWordChar d = true :=
      fun d hd => List.mem_takeWhile_imp hd
    have hmore : (word c rest).more = rest.takeWhile isWordChar := rfl
    rw [hmore, word, takeWhile_of_run hrun hends, word]

/-! ## Numbers -/

namespace Numeral

/-- A row of digits. -/
def AllDigits (ds : List Char) : Prop := ∀ d ∈ ds, isDigit d = true

/-- The parts that a number can have. -/
structure WellFormed (n : Numeral) : Prop where
  whole : AllDigits n.whole
  fraction : ∀ ds, n.fraction = some ds → ds ≠ [] ∧ AllDigits ds
  exponent : ∀ e s ds, n.exponent = some (e, s, ds) →
    (e = 'e' ∨ e = 'E') ∧ (s = [] ∨ s = ['+'] ∨ s = ['-']) ∧ AllDigits ds

/-- What may stand behind a number. An exponent without digits may still get a sign and digits, and
without a fraction and an exponent there may come either. -/
def Ends (n : Numeral) (after : List Char) : Prop :=
  StopsRun isDigit after ∧
    match n.exponent with
    | some (_, s, ds) => s = [] → ds = [] → sign after = []
    | none => exponent? after = none ∧ (n.fraction = none → fraction? after = none)

theorem fraction?_eq_some {cs ds : List Char} (h : fraction? cs = some ds) :
    ds ≠ [] ∧ AllDigits ds ∧ ∃ after, cs = '.' :: (ds ++ after) ∧ StopsRun isDigit after := by
  unfold fraction? at h
  split at h
  · rename_i d rest
    by_cases hd : isDigit d = true
    · simp only [hd, if_true, Option.some.injEq] at h
      subst h
      refine ⟨by simp, ?_, rest.dropWhile isDigit, by simp, stopsRun_dropWhile _ _⟩
      intro x hx
      rcases List.mem_cons.mp hx with rfl | hx
      · exact hd
      · exact List.mem_takeWhile_imp hx
    · simp [hd] at h
  · cases h

theorem fraction?_digits {ds after : List Char} (hne : ds ≠ []) (hds : AllDigits ds)
    (hafter : StopsRun isDigit after) : fraction? ('.' :: (ds ++ after)) = some ds := by
  obtain ⟨d, ds, rfl⟩ := List.exists_cons_of_ne_nil hne
  have hd : isDigit d = true := hds d (by simp)
  have hrun : ∀ x ∈ ds, isDigit x = true := fun x hx => hds x (by simp [hx])
  simp [fraction?, hd, takeWhile_of_run hrun hafter]

theorem sign_cases (cs : List Char) :
    (sign cs = [] ∨ sign cs = ['+'] ∨ sign cs = ['-']) ∧
      ∃ rest, cs = sign cs ++ rest ∧ (sign cs = [] → sign rest = []) := by
  cases cs with
  | nil => simp [sign]
  | cons c cs =>
    by_cases hc : c = '+' ∨ c = '-'
    · have hsign : sign (c :: cs) = [c] := by simp [sign, hc]
      rw [hsign]
      rcases hc with rfl | rfl <;> simp
    · have hsign : sign (c :: cs) = [] := by simp [sign, hc]
      simp [hsign]

theorem exponent?_eq_some {cs s ds : List Char} {e : Char}
    (h : exponent? cs = some (e, s, ds)) :
    (e = 'e' ∨ e = 'E') ∧ (s = [] ∨ s = ['+'] ∨ s = ['-']) ∧ AllDigits ds ∧
      ∃ after, cs = e :: (s ++ (ds ++ after)) ∧ StopsRun isDigit after ∧
        (s = [] → ds = [] → sign after = []) := by
  cases cs with
  | nil => cases h
  | cons c cs =>
    by_cases hc : c = 'e' ∨ c = 'E'
    · obtain ⟨hsign, rest, hcs, hrest⟩ := sign_cases cs
      have hdrop := drop_of_eq_append hcs
      simp only [exponent?, hc, if_true, hdrop, Option.some.injEq, Prod.mk.injEq] at h
      obtain ⟨rfl, rfl, rfl⟩ := h
      refine ⟨hc, hsign, fun d hd => List.mem_takeWhile_imp hd, rest.dropWhile isDigit, ?_,
        stopsRun_dropWhile _ _, ?_⟩
      · rw [List.takeWhile_append_dropWhile, ← hcs]
      · intro hs hds
        have hall : rest.takeWhile isDigit ++ rest.dropWhile isDigit = rest :=
          List.takeWhile_append_dropWhile
        rw [hds, List.nil_append] at hall
        rw [hall]
        exact hrest hs
    · simp [exponent?, hc] at h

theorem digit_ne_sign {d : Char} (hd : isDigit d = true) : d ≠ '+' ∧ d ≠ '-' := by
  constructor <;> (rintro rfl; exact absurd hd (by decide))

theorem exponent?_parts {s ds after : List Char} {e : Char} (he : e = 'e' ∨ e = 'E')
    (hs : s = [] ∨ s = ['+'] ∨ s = ['-']) (hds : AllDigits ds) (hafter : StopsRun isDigit after)
    (hsign : s = [] → ds = [] → sign after = []) :
    exponent? (e :: (s ++ (ds ++ after))) = some (e, s, ds) := by
  have hfirst : sign (s ++ (ds ++ after)) = s := by
    rcases hs with rfl | rfl | rfl
    · -- without a sign the next character is a digit, or it is behind the number
      cases ds with
      | nil => exact hsign rfl rfl
      | cons d ds =>
        obtain ⟨hplus, hminus⟩ := digit_ne_sign (hds d (by simp))
        simp [sign, hplus, hminus]
    · simp [sign]
    · simp [sign]
  simp [exponent?, he, hfirst, takeWhile_of_run hds hafter]

/-- The text behind the whole part of a number, cut behind the fraction. -/
theorem fraction?_splits {cs : List Char} (h : StopsRun isDigit cs) :
    ∃ rest, cs = fractionChars (fraction? cs) ++ rest ∧ StopsRun isDigit rest ∧
      (fraction? cs = none → fraction? rest = none) := by
  cases hf : fraction? cs with
  | none => exact ⟨cs, rfl, h, fun _ => hf⟩
  | some ds =>
    obtain ⟨-, -, rest, hcs, hstop⟩ := fraction?_eq_some hf
    exact ⟨rest, hcs, hstop, fun hnone => by cases hnone⟩

/-- A number is read up to where something else may stand, and its parts are as they can be. -/
theorem read_spec (cs : List Char) :
    (read cs).WellFormed ∧ ∃ after, cs = (read cs).chars ++ after ∧ (read cs).Ends after := by
  obtain ⟨rest, hrest, hstop, hnone⟩ := fraction?_splits (stopsRun_dropWhile isDigit cs)
  have hdrop := drop_of_eq_append hrest
  have hread : read cs = ⟨cs.takeWhile isDigit, fraction? (cs.dropWhile isDigit),
      exponent? rest⟩ := by
    rw [read, hdrop]
  rw [hread]
  refine ⟨⟨fun d hd => List.mem_takeWhile_imp hd, ?_, ?_⟩, ?_⟩
  · intro ds hds
    obtain ⟨hne, hall, -⟩ := fraction?_eq_some hds
    exact ⟨hne, hall⟩
  · intro e s ds hds
    obtain ⟨he, hs, hall, -⟩ := exponent?_eq_some hds
    exact ⟨he, hs, hall⟩
  · have hcs : cs = cs.takeWhile isDigit ++
        (fractionChars (fraction? (cs.dropWhile isDigit)) ++ rest) := by
      rw [← hrest, List.takeWhile_append_dropWhile]
    cases he : exponent? rest with
    | none => exact ⟨rest, by simpa [chars, exponentChars] using hcs, hstop, he, hnone⟩
    | some parts =>
      obtain ⟨e, s, ds⟩ := parts
      obtain ⟨-, -, -, after, hafter, hstop', hsign⟩ := exponent?_eq_some he
      refine ⟨after, ?_, hstop', hsign⟩
      rw [hafter] at hcs
      simpa [chars, exponentChars] using hcs

section

variable {n : Numeral} {after : List Char}

/-- What stands behind the fraction of a number begins with no digit. -/
theorem stopsRun_exponent (hn : n.WellFormed) (h : n.Ends after) :
    StopsRun isDigit (exponentChars n.exponent ++ after) := by
  cases he : n.exponent with
  | none => exact h.1
  | some parts =>
    obtain ⟨e, s, ds⟩ := parts
    refine stopsRun_cons.mpr ?_
    rcases (hn.exponent e s ds he).1 with rfl | rfl <;> decide

theorem exponent?_of_ends (hn : n.WellFormed) (h : n.Ends after) :
    exponent? (exponentChars n.exponent ++ after) = n.exponent := by
  obtain ⟨hstop, hends⟩ := h
  cases he : n.exponent with
  | none =>
    rw [he] at hends
    exact hends.1
  | some parts =>
    obtain ⟨e, s, ds⟩ := parts
    rw [he] at hends
    obtain ⟨he', hs, hds⟩ := hn.exponent e s ds he
    simpa [exponentChars] using exponent?_parts he' hs hds hstop hends

/-- What stands behind the whole part of a number begins with no digit. -/
theorem stopsRun_fraction (hn : n.WellFormed) (h : n.Ends after) :
    StopsRun isDigit (fractionChars n.fraction ++ (exponentChars n.exponent ++ after)) := by
  cases n.fraction with
  | none => exact stopsRun_exponent hn h
  | some ds => exact stopsRun_cons.mpr (by decide)

theorem fraction?_of_ends (hn : n.WellFormed) (h : n.Ends after) :
    fraction? (fractionChars n.fraction ++ (exponentChars n.exponent ++ after)) = n.fraction := by
  cases hf : n.fraction with
  | some ds =>
    obtain ⟨hne, hds⟩ := hn.fraction ds hf
    exact fraction?_digits hne hds (stopsRun_exponent hn h)
  | none =>
    cases he : n.exponent with
    | none =>
      obtain ⟨-, hends⟩ := h
      rw [he] at hends
      exact hends.2 hf
    | some parts =>
      obtain ⟨e, s, ds⟩ := parts
      rcases (hn.exponent e s ds he).1 with rfl | rfl <;>
        simp [fractionChars, exponentChars, fraction?]

/-- A number with such parts is read in front of whatever may stand behind it. -/
theorem read_chars (hn : n.WellFormed) (h : n.Ends after) : read (n.chars ++ after) = n := by
  have hcs : n.chars ++ after =
      n.whole ++ (fractionChars n.fraction ++ (exponentChars n.exponent ++ after)) := by
    simp [chars]
  have hstop := stopsRun_fraction hn h
  rw [hcs, read, takeWhile_of_run hn.whole hstop, dropWhile_of_run hn.whole hstop,
    fraction?_of_ends hn h, List.drop_left, exponent?_of_ends hn h]

end

theorem ends_nil (n : Numeral) : n.Ends [] := by
  refine ⟨stopsRun_nil _, ?_⟩
  cases n.exponent with
  | none => exact ⟨rfl, fun _ => rfl⟩
  | some parts => exact fun _ _ => rfl

end Numeral

section

variable {c : Char} (hc : isDigit c = true)

include hc

/-- A number takes what its parts are made of. -/
theorem taken_number (rest : List Char) :
    (number c rest).taken = (Numeral.read (c :: rest)).chars := by
  obtain ⟨-, after, hsplit, -⟩ := Numeral.read_spec (c :: rest)
  have hwhole : (Numeral.read (c :: rest)).whole = c :: rest.takeWhile isDigit := by
    simp [Numeral.read, hc]
  have hchars : (Numeral.read (c :: rest)).chars ≠ [] := by simp [Numeral.chars, hwhole]
  unfold number
  dsimp only
  generalize Numeral.read (c :: rest) = n at hsplit hchars
  obtain ⟨d, more, hmore⟩ := List.exists_cons_of_ne_nil hchars
  rw [hmore] at hsplit
  cases hsplit
  simp [taken, plain, hmore]

theorem read_taken_number (rest : List Char) :
    Numeral.read (number c rest).taken = Numeral.read (c :: rest) := by
  have h := Numeral.read_chars (Numeral.read_spec (c :: rest)).1 (Numeral.ends_nil _)
  rwa [List.append_nil, ← taken_number hc] at h

theorem number_longest :
    Longest (number c) fun l after => (Numeral.read l.taken).Ends after := by
  have htaken (rest : List Char) :
      (Numeral.read (c :: rest)).chars = c :: (number c rest).more := (taken_number hc rest).symm
  constructor
  · intro rest
    obtain ⟨-, after, hsplit, hends⟩ := Numeral.read_spec (c :: rest)
    rw [htaken, List.cons_append] at hsplit
    rw [read_taken_number hc]
    exact ⟨after, (List.cons.inj hsplit).2, hends⟩
  · intro rest after hends
    rw [read_taken_number hc] at hends
    have hread := Numeral.read_chars (Numeral.read_spec (c :: rest)).1 hends
    rw [htaken, List.cons_append] at hread
    generalize (number c rest).more = more at hread
    simp only [number, hread]

end

/-! ## Strings -/

/-- The contents of a string with every quote doubled. -/
def doubled (s : List Char) : List Char :=
  s.flatMap fun c => if c = quoteMark then [c, c] else [c]

theorem doubled_quote (s : List Char) :
    doubled (quoteMark :: s) = quoteMark :: quoteMark :: doubled s := by
  simp [doubled]

theorem doubled_other {c : Char} (h : c ≠ quoteMark) (s : List Char) :
    doubled (c :: s) = c :: doubled s := by
  simp [doubled, h]

abbrev NoQuote (after : List Char) : Prop := StopsRun (· == quoteMark) after

theorem quoted?_other {c : Char} (h : c ≠ quoteMark) (rest : List Char) :
    quoted? (c :: rest) = (quoted? rest).map fun (s, after) => (c :: s, after) := by
  cases rest <;> simp [quoted?, h]

theorem quoted?_doubled (s : List Char) {after : List Char} (h : NoQuote after) :
    quoted? (doubled s ++ quoteMark :: after) = some (s, after) := by
  induction s with
  | nil =>
    cases after with
    | nil => simp [doubled, quoted?]
    | cons d tail =>
      have hd : d ≠ quoteMark := by simpa using stopsRun_cons.mp h
      simp [doubled, quoted?, hd]
  | cons c s ih =>
    by_cases hc : c = quoteMark
    · rw [hc, doubled_quote]
      simp [quoted?, ih]
    · rw [doubled_other hc, List.cons_append, quoted?_other hc, ih]
      rfl

theorem quoted?_eq_some {rest s after : List Char} (h : quoted? rest = some (s, after)) :
    rest = doubled s ++ quoteMark :: after ∧ NoQuote after := by
  induction rest using quoted?.induct generalizing s with
  | case1 => simp [quoted?] at h
  | case2 tail ih =>
    simp only [quoted?, if_true, Option.map_eq_some_iff, Prod.exists, Prod.mk.injEq] at h
    obtain ⟨s, _, hs, rfl, rfl⟩ := h
    obtain ⟨htail, hafter⟩ := ih hs
    exact ⟨by rw [doubled_quote, htail]; rfl, hafter⟩
  | case3 d tail hd =>
    simp only [quoted?, if_true, hd, if_false, Option.some.injEq, Prod.mk.injEq] at h
    obtain ⟨rfl, rfl⟩ := h
    exact ⟨rfl, stopsRun_cons.mpr (by simpa using hd)⟩
  | case4 =>
    simp only [quoted?, if_true, Option.some.injEq, Prod.mk.injEq] at h
    obtain ⟨rfl, rfl⟩ := h
    exact ⟨rfl, stopsRun_nil _⟩
  | case5 c tail hc ih =>
    simp only [quoted?_other hc, Option.map_eq_some_iff, Prod.exists, Prod.mk.injEq] at h
    obtain ⟨s, _, hs, rfl, rfl⟩ := h
    obtain ⟨htail, hafter⟩ := ih hs
    exact ⟨by rw [doubled_other hc, htail]; rfl, hafter⟩

/-- Reading the contents of a string finds what was quoted, and nothing else. -/
theorem quoted?_eq_some_iff {rest s after : List Char} :
    quoted? rest = some (s, after) ↔ rest = doubled s ++ quoteMark :: after ∧ NoQuote after := by
  constructor
  · exact quoted?_eq_some
  · rintro ⟨rfl, hafter⟩
    exact quoted?_doubled s hafter

theorem quotedString_closed (s : List Char) {after : List Char} (h : NoQuote after) :
    quotedString (doubled s ++ quoteMark :: after) =
      plain .string (some (.text (String.ofList s))) quoteMark (doubled s ++ [quoteMark]) := by
  have hlength : (doubled s ++ quoteMark :: after).length - after.length =
      (doubled s ++ [quoteMark]).length := by
    simp only [List.length_append, List.length_cons, List.length_nil]
    omega
  have hsplit : doubled s ++ quoteMark :: after = (doubled s ++ [quoteMark]) ++ after := by simp
  have hquoted : quoted? (doubled s ++ quoteMark :: after) = some (s, after) :=
    quoted?_eq_some_iff.mpr ⟨rfl, h⟩
  simp only [quotedString, hquoted, hlength]
  rw [hsplit, List.take_left]

theorem unquoted_or_quoted (rest : List Char) :
    quoted? rest = none ∨ ∃ s after, rest = doubled s ++ quoteMark :: after ∧ NoQuote after := by
  cases h : quoted? rest with
  | none => exact .inl rfl
  | some found =>
    obtain ⟨s, after⟩ := found
    exact .inr ⟨s, after, quoted?_eq_some_iff.mp h⟩

theorem quotedString_unclosed {rest : List Char} (h : quoted? rest = none) :
    quotedString rest = faulty .unexpectedEnd quoteMark rest := by
  simp [quotedString, h]

theorem quotedString_longest :
    Longest quotedString fun l after => if l.kind = .error then after = [] else NoQuote after := by
  constructor
  · intro rest
    rcases unquoted_or_quoted rest with h | ⟨s, after, rfl, hafter⟩
    · rw [quotedString_unclosed h]
      exact ⟨[], (List.append_nil _).symm, rfl⟩
    · rw [quotedString_closed s hafter]
      exact ⟨after, by simp [plain], hafter⟩
  · intro rest after' hends
    rcases unquoted_or_quoted rest with h | ⟨s, after, rfl, hafter⟩
    · rw [quotedString_unclosed h] at hends ⊢
      have hnil : after' = [] := hends
      rw [hnil, faulty, plain, List.append_nil, quotedString_unclosed h, faulty, plain]
    · rw [quotedString_closed s hafter] at hends ⊢
      have hnone : NoQuote after' := hends
      simp only [plain, List.append_assoc, List.singleton_append]
      exact quotedString_closed s hnone

/-! ## Symbols -/

/-- What comes next makes no symbol of two characters with `c`. -/
def NoPair (c : Char) (after : List Char) : Prop :=
  ∀ d ∈ after.head?, TokenKind.specialSymbol? (String.ofList [c, d]) = none

/-- What can be read at a character that begins neither a word nor a number. -/
inductive SymbolForm (c : Char) : List Char → Lexeme → Prop
  | pair {d : Char} {after : List Char} {k : TokenKind} :
      TokenKind.specialSymbol? (String.ofList [c, d]) = some k →
      SymbolForm c (d :: after) (plain k none c [d])
  | single {after : List Char} {k : TokenKind} : NoPair c after →
      TokenKind.specialSymbol? (String.ofList [c]) = some k → SymbolForm c after (plain k none c [])
  | unknown {after : List Char} : NoPair c after →
      TokenKind.specialSymbol? (String.ofList [c]) = none →
      SymbolForm c after (faulty .invalidCharacter c [])

section

variable {c : Char} {after : List Char}

theorem symbol_pair {d : Char} {k : TokenKind}
    (h : TokenKind.specialSymbol? (String.ofList [c, d]) = some k) (after : List Char) :
    symbol c (d :: after) = plain k none c [d] := by
  simp only [symbol, h, Option.map_some, Option.getD_some]

/-- A symbol that makes no pair with what comes next is read alone. -/
theorem symbol_single (h : NoPair c after) : symbol c after = symbol c [] := by
  cases after with
  | nil => rfl
  | cons d after =>
    have hd := h d rfl
    simp only [symbol, hd, Option.map_none, Option.getD_none]

theorem symbol_form (c : Char) (rest : List Char) : SymbolForm c rest (symbol c rest) := by
  have hsingle (hpair : NoPair c rest) : SymbolForm c rest (symbol c rest) := by
    rw [symbol_single hpair, symbol, Option.getD_none]
    cases hk : TokenKind.specialSymbol? (String.ofList [c]) with
    | none => exact .unknown hpair hk
    | some k => exact .single hpair hk
  cases rest with
  | nil => exact hsingle fun d hd => by cases hd
  | cons d after =>
    cases hk : TokenKind.specialSymbol? (String.ofList [c, d]) with
    | none => exact hsingle fun d' hd' => by cases hd'; exact hk
    | some k =>
      rw [symbol_pair hk]
      exact .pair hk

end

theorem symbol_longest (c : Char) :
    Longest (symbol c) fun l after => l.more = [] → NoPair c after := by
  constructor
  · intro rest
    have h := symbol_form c rest
    generalize symbol c rest = l at h ⊢
    cases h with
    | @pair d after k _ => exact ⟨after, rfl, fun hmore => by cases hmore⟩
    | single hpair _ => exact ⟨rest, rfl, fun _ => hpair⟩
    | unknown hpair _ => exact ⟨rest, rfl, fun _ => hpair⟩
  · intro rest after' hends
    have h := symbol_form c rest
    generalize hl : symbol c rest = l at h hends ⊢
    cases h with
    | pair hk => exact symbol_pair hk after'
    | single hpair _ =>
      rw [symbol_single hpair] at hl
      exact (symbol_single (hends rfl)).trans hl
    | unknown hpair _ =>
      rw [symbol_single hpair] at hl
      exact (symbol_single (hends rfl)).trans hl

/-! ## All lexemes -/

/-- What may stand behind a lexeme: nothing that would still belong to it. -/
def Ends (l : Lexeme) (after : List Char) : Prop :=
  if l.first = openBrace then l.kind = .error → after = []
  else if isLetter l.first then StopsRun isWordChar after
  else if isDigit l.first then (Numeral.read l.taken).Ends after
  else if l.first = quoteMark then if l.kind = .error then after = [] else NoQuote after
  else l.more = [] → NoPair l.first after

/-- Which scanner reads the lexemes that begin with a character. -/
inductive ReadBy : Char → (List Char → Lexeme) → Prop
  | comment : ReadBy openBrace comment
  | word {c : Char} : c ≠ openBrace → isLetter c = true → ReadBy c (word c)
  | number {c : Char} : c ≠ openBrace → isLetter c = false → isDigit c = true →
      ReadBy c (number c)
  | string : ReadBy quoteMark quotedString
  | symbol {c : Char} : c ≠ openBrace → isLetter c = false → isDigit c = false → c ≠ quoteMark →
      ReadBy c (symbol c)

theorem readBy_scan (c : Char) : ReadBy c (scan c) := by
  by_cases hbrace : c = openBrace
  · subst hbrace
    exact .comment
  · cases hletter : isLetter c with
    | true =>
      have hscan : scan c = word c := funext fun rest => by simp [scan, hbrace, hletter]
      exact hscan ▸ .word hbrace hletter
    | false =>
      cases hdigit : isDigit c with
      | true =>
        have hscan : scan c = number c := funext fun rest => by
          simp [scan, hbrace, hletter, hdigit]
        exact hscan ▸ .number hbrace hletter hdigit
      | false =>
        by_cases hquote : c = quoteMark
        · subst hquote
          have hscan : scan quoteMark = quotedString := funext fun rest => by
            simp [scan, hbrace, hletter, hdigit]
          exact hscan ▸ .string
        · have hscan : scan c = symbol c := funext fun rest => by
            simp [scan, hbrace, hletter, hdigit, hquote]
          exact hscan ▸ .symbol hbrace hletter hdigit hquote

theorem first_scan (c : Char) (rest : List Char) : (scan c rest).first = c := by
  have h := readBy_scan c
  generalize scan c = scanner at h ⊢
  cases h with
  | comment =>
    unfold comment
    dsimp only
    split <;> rfl
  | word => rfl
  | number => rfl
  | string =>
    unfold quotedString
    split <;> rfl
  | symbol =>
    have h := symbol_form c rest
    generalize symbol c rest = l at h ⊢
    cases h <;> rfl

/-- Every lexeme is the longest one that can be read where it stands. -/
theorem scan_longest (c : Char) : Longest (scan c) Ends := by
  have h := readBy_scan c
  have hfirst := first_scan c
  generalize scan c = scanner at h hfirst ⊢
  cases h with
  | comment => exact comment_longest.congr fun rest after => by simp [Ends, hfirst]
  | word hbrace hletter =>
    exact (word_longest c).congr fun rest after => by simp [Ends, hfirst, hbrace, hletter]
  | number hbrace hletter hdigit =>
    exact (number_longest hdigit).congr fun rest after => by
      simp [Ends, hfirst, hbrace, hletter, hdigit]
  | string =>
    have hbrace : quoteMark ≠ openBrace := by decide
    have hletter : isLetter quoteMark = false := by decide +kernel
    have hdigit : isDigit quoteMark = false := by decide
    exact quotedString_longest.congr fun rest after => by
      simp [Ends, hfirst, hbrace, hletter, hdigit]
  | symbol hbrace hletter hdigit hquote =>
    exact (symbol_longest c).congr fun rest after => by
      simp [Ends, hfirst, hbrace, hletter, hdigit, hquote]

theorem ends_nil (l : Lexeme) : l.Ends [] := by
  unfold Ends
  split
  · exact fun _ => rfl
  · split
    · exact stopsRun_nil _
    · split
      · exact Numeral.ends_nil _
      · split
        · split
          · rfl
          · exact stopsRun_nil _
        · exact fun _ d hd => by cases hd

end Lexeme

end PascalFront
