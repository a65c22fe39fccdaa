-- What is written as JSON reads back. Each kind of value is read up to what may
-- stand behind it, so the values of a row are found one after the other, in the
-- compact form as in any other that only adds blanks.
import PascalFront.Proofs.JsonReader

namespace PascalFront

namespace Json

open Lexeme (Numeral)
open JsonValue (Style)

/-! ## Strings -/

/-- The characters that have an escape of one character. -/
def shortEscapes : List (Char × Char) :=
  [('"', '"'), ('\\', '\\'), ('\x08', 'b'), ('\x0c', 'f'), ('\n', 'n'), ('\r', 'r'), ('\t', 't')]

/-- A character is written by a short escape, by its number, or as it is. -/
theorem escape_cases (c : Char) :
    (∃ short, (c, short) ∈ shortEscapes ∧ JsonValue.escape c = ['\\', short]) ∨
    (c.toNat < 32 ∧ JsonValue.escape c =
      ['\\', 'u', '0', '0', Nat.digitChar (c.toNat / 16), Nat.digitChar (c.toNat % 16)]) ∨
    (c ≠ '"' ∧ c ≠ '\\' ∧ ¬ c.toNat < 32 ∧ JsonValue.escape c = [c]) := by
  unfold JsonValue.escape
  iterate 7
    split
    · rename_i h
      exact .inl ⟨_, by simp [shortEscapes, h], rfl⟩
  split
  case isTrue hcontrol => exact .inr (.inl ⟨hcontrol, rfl⟩)
  case isFalse hquote hescape _ _ _ _ _ hcontrol =>
    exact .inr (.inr ⟨hquote, hescape, hcontrol, rfl⟩)

theorem unit?_control : ∀ n < 32,
    unit? ['0', '0', Nat.digitChar (n / 16), Nat.digitChar (n % 16)] = some n := by
  decide

theorem joined?_unit {n : Nat} (hn : n < 0xD800) (parts : List Part) :
    joined? (.unit n :: parts) = (joined? parts).map (Char.ofNat n :: ·) := by
  have hhigh : isHigh n = false := by simp [isHigh]; omega
  have hlow : isLow n = false := by simp [isLow]; omega
  rcases parts with _ | ⟨c | low, parts⟩ <;> simp [joined?, hhigh, hlow]

/-- What is written for a character reads back as one part, which stands for the character. -/
theorem escape_reads (c : Char) : ∃ part : Part,
    (∀ cs, parts? (JsonValue.escape c ++ cs) = (parts? cs).map fun (parts, after) =>
      (part :: parts, after)) ∧
    ∀ parts, joined? (part :: parts) = (joined? parts).map (c :: ·) := by
  rcases escape_cases c with ⟨short, hmem, h⟩ | ⟨hcontrol, h⟩ | ⟨hquote, hescape, hcontrol, h⟩
      <;> rw [h]
  · refine ⟨.char c, fun cs => ?_, fun _ => rfl⟩
    simp only [shortEscapes, List.mem_cons, Prod.mk.injEq, List.not_mem_nil, or_false] at hmem
    rcases hmem with ⟨rfl, rfl⟩ | ⟨rfl, rfl⟩ | ⟨rfl, rfl⟩ | ⟨rfl, rfl⟩ | ⟨rfl, rfl⟩ | ⟨rfl, rfl⟩ |
        ⟨rfl, rfl⟩ <;>
      cases hrest : parts? cs <;> simp [parts?, shortEscape?, hrest]
  · refine ⟨.unit c.toNat, fun cs => ?_, fun parts => ?_⟩
    · cases hrest : parts? cs <;> simp [parts?, unit?_control _ hcontrol, hrest]
    · rw [joined?_unit (by omega), Char.ofNat_toNat]
  · refine ⟨.char c, fun cs => ?_, fun _ => rfl⟩
    cases hrest : parts? cs <;> simp [parts?, hescape, hcontrol, hrest]

theorem parts?_written (cs rest : List Char) :
    ∃ parts, parts? (cs.flatMap JsonValue.escape ++ '"' :: rest) = some (parts, rest) ∧
      joined? parts = some cs := by
  induction cs with
  | nil => exact ⟨[], rfl, rfl⟩
  | cons c cs ih =>
    obtain ⟨parts, hparts, hjoined⟩ := ih
    obtain ⟨part, hpart, hmeans⟩ := escape_reads c
    refine ⟨part :: parts, ?_, ?_⟩
    · rw [List.flatMap_cons, List.append_assoc, hpart, hparts]
      rfl
    · rw [hmeans, hjoined]
      rfl

/-- A string reads back up to its closing quote. -/
theorem string?_written (s : String) (rest : List Char) :
    string? (s.toList.flatMap JsonValue.escape ++ '"' :: rest) = some (s, rest) := by
  obtain ⟨parts, hparts, hjoined⟩ := parts?_written s.toList rest
  simp [string?, hparts, hjoined]

/-! ## Numbers -/

/-- What may stand behind a value: nothing, a blank, or what goes on or ends a row. -/
def Closes (rest : List Char) : Prop :=
  ∀ c ∈ rest.head?, isBlank c = true ∨ c ∈ [',', ']', '\x7d']

theorem closes_nil : Closes [] := by
  intro c hc
  cases hc

theorem closes_cons {c : Char} {cs : List Char} (h : isBlank c = true ∨ c ∈ [',', ']', '\x7d']) :
    Closes (c :: cs) := by
  intro d hd
  cases hd
  exact h

theorem closes_gap {gap rest : List Char} (hgap : Blanks gap) (h : Closes rest) :
    Closes (gap ++ rest) := by
  cases gap with
  | nil => exact h
  | cons c gap => exact closes_cons (.inl (hgap c (by simp)))

/-- No number goes on with what may stand behind a value. -/
theorem ends_of_closes {rest : List Char} (h : Closes rest) (n : Numeral) : n.Ends rest := by
  cases rest with
  | nil => exact n.ends_nil
  | cons c rest =>
    have hc : c ∈ [' ', '\t', '\n', '\r', ',', ']', '\x7d'] := by
      rcases h c rfl with hblank | hmem
      · simp only [isBlank, Bool.or_eq_true, beq_iff_eq] at hblank
        rcases hblank with ((rfl | rfl) | rfl) | rfl <;> simp
      · simp only [List.mem_cons, List.not_mem_nil, or_false] at hmem ⊢
        simp only [hmem, or_true]
    have hother : isDigit c = false ∧ c ≠ '+' ∧ c ≠ '-' ∧ c ≠ 'e' ∧ c ≠ 'E' ∧ c ≠ '.' := by
      simp only [List.mem_cons, List.not_mem_nil, or_false] at hc
      rcases hc with rfl | rfl | rfl | rfl | rfl | rfl | rfl <;> decide
    obtain ⟨hdigit, hplus, hminus, he, hE, hpoint⟩ := hother
    refine ⟨stopsRun_cons.mpr hdigit, ?_⟩
    have hfraction : Numeral.fraction? (c :: rest) = none := by
      rcases rest with _ | ⟨d, rest⟩ <;> simp [Numeral.fraction?, hpoint]
    cases n.exponent with
    | none => exact ⟨by simp [Numeral.exponent?, he, hE], fun _ => hfraction⟩
    | some parts => exact fun _ _ => by simp [Numeral.sign, hplus, hminus]

/-- A number reads back up to where it ends. -/
theorem number?_signed {n : Numeral} (hn : n.Complete) (negative : Bool) {rest : List Char}
    (hends : n.Ends rest) :
    number? (n.signed negative ++ rest) = some (numberValue negative n, rest) := by
  obtain ⟨d, more, hchars, hd⟩ := Numeral.chars_first hn.legible
  have hminus := (Numeral.digit_ne_sign hd).2
  have hread := Numeral.read_chars hn.toWellFormed hends
  have hcomplete := (Numeral.isComplete_iff hn.toWellFormed).mpr hn
  have hnegative : ((n.signed negative ++ rest).head? == some '-') = negative := by
    cases negative <;> simp [Numeral.signed, hchars, hminus]
  have hbody : (if negative then (n.signed negative ++ rest).tail else n.signed negative ++ rest) =
      n.chars ++ rest := by
    cases negative <;> simp [Numeral.signed]
  simp only [number?, hnegative, hbody, hread, hcomplete, if_true, List.drop_left]

/-- Numbers are none of the words. -/
theorem word?_signed {n : Numeral} (hn : n.Complete) (negative : Bool) (rest : List Char) :
    word? (n.signed negative ++ rest) = none := by
  obtain ⟨c, more, hsigned, hc⟩ := Numeral.signed_first hn negative
  have hletters : c ≠ 'n' ∧ c ≠ 't' ∧ c ≠ 'f' := by
    rcases hc with rfl | hd
    · decide
    · refine ⟨?_, ?_, ?_⟩ <;> (rintro rfl; exact absurd hd (by decide))
  simp [word?, words, hsigned, hletters.1.symm, hletters.2.1.symm, hletters.2.2.symm]

/-! ## Parts of rows -/

/-- A style that adds blanks and nothing else. -/
structure Spacing (style : Style) : Prop where
  gap : ∀ depth, Blanks (style.gap depth)
  colon : ∃ before after, Blanks before ∧ Blanks after ∧ style.colon = before ++ ':' :: after

theorem spacing_compact : Spacing .compact :=
  ⟨fun _ => by simp [Style.compact, Blanks], [], [], by simp [Blanks], by simp [Blanks], rfl⟩

theorem skip_gap {gap rest : List Char} (hgap : Blanks gap) (hrest : StopsRun isBlank rest) :
    skip (gap ++ rest) = rest :=
  dropWhile_of_run hgap hrest

/-- Nothing is skipped in front of what is no blank. -/
theorem skip_cons {c : Char} {cs : List Char} (h : isBlank c = false) :
    skip (c :: cs) = c :: cs := by
  simp [skip, h]

/-- What is written for `x` in front of a rest, `text rest`, reads back as `x`, whatever may stand
behind it; no part of a row begins like the end of one. -/
structure ReadsBack {α : Type} (part? : Nat → List Char → Option (α × List Char))
    (text : List Char → List Char) (x : α) : Prop where
  grows : ∀ rest, rest.length < (text rest).length
  starts : ∀ rest, ∃ c cs, text rest = c :: cs ∧ isBlank c = false ∧ c ≠ ']' ∧ c ≠ '\x7d'
  reads : ∀ rest fuel, Closes rest → (text rest).length ≤ fuel + rest.length →
    part? fuel (text rest) = some (x, rest)

/-- The parts of a row behind the first one. -/
def rowText {α : Type} (gap : List Char) (text : α → List Char → List Char) :
    List α → List Char → List Char
  | [], rest => rest
  | x :: xs, rest => ',' :: (gap ++ text x (rowText gap text xs rest))

section

variable {α : Type} {part? : Nat → List Char → Option (α × List Char)}
    {text : α → List Char → List Char}
  {closing : Char} {gap gap' : List Char}

theorem ReadsBack.stops {x : α} (h : ReadsBack part? (text x) x) (rest : List Char) :
    StopsRun isBlank (text x rest) := by
  obtain ⟨c, cs, htext, hblank, -⟩ := h.starts rest
  rw [htext]
  exact stopsRun_cons.mpr hblank

theorem length_rowText {xs : List α} (h : ∀ x ∈ xs, ReadsBack part? (text x) x) (rest : List Char) :
    rest.length ≤ (rowText gap text xs rest).length := by
  induction xs with
  | nil => exact le_rfl
  | cons x xs ih =>
    have hrow := ih fun y hy => h y (by simp [hy])
    have hx := (h x (by simp)).grows (rowText gap text xs rest)
    simp [rowText]
    omega

/-- The parts of a row read back one after the other. -/
theorem row_read {fuel limit : Nat} (hgap : Blanks gap) (hgap' : Blanks gap')
    (hclosing : closing = ']' ∨ closing = '\x7d') {x : α} {xs : List α}
    (hx : ReadsBack part? (text x) x) (h : ∀ y ∈ xs, ReadsBack part? (text y) y) {rest : List Char}
    (hfuel : (text x (rowText gap text xs (gap' ++ closing :: rest))).length ≤ fuel + rest.length)
    (hlimit : (text x (rowText gap text xs (gap' ++ closing :: rest))).length ≤
      limit + rest.length) :
    row? closing (part? fuel) limit (text x (rowText gap text xs (gap' ++ closing :: rest))) =
      some (x :: xs, rest) := by
  have hends : closing ≠ ',' ∧ isBlank closing = false := by
    rcases hclosing with rfl | rfl <;> decide
  have hmem : closing ∈ [',', ']', '\x7d'] := by
    rcases hclosing with rfl | rfl <;> simp
  obtain ⟨tail, htail⟩ : ∃ tail, tail = gap' ++ closing :: rest := ⟨_, rfl⟩
  have hlong : rest.length < tail.length := by
    rw [htail, List.length_append, List.length_cons]
    omega
  rw [← htail] at hfuel hlimit ⊢
  -- a part is longer than nothing, so the limit goes down with the text that is left
  induction xs generalizing x limit with
  | nil =>
    simp only [rowText] at hfuel hlimit ⊢
    have hgrows := hx.grows tail
    obtain ⟨limit, rfl⟩ : ∃ k, limit = k + 1 := ⟨limit - 1, by omega⟩
    have hcloses : Closes tail := htail ▸ closes_gap hgap' (closes_cons (.inr hmem))
    have hread := hx.reads tail fuel hcloses (by omega)
    have hskip : skip tail = closing :: rest := htail ▸ skip_gap hgap' (stopsRun_cons.mpr hends.2)
    simp [row?, hread, hskip]
  | cons y ys ih =>
    have hy := h y (by simp)
    have hys : ∀ z ∈ ys, ReadsBack part? (text z) z := fun z hz => h z (by simp [hz])
    obtain ⟨more, hmore⟩ : ∃ more, more = text y (rowText gap text ys tail) := ⟨_, rfl⟩
    have hgrows := hx.grows (',' :: (gap ++ more))
    have hmoreGrows : tail.length < more.length := by
      have hrow : tail.length ≤ (rowText gap text ys tail).length := length_rowText hys tail
      have := hy.grows (rowText gap text ys tail)
      rw [hmore]
      omega
    simp only [rowText, ← hmore] at hfuel hlimit ⊢
    simp only [List.length_cons, List.length_append] at hgrows
    obtain ⟨limit, rfl⟩ : ∃ k, limit = k + 1 := ⟨limit - 1, by omega⟩
    have hread := hx.reads (',' :: (gap ++ more)) fuel (closes_cons (.inr (by simp)))
        (by simp; omega)
    have hcomma : skip (',' :: (gap ++ more)) = ',' :: (gap ++ more) := skip_cons (by decide)
    have hskip : skip (gap ++ more) = more := skip_gap hgap (hmore ▸ hy.stops _)
    have hrow : row? closing (part? fuel) limit more = some (y :: ys, rest) := by
      rw [hmore]
      exact ih hy hys (by rw [← hmore]; omega) (by rw [← hmore]; omega)
    simp [row?, hread, hcomma, hskip, hrow, hends.1.symm]

/-- Brackets with a row of parts, or with nothing. -/
theorem bracketed_read {fuel : Nat} {first : List Char} (hfirst : Blanks first) (hgap : Blanks gap)
    (hgap' : Blanks gap') (hclosing : closing = ']' ∨ closing = '\x7d') {x : α} {xs : List α}
    (hx : ReadsBack part? (text x) x) (h : ∀ y ∈ xs, ReadsBack part? (text y) y) {rest : List Char}
    (hfuel : (text x (rowText gap text xs (gap' ++ closing :: rest))).length ≤ fuel + rest.length) :
    bracketed? closing (part? fuel) fuel
      (first ++ text x (rowText gap text xs (gap' ++ closing :: rest))) = some (x :: xs, rest) := by
  have hrow := row_read hgap hgap' hclosing hx h hfuel hfuel
  have hskip := skip_gap hfirst (hx.stops (rowText gap text xs (gap' ++ closing :: rest)))
  obtain ⟨c, cs, hstart, -, hbracket, hbrace⟩ :=
    hx.starts (rowText gap text xs (gap' ++ closing :: rest))
  have hne : c ≠ closing := by rcases hclosing with rfl | rfl <;> assumption
  rw [hstart] at hrow hskip ⊢
  simp [bracketed?, hskip, hne, hrow]

theorem bracketed_empty {fuel : Nat} (hclosing : closing = ']' ∨ closing = '\x7d')
    (rest : List Char) :
    bracketed? closing (part? fuel) fuel (closing :: rest) = some ([], rest) := by
  have hskip : skip (closing :: rest) = closing :: rest := by
    rcases hclosing with rfl | rfl <;> exact skip_cons (by decide)
  simp [bracketed?, hskip]

end

/-! ## Values -/

/-- The values that are written as JSON has them: a number in its spelling is a numeral that shows
that it is real. -/
inductive Proper : JsonValue → Prop
  | integer (k : Int) : Proper (.integer k)
  | spelled {text : String} {n : Numeral} (negative : Bool) (hn : n.Complete) (hreal : n.IsReal)
      (htext : text.toList = n.signed negative) : Proper (.spelled text)
  | string (s : String) : Proper (.string s)
  | array {items : List JsonValue} (h : ∀ v ∈ items, Proper v) : Proper (.array items)
  | object {members : List (String × JsonValue)} (h : ∀ m ∈ members, Proper m.2) :
      Proper (.object members)

section

variable {style : Style}

theorem number_readsBack {v : JsonValue} {n : Numeral} (hn : n.Complete) (negative : Bool)
    {text : List Char → List Char} (htext : ∀ rest, text rest = n.signed negative ++ rest)
    (hvalue : numberValue negative n = v) : ReadsBack value? text v := by
  obtain ⟨c, more, hsigned, hc⟩ := Numeral.signed_first hn negative
  have hother : isBlank c = false ∧ c ≠ ']' ∧ c ≠ '\x7d' ∧ c ≠ '"' ∧ c ≠ '[' ∧ c ≠ '\x7b' := by
    rcases hc with rfl | hd
    · decide
    · refine ⟨?_, ?_⟩
      · by_contra hblank
        simp only [Bool.not_eq_false, isBlank, Bool.or_eq_true, beq_iff_eq] at hblank
        rcases hblank with ((rfl | rfl) | rfl) | rfl <;> exact absurd hd (by decide)
      · refine ⟨?_, ?_, ?_, ?_, ?_⟩ <;> (rintro rfl; exact absurd hd (by decide))
  obtain ⟨hblank, hbracket, hbrace, hquote, hopenBracket, hopenBrace⟩ := hother
  refine ⟨fun rest => ?_, fun rest => ?_, fun rest fuel hrest hfuel => ?_⟩
  · rw [htext, hsigned]
    simp only [List.length_cons, List.length_append]
    omega
  · rw [htext, hsigned]
    exact ⟨c, more ++ rest, rfl, hblank, hbracket, hbrace⟩
  · have hword := word?_signed hn negative rest
    have hnumber := number?_signed hn negative (ends_of_closes hrest n)
    rw [htext] at hfuel ⊢
    rw [hvalue] at hnumber
    rw [hsigned, List.cons_append] at hword hnumber hfuel ⊢
    obtain ⟨fuel, rfl⟩ : ∃ k, fuel = k + 1 := ⟨fuel - 1, by simp at hfuel; omega⟩
    simp [value?, hquote, hopenBracket, hopenBrace, hword, hnumber]

theorem integer_readsBack (k : Int) (depth : Nat) :
    ReadsBack value? ((JsonValue.integer k).write style depth) (.integer k) := by
  refine number_readsBack (Numeral.complete_toDigits k.natAbs) (decide (k < 0)) (fun rest => ?_) ?_
  · rw [JsonValue.write, Numeral.toList_toString_int]
  · simp only [numberValue, numberOf_toDigits, decide_eq_true_eq]
    congr 1
    split <;> omega

theorem spelled_readsBack {text : String} {n : Numeral} (negative : Bool) (hn : n.Complete)
    (hreal : n.IsReal) (htext : text.toList = n.signed negative) (depth : Nat) :
    ReadsBack value? ((JsonValue.spelled text).write style depth) (.spelled text) := by
  refine number_readsBack hn negative (fun rest => ?_) ?_
  · rw [JsonValue.write, htext]
  · have hspelled : String.ofList (n.signed negative) = text := by
      rw [← htext, String.ofList_toList]
    rcases hreal with h | h <;> simp [numberValue, h, hspelled]

theorem quoted_append (s : String) (rest : List Char) :
    JsonValue.quoted s ++ rest = '"' :: (s.toList.flatMap JsonValue.escape ++ '"' :: rest) := by
  simp [JsonValue.quoted]

theorem string_readsBack (s : String) (depth : Nat) :
    ReadsBack value? ((JsonValue.string s).write style depth) (.string s) := by
  refine ⟨fun rest => ?_, fun rest => ?_, fun rest fuel _ hfuel => ?_⟩
    <;> rw [JsonValue.write, quoted_append] at *
  · simp only [List.length_cons, List.length_append]
    omega
  · exact ⟨_, _, rfl, by decide, by decide, by decide⟩
  · obtain ⟨fuel, rfl⟩ : ∃ k, fuel = k + 1 := ⟨fuel - 1, by simp at hfuel; omega⟩
    simp [value?, string?_written]

theorem writeItems_eq (depth : Nat) (items : List JsonValue) (rest : List Char) :
    JsonValue.writeItems style depth items rest =
      rowText (style.gap depth) (fun v => v.write style depth) items rest := by
  induction items with
  | nil => rw [JsonValue.writeItems, rowText]
  | cons v items ih => rw [JsonValue.writeItems, rowText, ih]

/-- A member as it is written. -/
def memberText (style : Style) (depth : Nat) (member : String × JsonValue) (rest : List Char) :
    List Char :=
  JsonValue.quoted member.1 ++ (style.colon ++ member.2.write style depth rest)

theorem writeMembers_eq (depth : Nat) (members : List (String × JsonValue)) (rest : List Char) :
    JsonValue.writeMembers style depth members rest =
      rowText (style.gap depth) (memberText style depth) members rest := by
  induction members with
  | nil => rw [JsonValue.writeMembers, rowText]
  | cons m members ih => rw [JsonValue.writeMembers, rowText, ih, memberText]

theorem member_readsBack (hstyle : Spacing style) {depth : Nat} {m : String × JsonValue}
    (h : ReadsBack value? (m.2.write style depth) m.2) :
    ReadsBack (fun fuel => member? (value? fuel)) (memberText style depth m) m := by
  obtain ⟨key, v⟩ := m
  change ReadsBack value? (v.write style depth) v at h
  obtain ⟨before, after, hbefore, hafter, hcolon⟩ := hstyle.colon
  have htext : ∀ rest, memberText style depth (key, v) rest =
      '"' :: (key.toList.flatMap JsonValue.escape ++ '"' ::
        (before ++ ':' :: (after ++ v.write style depth rest))) := by
    intro rest
    simp [memberText, quoted_append, hcolon]
  refine ⟨fun rest => ?_, fun rest => ?_, fun rest fuel hrest hfuel => ?_⟩ <;> rw [htext] at *
  · have := h.grows rest
    simp only [List.length_cons, List.length_append]
    omega
  · exact ⟨_, _, rfl, by decide, by decide, by decide⟩
  · have hread := h.reads rest fuel hrest (by simp at hfuel; omega)
    have hskip : skip (before ++ ':' :: (after ++ v.write style depth rest)) =
        ':' :: (after ++ v.write style depth rest) :=
          skip_gap hbefore (stopsRun_cons.mpr (by decide))
    have hskip' := skip_gap hafter (h.stops rest)
    simp [member?, string?_written, hskip, hskip', hread]

section

variable {α : Type} {part? : Nat → List Char → Option (α × List Char)}
    {text : α → List Char → List Char}
  {opening closing : Char} {make : List α → JsonValue}

/-- A value between brackets is read part by part. -/
structure Brackets (opening closing : Char) (part? : Nat → List Char → Option (α × List Char))
    (make : List α → JsonValue) : Prop where
  opens : isBlank opening = false ∧ opening ≠ ']' ∧ opening ≠ '\x7d'
  closes : closing = ']' ∨ closing = '\x7d'
  value : ∀ fuel cs, value? (fuel + 1) (opening :: cs) =
    (bracketed? closing (part? fuel) fuel cs).map fun (xs, after) => (make xs, after)

theorem brackets_array : Brackets '[' ']' value? .array :=
  ⟨by decide, .inl rfl, fun _ _ => by rw [value?]⟩

theorem brackets_object : Brackets '\x7b' '\x7d' (fun fuel => member? (value? fuel)) .object :=
  ⟨by decide, .inr rfl, fun _ _ => by rw [value?]⟩

/-- A value in brackets reads back when its parts do. -/
theorem Brackets.parts_readBack (h : Brackets opening closing part? make)
    {first gap gap' : List Char} (hfirst : Blanks first) (hgap : Blanks gap) (hgap' : Blanks gap')
    {x : α} {xs : List α} (hall : ∀ y ∈ x :: xs, ReadsBack part? (text y) y)
    {whole : List Char → List Char} (hwhole : ∀ rest, whole rest = opening ::
      (first ++ text x (rowText gap text xs (gap' ++ closing :: rest)))) :
    ReadsBack value? whole (make (x :: xs)) := by
  have hx := hall x (by simp)
  have hxs : ∀ y ∈ xs, ReadsBack part? (text y) y := fun y hy => hall y (by simp [hy])
  refine ⟨fun rest => ?_, fun rest => ?_, fun rest fuel _ hfuel => ?_⟩ <;> rw [hwhole] at *
  · have hrow : (gap' ++ closing :: rest).length ≤
        (rowText gap text xs (gap' ++ closing :: rest)).length :=
      length_rowText hxs _
    have := hx.grows (rowText gap text xs (gap' ++ closing :: rest))
    simp only [List.length_append, List.length_cons] at hrow ⊢
    omega
  · exact ⟨_, _, rfl, h.opens⟩
  · simp only [List.length_append, List.length_cons] at hfuel
    have := hx.grows (rowText gap text xs (gap' ++ closing :: rest))
    have hrow : (gap' ++ closing :: rest).length ≤
        (rowText gap text xs (gap' ++ closing :: rest)).length :=
      length_rowText hxs _
    simp only [List.length_append, List.length_cons] at hrow
    obtain ⟨fuel, rfl⟩ : ∃ k, fuel = k + 1 := ⟨fuel - 1, by omega⟩
    rw [h.value, bracketed_read hfirst hgap hgap' h.closes hx hxs (by omega)]
    rfl

/-- So do brackets with nothing between them. -/
theorem Brackets.nothing_readsBack (h : Brackets opening closing part? make)
    {whole : List Char → List Char} (hwhole : ∀ rest, whole rest = opening :: closing :: rest) :
    ReadsBack value? whole (make []) := by
  refine ⟨fun rest => ?_, fun rest => ?_, fun rest fuel _ hfuel => ?_⟩ <;> rw [hwhole] at *
  · simp only [List.length_cons]
    omega
  · exact ⟨_, _, rfl, h.opens⟩
  · obtain ⟨fuel, rfl⟩ : ∃ k, fuel = k + 1 := ⟨fuel - 1, by simp at hfuel; omega⟩
    rw [h.value, bracketed_empty h.closes]
    rfl

end

/-- What is proper reads back, with its parts. -/
theorem readsBack (hstyle : Spacing style) {v : JsonValue} (h : Proper v) (depth : Nat) :
    ReadsBack value? (v.write style depth) v := by
  induction h generalizing depth with
  | integer k => exact integer_readsBack k depth
  | spelled negative hn hreal htext => exact spelled_readsBack negative hn hreal htext depth
  | string s => exact string_readsBack s depth
  | @array items _ ih =>
    cases items with
    | nil =>
      exact brackets_array.nothing_readsBack fun rest => by rw [JsonValue.write]
    | cons v items =>
      refine brackets_array.parts_readBack (hstyle.gap (depth + 1)) (hstyle.gap (depth + 1))
        (hstyle.gap depth)
        (fun w hw => ih w hw (depth + 1)) fun rest => ?_
      rw [JsonValue.write, writeItems_eq]
  | @object members _ ih =>
    cases members with
    | nil =>
      exact brackets_object.nothing_readsBack fun rest => by rw [JsonValue.write]
    | cons m members =>
      refine brackets_object.parts_readBack (hstyle.gap (depth + 1)) (hstyle.gap (depth + 1))
        (hstyle.gap depth)
        (fun w hw => member_readsBack hstyle (ih w hw (depth + 1))) fun rest => ?_
      rw [JsonValue.write, writeMembers_eq, memberText]

/-- A proper value reads back from its text. -/
theorem read?_written (hstyle : Spacing style) {v : JsonValue} (h : Proper v) :
    read? (String.ofList (v.write style 0 [])) = some v := by
  have hv := readsBack hstyle h 0
  have hread := hv.reads [] (v.write style 0 []).length closes_nil (by simp)
  have hskip : skip (v.write style 0 []) = v.write style 0 [] := by
    obtain ⟨c, cs, htext, hblank, -⟩ := hv.starts []
    rw [htext]
    exact skip_cons hblank
  simp only [read?, String.toList_ofList, hskip, hread]
  rfl

end

end Json

end PascalFront
