-- The location line of a report. It gives the line and the column of the
-- character whose index is the offset that the report gets. A diagnostic counts
-- its offset in bytes, so the line is right where every character in front of
-- the token has one byte, and nowhere else.
import PascalFront.Proofs.Labels

namespace PascalFront

open String (utf8Len)

/-! ## Places and their texts -/

namespace Position

theorem toList_describe (p : Position) :
    p.describe.toList = Nat.toDigits 10 p.line ++ ':' :: Nat.toDigits 10 p.column := by
  have h : p.describe = toString p.line ++ ":" ++ toString p.column := rfl
  rw [h, String.toList_append, String.toList_append, toList_toString, toList_toString]
  simp

theorem colon_notMem_toDigits (n : Nat) : ':' ∉ Nat.toDigits 10 n :=
  fun h => absurd (Nat.isDigit_of_mem_toDigits (by decide) (Nat.le_refl 10) h) (by decide)

theorem describe_injective {p q : Position} (h : p.describe = q.describe) : p = q := by
  have hdigits := congrArg String.toList h
  rw [toList_describe, toList_describe, List.append_cons_inj_of_notMem
    (colon_notMem_toDigits _) (colon_notMem_toDigits _)] at hdigits
  obtain ⟨hline, -, hcolumn⟩ := hdigits
  cases p
  cases q
  exact Position.mk.injEq .. ▸ ⟨toDigits_injective hline, toDigits_injective hcolumn⟩

end Position

theorem Mark.position_after (m : Mark) (cs : List Char) :
    (m.after cs).position = cs.foldl Position.after m.position := by
  induction cs generalizing m with
  | nil => rfl
  | cons c cs ih => exact ih (m.step c)

theorem placeBehind_eq (cs : List Char) :
    placeBehind cs = cs.foldl Position.after .first := by
  rw [← position_after_start, Mark.position_after]
  rfl

/-! ## The lines of a text -/

namespace Report

/-- Nothing but line feeds ends a line of the text. -/
def OnlyLineFeeds (cs : List Char) : Prop := ∀ c ∈ cs, isSeparator c = true → c = '\n'

instance (cs : List Char) : Decidable (OnlyLineFeeds cs) :=
  List.decidableBAll (fun c => isSeparator c = true → c = '\n') cs

theorem cutFrom_lineFeed (begun rest : List Char) :
    cutFrom begun ('\n' :: rest) = ('\n' :: begun).reverse :: cutFrom [] rest := by
  simp [cutFrom, isSeparator]

theorem cutFrom_other {c : Char} (h : isSeparator c = false) (begun rest : List Char) :
    cutFrom begun (c :: rest) = cutFrom (c :: begun) rest := by
  have hc : c ≠ '\r' := by
    rintro rfl
    exact absurd h (by decide)
  simp [cutFrom, hc, h]

/-- The line that is begun gets longer by what comes next. -/
theorem exists_cutFrom (begun cs : List Char) (h : begun ≠ [] ∨ cs ≠ []) :
    ∃ line more, cutFrom begun cs = line :: more ∧
      begun.length + min 1 cs.length ≤ line.length := by
  fun_induction cutFrom begun cs with
  | case1 => simp_all
  | case2 => simp_all
  | case3 begun rest => exact ⟨_, _, rfl, by simp⟩
  | case4 begun c rest => exact ⟨_, _, rfl, by simp⟩
  | case5 begun c rest _ _ ih =>
    obtain ⟨line, more, hcut, hlength⟩ := ih (.inl (List.cons_ne_nil c begun))
    refine ⟨line, more, hcut, ?_⟩
    simp only [List.length_cons] at hlength ⊢
    omega

/-- The line with an index is the last one that starts at or before an offset, and there are so many
characters of it in front of the offset. -/
structure Holds (lines : List SourceLine) (offset index column : Nat) : Prop where
  reached : (lines.takeWhile (·.start ≤ offset)).length = index + 1
  start : (lines.getD index default).start + column = offset

theorem Holds.cons {lines : List SourceLine} {offset index column : Nat}
    (h : Holds lines offset index column) {first : SourceLine} (hfirst : first.start ≤ offset) :
    Holds (first :: lines) offset (index + 1) column := by
  refine ⟨?_, h.start⟩
  rw [List.takeWhile_cons_of_pos (by simpa using hfirst), List.length_cons, h.reached]

/-- An offset in the line that is begun belongs to this line. -/
theorem holds_begun (begun : List Char) (start : Nat) {cs : List Char} (h : cs ≠ []) :
    Holds (numberFrom start (cutFrom begun cs)) (start + begun.length) 0 begun.length := by
  obtain ⟨line, more, hcut, hlength⟩ := exists_cutFrom begun cs (.inr h)
  have hpos := List.length_pos_of_ne_nil h
  rw [hcut, numberFrom]
  refine ⟨?_, rfl⟩
  rw [List.takeWhile_cons_of_pos (by simp), List.length_cons, Nat.add_right_cancel_iff,
    List.length_eq_zero_iff]
  cases more with
  | nil => rfl
  | cons next more =>
    rw [numberFrom, List.takeWhile_cons_of_neg]
    simp only [decide_eq_true_eq]
    omega

/-- Lines and columns that are counted while the characters are read lead to the line that holds
the offset. -/
theorem holds_behind {cs : List Char} (hcs : OnlyLineFeeds cs) (begun : List Char)
    (start line : Nat) {n : Nat} (hn : n < cs.length) :
    ∃ index column, (cs.take n).foldl Position.after ⟨line + 1, begun.length + 1⟩ =
        ⟨line + index + 1, column + 1⟩ ∧
      Holds (numberFrom start (cutFrom begun cs)) (start + begun.length + n) index column := by
  induction cs generalizing begun start line n with
  | nil => exact absurd hn (Nat.not_lt_zero n)
  | cons c rest ih =>
    have hrest : OnlyLineFeeds rest := fun d hd => hcs d (List.mem_cons_of_mem c hd)
    cases n with
    | zero => exact ⟨0, begun.length, rfl, holds_begun begun start (List.cons_ne_nil c rest)⟩
    | succ n =>
      have hn' : n < rest.length := Nat.lt_of_succ_lt_succ hn
      by_cases hc : c = '\n'
      · subst hc
        obtain ⟨index, column, hplace, hholds⟩ := ih hrest [] (start + begun.length + 1)
          (line + 1) hn'
        have hline : line + 1 + index + 1 = line + (index + 1) + 1 := by omega
        have hoffset : start + begun.length + (n + 1) = start + begun.length + 1 + 0 + n := by omega
        have hnext : start + ('\n' :: begun).reverse.length = start + begun.length + 1 := by
          rw [List.length_reverse, List.length_cons, Nat.add_assoc]
        rw [hline] at hplace
        rw [List.take_succ_cons, List.foldl_cons, cutFrom_lineFeed, numberFrom, hoffset, hnext]
        exact ⟨index + 1, column, hplace, hholds.cons (by dsimp only; omega)⟩
      · have hother : isSeparator c = false := by
          cases hsep : isSeparator c with
          | false => rfl
          | true => exact absurd (hcs c List.mem_cons_self hsep) hc
        obtain ⟨index, column, hplace, hholds⟩ := ih hrest (c :: begun) start line hn'
        have hoffset : start + begun.length + (n + 1) = start + (c :: begun).length + n := by
          rw [List.length_cons]
          omega
        rw [List.take_succ_cons, List.foldl_cons, Position.after, if_neg hc, cutFrom_other hother,
          hoffset]
        exact ⟨index, column, hplace, hholds⟩

/-! ## Offsets in a text -/

section

variable {source : String} {n : Nat}

theorem lineAt?_of_holds {index column : Nat}
    (h : Holds (Source.ofText source).lines n index column) (hn : n ≤ source.length) :
    (Source.ofText source).lineAt? n = some index := by
  rw [Source.lineAt?, if_pos (show n ≤ (Source.ofText source).size from hn), h.reached]

theorem location_of_holds {index column : Nat}
    (h : Holds (Source.ofText source).lines n index column) (hn : n ≤ source.length) :
    location (.ofText source) n = Position.describe ⟨index + 1, column + 1⟩ := by
  have hcolumn : n - ((Source.ofText source).line index).start = column :=
    Nat.sub_eq_of_eq_add' h.start.symm
  rw [location, lineAt?_of_holds h hn]
  dsimp only
  rw [hcolumn]

/-- The line of every offset in a text that is not empty. -/
theorem exists_holds (hne : source.toList ≠ []) (n : Nat) :
    ∃ index column, Holds (Source.ofText source).lines n index column := by
  obtain ⟨line, more, hcut, -⟩ := exists_cutFrom [] source.toList (.inr hne)
  have hfirst : (Source.ofText source).lines = ⟨0, line⟩ :: numberFrom (0 + line.length) more := by
    rw [Source.ofText, hcut, numberFrom]
  obtain ⟨index, hlength⟩ : ∃ index,
      ((Source.ofText source).lines.takeWhile (·.start ≤ n)).length = index + 1 := by
    rw [hfirst, List.takeWhile_cons_of_pos (by simp), List.length_cons]
    exact ⟨_, rfl⟩
  have hlt : index < ((Source.ofText source).lines.takeWhile (·.start ≤ n)).length := by omega
  have hstart : ((Source.ofText source).lines.getD index default).start ≤ n := by
    have hmem := List.mem_takeWhile_imp (List.getElem_mem hlt)
    rw [(List.takeWhile_prefix _).getElem hlt] at hmem
    have hlt' := Nat.lt_of_lt_of_le hlt (List.takeWhile_prefix _).length_le
    rw [List.getD_eq_getElem?_getD, List.getElem?_eq_getElem hlt', Option.getD_some]
    exact of_decide_eq_true hmem
  exact ⟨index, _, hlength, Nat.add_sub_cancel' hstart⟩

theorem exists_lineAt? (hne : source.toList ≠ []) (hn : n ≤ source.length) :
    ∃ index, (Source.ofText source).lineAt? n = some index := by
  obtain ⟨index, column, h⟩ := exists_holds hne n
  exact ⟨index, lineAt?_of_holds h hn⟩

/-- Two offsets of one text are not at the same place. -/
theorem location_injective {n' : Nat} (hne : source.toList ≠ []) (hn : n ≤ source.length)
    (hn' : n' ≤ source.length)
    (h : location (.ofText source) n = location (.ofText source) n') : n = n' := by
  obtain ⟨index, column, hholds⟩ := exists_holds hne n
  obtain ⟨index', column', hholds'⟩ := exists_holds hne n'
  rw [location_of_holds hholds hn, location_of_holds hholds' hn'] at h
  obtain ⟨hindex, hcolumn⟩ := Position.mk.inj (Position.describe_injective h)
  rw [← hholds.start, ← hholds'.start, Nat.succ.inj hindex, Nat.succ.inj hcolumn]

/-- The location of an offset is the place of the character with that index. -/
theorem location_eq (hfeeds : OnlyLineFeeds source.toList) (hn : n < source.length) :
    location (.ofText source) n = (placeBehind (source.toList.take n)).describe := by
  have hlength : n < source.toList.length := by rwa [String.length_toList]
  obtain ⟨index, column, hplace, hholds⟩ := holds_behind hfeeds [] 0 0 hlength
  have hoffset : 0 + ([] : List Char).length + n = n := by simp
  rw [hoffset] at hholds
  rw [location_of_holds hholds (Nat.le_of_lt hn), placeBehind_eq]
  have hstart : Position.first = ⟨0 + 1, ([] : List Char).length + 1⟩ := rfl
  rw [hstart, hplace, Nat.zero_add]

end

/-! ## The location line -/

/-- The row of a report that says where a diagnostic stands. -/
def locationRow (m : Margin) (filename place : String) : Row :=
  m.outside ++ '╭' :: '─' :: '[' :: (filename ++ ":" ++ place).toList ++ [']']

section

variable {source : String} {d : Diagnostic} {text : String}

theorem rows_located (hne : source.toList ≠ []) (hlabels : d.labels = [⟨d.span, text⟩])
    (hlt : d.span.start < d.span.stop) (hstop : d.span.stop ≤ source.length + 1)
    (filename : String) : ∃ m rest, rows (.ofText source) filename d =
      .ok (headline d :: locationRow m filename (location (.ofText source) d.span.start) ::
        rest) := by
  obtain ⟨a, ha⟩ := exists_lineAt? hne (n := d.span.start) (by omega)
  obtain ⟨b, hb⟩ := exists_lineAt? hne (n := d.span.stop - 1) (by omega)
  have hreach : reach? (.ofText source) d.span = some (a, b) := by
    rw [reach?, ha]
    dsimp only
    rw [if_neg (Nat.ne_of_lt hlt), hb, Option.map_some]
  rw [rows, hlabels]
  dsimp only
  rw [if_neg (Nat.not_lt.mpr (Nat.le_of_lt hlt)), hreach]
  exact ⟨⟨(toString (b + 1)).length⟩, _, rfl⟩

/-- A label that goes too far is not drawn, and then there is no location line. -/
theorem rows_bare (hlabels : d.labels = [⟨d.span, text⟩]) (hlt : d.span.start < d.span.stop)
    (hstop : source.length + 1 < d.span.stop) (filename : String) :
    rows (.ofText source) filename d = .ok [headline d] := by
  have hb : (Source.ofText source).lineAt? (d.span.stop - 1) = none :=
    if_neg fun hle : d.span.stop - 1 ≤ source.length => by omega
  have hreach : reach? (.ofText source) d.span = none := by
    unfold reach?
    split
    · rfl
    · rw [if_neg (Nat.ne_of_lt hlt), hb, Option.map_none]
  rw [rows, hlabels]
  dsimp only
  rw [if_neg (Nat.not_lt.mpr (Nat.le_of_lt hlt)), hreach]

end

end Report

theorem length_le_utf8Len (cs : List Char) : cs.length ≤ utf8Len cs := by
  induction cs with
  | nil => exact Nat.le_refl 0
  | cons c cs ih =>
    have := c.utf8Size_pos
    rw [List.length_cons, String.utf8Len_cons]
    omega

theorem utf8Len_eq_length_iff {cs : List Char} :
    utf8Len cs = cs.length ↔ ∀ c ∈ cs, c.utf8Size = 1 := by
  induction cs with
  | nil => simp
  | cons c cs ih =>
    have := c.utf8Size_pos
    have := length_le_utf8Len cs
    rw [List.forall_mem_cons, ← ih, String.utf8Len_cons, List.length_cons]
    omega

/-! ## The law -/

open Report

/-- What the reports of a diagnostic say of its place, when `before` stands in front of the token.
The offset that they take for a count of characters is a count of bytes. -/
structure Diagnostic.Located (d : Diagnostic) (source : String) (before : List Char) : Prop where
  position : d.position = some (placeBehind before)
  start : d.span.start = utf8Len before
  shown : d.span.stop ≤ source.length + 1 → ∀ filename, ∃ m rest,
    rows (.ofText source) filename d = .ok (headline d ::
      locationRow m filename (location (.ofText source) d.span.start) :: rest)
  not_shown : source.length + 1 < d.span.stop → ∀ filename,
    rows (.ofText source) filename d = .ok [headline d]
  /-- The character with the index that the offset says is at the place that is shown. -/
  at_offset : d.span.start < source.length → location (.ofText source) d.span.start =
    (placeBehind (source.toList.take d.span.start)).describe
  /-- The number of characters would lead to the right place. -/
  at_length : location (.ofText source) before.length = (placeBehind before).describe
  right_iff : d.span.start ≤ source.length →
    (location (.ofText source) d.span.start = (placeBehind before).describe ↔
      ∀ c ∈ before, c.utf8Size = 1)

theorem Diagnostic.MadeAt.located {source : String} {d : Diagnostic} {t : Token}
    (hat : d.MadeAt t) {before after : List Char} {l : Lexeme}
    (hs : Scanner.Stands .start source.toList t before l after)
    (hlength : source.utf8ByteSize < 0x100000000) (hfeeds : OnlyLineFeeds source.toList) :
    d.Located source before := by
  obtain ⟨hspan, hposition, text, hlabels⟩ := hat
  rw [hs.span hlength] at hspan
  have hstart : d.span.start = utf8Len before := congrArg Span.start hspan
  have hlt : d.span.start < d.span.stop := by
    have hpos := utf8Len_pos (List.cons_ne_nil l.first l.more)
    simp only [hspan, String.utf8Len_append]
    exact Nat.lt_add_of_pos_right hpos
  have hne : source.toList ≠ [] := by
    rw [hs.text]
    simp [Lexeme.taken]
  have hinside : before.length < source.length := by
    rw [← String.length_toList, hs.text]
    simp [Lexeme.taken]
  have htake : source.toList.take before.length = before := by rw [hs.text, List.take_left]
  have hcharacters : location (.ofText source) before.length = (placeBehind before).describe := by
    rw [location_eq hfeeds hinside, htake]
  rw [hs.span hlength, ← hspan] at hlabels
  refine ⟨?_, hstart, rows_located hne hlabels hlt, rows_bare hlabels hlt, location_eq hfeeds,
    hcharacters, fun hle => ?_⟩
  · rw [hposition, hs.token]
    exact congrArg some (position_after_start before)
  · rw [← utf8Len_eq_length_iff, ← hstart, ← hcharacters]
    exact ⟨location_injective hne hle (Nat.le_of_lt hinside), fun heq => heq ▸ rfl⟩

/-- In a text whose lines end at line feeds only, the location line of a diagnostic at a token is
the position of the diagnostic exactly when each character in front of the token has one byte. -/
theorem location_line_takes_bytes_for_characters (settings : Settings) (source : String)
    (h : source.utf8ByteSize < 0x100000000 - 1) (hfeeds : OnlyLineFeeds source.toList) :
    ∀ d ∈ (parseProgram settings source).diagnostics,
      (∃ t ∈ tokensOf source, d.MadeAt t) ∧
      ∀ t ∈ tokensOf source, d.MadeAt t → t.kind ≠ .endOfFile →
        ∃ before, before <+: source.toList ∧ d.Located source before := by
  intro d hd
  refine ⟨Parser.exists_madeAt hd, fun t ht hat hk => ?_⟩
  obtain ⟨before, l, after, hs⟩ := Scanner.exists_stands ht hk
  exact ⟨before, ⟨_, hs.text.symm⟩, hat.located hs (by omega) hfeeds⟩

/-- A letter of two bytes in front of a string over two lines. -/
def accentedSource : String := "é \x27a\nb\x27 "

theorem accentedSource_is_located : accentedSource.utf8ByteSize < 0x100000000 - 1 ∧
    OnlyLineFeeds accentedSource.toList ∧
    ∃ d ∈ (parseProgram {} accentedSource).diagnostics, d.span = ⟨3, 8⟩ ∧
      ∃ before, before <+: accentedSource.toList ∧ d.Located accentedSource before := by
  have hlength : accentedSource.utf8ByteSize < 0x100000000 - 1 := by decide +kernel
  have hfeeds : OnlyLineFeeds accentedSource.toList := by decide +kernel
  obtain ⟨d, hd, hspan⟩ : ∃ d ∈ (parseProgram {} accentedSource).diagnostics, d.span = ⟨3, 8⟩ := by
    decide +kernel
  have hends : ∀ t ∈ tokensOf accentedSource, t.span = ⟨3, 8⟩ → t.kind ≠ .endOfFile := by
    decide +kernel
  obtain ⟨⟨t, ht, hat⟩, hlocated⟩ :=
    location_line_takes_bytes_for_characters {} accentedSource hlength hfeeds d hd
  have hk : t.kind ≠ .endOfFile := hends t ht (hat.span.symm.trans hspan)
  exact ⟨hlength, hfeeds, d, hd, hspan, hlocated t ht hat hk⟩

/-- The string in that text is at 1:3, and the report says 1:4. -/
theorem accentedSource_is_misplaced :
    (parseProgram {} accentedSource).diagnostics.map (fun d => (d.stage, d.span, d.position)) =
      [(.parser, ⟨3, 8⟩, some ⟨1, 3⟩)] ∧
    (parseProgram {} accentedSource).diagnostics.map
        (fun d => (rows (.ofText accentedSource) "prog.pas" d).map (·.getD 1 [])) =
      [.ok (locationRow ⟨1⟩ "prog.pas" "1:4")] := by
  decide +kernel

end PascalFront
