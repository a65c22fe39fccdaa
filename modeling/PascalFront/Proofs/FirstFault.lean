-- The first diagnostic of a parse stands at the first token that no program can
-- have there: nothing that starts with the tokens up to it is a program, and
-- what stands before it is the beginning of one.
import PascalFront.Proofs.ViableStatements
import PascalFront.Proofs.GrammarExact

namespace PascalFront

namespace Parser

open ParserState Form

/-- Tokens as a parse reads them: with one token for the end, the last one, and without comments
and faulty tokens. -/
structure IsRow (ts : List Token) : Prop where
  ends : EndsOnce ts
  counts : ∀ t ∈ ts, t.kind ≠ .comment ∧ t.kind ≠ .error

/-- Two rows with the same kinds of tokens. -/
def SameKinds (ts us : List Token) : Prop := ts.map Token.kind = us.map Token.kind

section

variable {ts us : List Token}

theorem IsRow.filter (h : IsRow ts) : ts.filter Cursor.isGrammatical = ts := by
  rw [List.filter_eq_self]
  intro t ht
  simpa [Cursor.isGrammatical] using h.counts t ht

theorem IsRow.tokens (h : IsRow ts) (symbols : SymbolTable) :
    (ParserState.start ts symbols).cursor.tokens = ts := by
  have hrow := h.filter
  obtain ⟨body, stop, rfl, hstop, -⟩ := h.ends
  rw [start_row_of_end hstop]
  rw [List.filter_append] at hrow
  have hkept : List.filter Cursor.isGrammatical [stop] = [stop] := by
    have hkind : stop.kind = .endOfFile := by simpa [Token.isEnd] using hstop
    simp [Cursor.isGrammatical, hkind]
  rw [hkept] at hrow
  exact hrow

theorem SameKinds.length (h : SameKinds ts us) : ts.length = us.length := by
  simpa using congrArg List.length h

theorem SameKinds.getElem? (h : SameKinds ts us) {i : Nat} {t : Token} (ht : ts[i]? = some t) :
    ∃ u, us[i]? = some u ∧ t.kind = u.kind := by
  have hi := congrArg (·[i]?) h
  simp only [List.getElem?_map, ht, Option.map_some] at hi
  obtain ⟨u, hu, hk⟩ := Option.map_eq_some_iff.mp hi.symm
  exact ⟨u, hu, hk.symm⟩

theorem SameKinds.mem (h : SameKinds ts us) {u : Token} (hu : u ∈ us) :
    ∃ t ∈ ts, t.kind = u.kind := by
  have hk : u.kind ∈ us.map Token.kind := List.mem_map_of_mem hu
  rw [← h] at hk
  obtain ⟨t, ht, hk⟩ := List.mem_map.mp hk
  exact ⟨t, ht, hk⟩

theorem isEnd_of_kind_eq {t u : Token} (h : t.kind = u.kind) : t.isEnd = u.isEnd := by
  unfold Token.isEnd
  rw [h]

theorem IsRow.of_sameKinds (hrow : IsRow ts) (h : SameKinds ts us) : IsRow us := by
  obtain ⟨⟨body, stop, rfl, hstop, hbody⟩, hcounts⟩ := hrow
  refine ⟨?_, fun u hu => ?_⟩
  · unfold SameKinds at h
    rw [List.map_append] at h
    obtain ⟨body', last, rfl, hb, hl⟩ := List.map_eq_append_iff.mp h.symm
    obtain ⟨stop', rfl, hk⟩ : ∃ stop', last = [stop'] ∧ stop'.kind = stop.kind := by
      rcases last with _ | ⟨stop', _ | ⟨x, last⟩⟩
      · simp at hl
      · exact ⟨stop', rfl, (List.cons.inj hl).1⟩
      · simp at hl
    refine ⟨body', stop', rfl, (isEnd_of_kind_eq hk).trans hstop, fun u hu => ?_⟩
    obtain ⟨t, ht, hk⟩ := SameKinds.mem hb.symm hu
    rw [← isEnd_of_kind_eq hk]
    exact hbody t ht
  · obtain ⟨t, ht, hk⟩ := h.mem hu
    rw [← hk]
    exact hcounts t ht

/-- Tokens that carry their places in the row, so that no two of them are equal. -/
def numbered (ts : List Token) : List Token :=
  ts.mapIdx fun i t => { t with position := ⟨0, i⟩ }

theorem sameKinds_numbered (ts : List Token) : SameKinds ts (numbered ts) := by
  apply List.ext_getElem?
  intro i
  simp only [numbered, List.getElem?_map, List.getElem?_mapIdx, Option.map_map]
  rfl

theorem column_numbered {i : Nat} {t : Token} (h : (numbered ts)[i]? = some t) :
    t.position.column = i := by
  simp only [numbered, List.getElem?_mapIdx] at h
  obtain ⟨u, -, rfl⟩ := Option.map_eq_some_iff.mp h
  rfl

end

/-! ## What a parse notes -/

/-- The state that a parse of a program leaves, with a tree or without one. -/
def behindProgram (settings : Settings) (symbols : SymbolTable) (ts : List Token) : ParserState :=
  ((program settings).runFrom (.start ts symbols)).2

/-- The tokens are a program without any fault. -/
def Accepts (settings : Settings) (symbols : SymbolTable) (ts : List Token) : Prop :=
  ∃ tree s', program settings (.start ts symbols) = .ok tree s' ∧ s'.Clean

/-- The first diagnostic of a parse stands at the token with this place in the row. What the tokens
say beyond their kinds does not matter for that, so it is this place also where another token of
the row is the same. -/
def FirstFaultAt (settings : Settings) (symbols : SymbolTable) (ts : List Token) (i : Nat) : Prop :=
  ∃ cause, ∀ us, SameKinds ts us → ∃ u, us[i]? = some u ∧
    (behindProgram settings symbols us).diagnostics[0]? = some (.atToken u cause)

section

variable {settings : Settings} {symbols : SymbolTable} {ts us : List Token}

theorem behindProgram_eq (settings : Settings) (symbols : SymbolTable) (ts : List Token) :
    behindProgram settings symbols ts = stateBehind (program settings (.start ts symbols)) :=
  runFrom_state _ _

theorem steps_behindProgram (settings : Settings) (symbols : SymbolTable) (ts : List Token) :
    (ParserState.start ts symbols).Steps (behindProgram settings symbols ts) := by
  rw [behindProgram_eq]
  exact Stepwise.behind _ _

theorem Accepts.clean (h : Accepts settings symbols ts) :
    (behindProgram settings symbols ts).diagnostics = #[] := by
  obtain ⟨tree, s', hr, hc⟩ := h
  rw [behindProgram_eq, hr]
  exact hc

/-- The notes of two runs agree as far as the rows do. -/
theorem SideBySide.notes [Like α] {n : Nat} {r r' : EStateM.Result Failure ParserState α}
    (h : SideBySide n r r') : ∃ notes later later', Written (notes ++ later) (stateBehind r) ∧
      Written (notes ++ later') (stateBehind r') ∧ (∀ note ∈ later, n ≤ note.1) ∧
      ∀ note ∈ later', n ≤ note.1 := by
  have htogether {s u : ParserState} (h : Together n s u) : ∃ notes later later',
      Written (notes ++ later) s ∧ Written (notes ++ later') u ∧ (∀ note ∈ later, n ≤ note.1) ∧
      ∀ note ∈ later', n ≤ note.1 := by
    obtain ⟨notes, hs, hu⟩ := h.notes
    exact ⟨notes, [], [], by simpa using hs, by simpa using hu, by simp, by simp⟩
  cases h with
  | ok _ h => exact htogether h
  | error h => exact htogether h
  | apart h => exact h.notes

/-- Two parses start together where their rows start alike. -/
theorem together_start (symbols : SymbolTable) {n : Nat} (hpos : 0 < n)
    (h : AlikeUpTo n (ParserState.start ts symbols).cursor.tokens
      (ParserState.start us symbols).cursor.tokens) :
    Together n (.start ts symbols) (.start us symbols) := by
  have hzero (ts : List Token) : (ParserState.start ts symbols).cursor.position = 0 := by
    simp [Cursor.position, start_passed]
  exact ⟨by rw [hzero, hzero], by rw [hzero]; exact hpos, h, [], .nil, .nil⟩

theorem notes_of_alike (settings : Settings) (symbols : SymbolTable) {n : Nat}
    (h : AlikeUpTo n (ParserState.start ts symbols).cursor.tokens
      (ParserState.start us symbols).cursor.tokens) :
    ∃ notes later later', Written (notes ++ later) (behindProgram settings symbols ts) ∧
      Written (notes ++ later') (behindProgram settings symbols us) ∧
      (∀ note ∈ later, n ≤ note.1) ∧ ∀ note ∈ later', n ≤ note.1 := by
  rcases Nat.eq_zero_or_pos n with rfl | hpos
  · obtain ⟨later, hlater, -⟩ := (steps_behindProgram settings symbols ts).written
      (written_start ts symbols)
    obtain ⟨later', hlater', -⟩ := (steps_behindProgram settings symbols us).written
      (written_start us symbols)
    exact ⟨[], later, later', hlater, hlater', by simp, by simp⟩
  · have hrun : Abreast (program settings) (program settings) := inferInstance
    rw [behindProgram_eq, behindProgram_eq]
    exact (hrun.run (together_start symbols hpos h)).notes

/-- A diagnostic tells where its token stood, and its cause. -/
theorem atToken_inj {t u : Token} {c c' : Cause}
    (h : Diagnostic.atToken t c = Diagnostic.atToken u c') : t.position = u.position ∧ c = c' := by
  have hposition := congrArg Diagnostic.position h
  have hcause := congrArg Diagnostic.cause h
  exact ⟨Option.some.inj hposition, Option.some.inj hcause⟩

theorem alike_of_sameKinds (symbols : SymbolTable) (hrow : IsRow ts) (h : SameKinds ts us) :
    AlikeUpTo ts.length (ParserState.start ts symbols).cursor.tokens
      (ParserState.start us symbols).cursor.tokens := by
  rw [hrow.tokens, (hrow.of_sameKinds h).tokens]
  intro i hi
  obtain ⟨u, hu, hk⟩ := h.getElem? (List.getElem?_eq_getElem hi)
  exact ⟨_, u, List.getElem?_eq_getElem hi, hu, hk⟩

/-- Rows with the same kinds of tokens get the same notes. -/
theorem notes_of_sameKinds (settings : Settings) (symbols : SymbolTable) (hrow : IsRow ts)
    (h : SameKinds ts us) :
    ∃ notes, Written notes (behindProgram settings symbols ts) ∧
      Written notes (behindProgram settings symbols us) := by
  obtain ⟨notes, later, later', hw, hw', hlater, hlater'⟩ :=
    notes_of_alike settings symbols (alike_of_sameKinds symbols hrow h)
  -- No note can stand behind the last token.
  have hnone {us : List Token} (hus : IsRow us) (hlen : us.length = ts.length)
      {notes later : List (Nat × Cause)}
      (hw : Written (notes ++ later) (behindProgram settings symbols us))
      (hlater : ∀ note ∈ later, ts.length ≤ note.1) : later = [] := by
    rcases later with _ | ⟨note, later⟩
    · rfl
    · obtain ⟨t, ht⟩ := hw.exists_token (List.mem_append_right notes List.mem_cons_self)
      have htokens := (steps_behindProgram settings symbols us).before.tokens_eq
      rw [htokens, hus.tokens] at ht
      obtain ⟨hlt, -⟩ := List.getElem?_eq_some_iff.mp ht
      have := hlater note List.mem_cons_self
      omega
  rw [hnone hrow rfl hw hlater, List.append_nil] at hw
  rw [hnone (hrow.of_sameKinds h) h.length.symm hw' hlater', List.append_nil] at hw'
  exact ⟨notes, hw, hw'⟩

theorem tokens_behindProgram (hrow : IsRow ts) :
    (behindProgram settings symbols ts).cursor.tokens = ts := by
  rw [(steps_behindProgram settings symbols ts).before.tokens_eq, hrow.tokens]

/-- The notes on a numbered row are told from its diagnostics. -/
theorem note_of_numbered (hrow : IsRow (numbered ts)) {note : Nat × Cause}
    {rest : List (Nat × Cause)}
    (hw : Written (note :: rest) (behindProgram settings symbols (numbered ts))) {u : Token}
    {cause : Cause} (hd : (behindProgram settings symbols (numbered ts)).diagnostics[0]? =
      some (.atToken u cause)) : note = (u.position.column, cause) := by
  rcases hw.first with ⟨hnil, -⟩ | ⟨i, c, _, t, hcons, ht, hfirst⟩
  · cases hnil
  · cases hcons
    rw [tokens_behindProgram hrow] at ht
    rw [hfirst] at hd
    obtain ⟨hposition, rfl⟩ := atToken_inj (Option.some.inj hd)
    rw [← hposition, column_numbered ht]

/-- A parse with a diagnostic has a first one, at one place of the row. -/
theorem exists_first_fault (hrow : IsRow ts)
    (h : (behindProgram settings symbols ts).diagnostics ≠ #[]) :
    ∃ i, FirstFaultAt settings symbols ts i := by
  have hnumbered := sameKinds_numbered ts
  have hnrow := hrow.of_sameKinds hnumbered
  obtain ⟨notes, hw, hw'⟩ := notes_of_sameKinds settings symbols
    hnrow hnumbered.symm
  rcases hw'.first with ⟨-, hnil⟩ | ⟨i, cause, rest, -, rfl, -, -⟩
  · exact absurd hnil h
  · refine ⟨i, cause, fun us hus => ?_⟩
    obtain ⟨notes', hn, hu⟩ := notes_of_sameKinds settings symbols
      hnrow (hnumbered.symm.trans hus)
    rcases hn.first with ⟨-, hnil⟩ | ⟨i', cause', rest', t, rfl, ht, hfirst⟩
    · rcases hw.first with ⟨hnil', -⟩ | ⟨_, _, _, _, -, -, hfirst⟩
      · cases hnil'
      · rw [hnil] at hfirst
        cases hfirst
    · have hsame := note_of_numbered hnrow hw hfirst
      rw [tokens_behindProgram hnrow] at ht
      rw [column_numbered ht] at hsame
      cases hsame
      rcases hu.first with ⟨hnil', -⟩ | ⟨_, _, _, u, hcons, hmem, hfirst'⟩
      · cases hnil'
      · cases hcons
        rw [tokens_behindProgram (hrow.of_sameKinds hus)] at hmem
        exact ⟨u, hmem, hfirst'⟩

/-- In a row whose tokens stand at different places, the first fault is at the token that the
first diagnostic names. -/
theorem firstFaultAt_of_nodup (hrow : IsRow ts) (hplaces : (ts.map Token.position).Nodup) {i : Nat}
    {t : Token} {cause : Cause} (ht : ts[i]? = some t)
    (hd : (behindProgram settings symbols ts).diagnostics[0]? = some (.atToken t cause)) :
    FirstFaultAt settings symbols ts i := by
  have hne : (behindProgram settings symbols ts).diagnostics ≠ #[] := by
    intro hnil
    rw [hnil] at hd
    cases hd
  obtain ⟨j, c, hall⟩ := exists_first_fault hrow hne
  obtain ⟨u, hu, hfirst⟩ := hall ts rfl
  rw [hd] at hfirst
  obtain ⟨hposition, -⟩ := atToken_inj (Option.some.inj hfirst)
  have hi : (ts.map Token.position)[i]? = some t.position := by rw [List.getElem?_map, ht]; rfl
  have hj : (ts.map Token.position)[j]? = some t.position := by
    rw [List.getElem?_map, hu, hposition]
    rfl
  have hlt : i < (ts.map Token.position).length := (List.getElem?_eq_some_iff.mp hi).1
  obtain rfl : i = j := (List.getElem?_inj hlt hplaces).mp (hi.trans hj.symm)
  exact ⟨c, hall⟩

/-- A program without faults has no notes. -/
theorem Accepts.notes_eq_nil (h : Accepts settings symbols us) {notes : List (Nat × Cause)}
    (hw : Written notes (behindProgram settings symbols us)) : notes = [] := by
  rw [Written, h.clean] at hw
  cases hw
  rfl

/-- Nothing that starts with the tokens up to the first fault is a program. -/
theorem not_accepts_of_first_fault (hrow : IsRow ts) {i : Nat}
    (h : FirstFaultAt settings symbols ts i) (haccepts : Accepts settings symbols us)
    (hstart : ts.take (i + 1) <+: us) : False := by
  obtain ⟨cause, h⟩ := h
  have hnumbered := sameKinds_numbered ts
  have hnrow := hrow.of_sameKinds hnumbered
  obtain ⟨t, ht, hfirst⟩ := h _ hnumbered
  have halike : AlikeUpTo (i + 1) (ParserState.start (numbered ts) symbols).cursor.tokens
      (ParserState.start us symbols).cursor.tokens := by
    have hlt : i < ts.length := by
      rw [hnumbered.length]
      exact (List.getElem?_eq_some_iff.mp ht).1
    obtain ⟨more, rfl⟩ := hstart
    obtain ⟨more', hmore⟩ := start_row (ts.take (i + 1) ++ more) symbols
    rw [List.filter_append] at hmore
    have hkept : (ts.take (i + 1)).filter Cursor.isGrammatical = ts.take (i + 1) := by
      rw [List.filter_eq_self]
      intro t ht
      simpa [Cursor.isGrammatical] using hrow.counts t (List.mem_of_mem_take ht)
    rw [hnrow.tokens, ← hmore, hkept, List.append_assoc]
    intro j hj
    have hjlt : j < ts.length := by omega
    obtain ⟨u, hu, hk⟩ := hnumbered.getElem? (List.getElem?_eq_getElem hjlt)
    refine ⟨u, ts[j], hu, ?_, hk.symm⟩
    rw [List.getElem?_append_left (by simp; omega), List.getElem?_take_of_lt hj,
      List.getElem?_eq_getElem hjlt]
  obtain ⟨notes, later, later', hw, hw', hlater, -⟩ := notes_of_alike settings symbols halike
  obtain ⟨hnil, -⟩ := List.append_eq_nil_iff.mp (haccepts.notes_eq_nil hw')
  rw [hnil, List.nil_append] at hw
  rcases later with _ | ⟨note, later⟩
  · rcases hw.first with ⟨-, hd⟩ | ⟨_, _, _, _, hcons, -⟩
    · rw [hd] at hfirst
      cases hfirst
    · cases hcons
  · have hnote := note_of_numbered hnrow hw hfirst
    rw [column_numbered ht] at hnote
    have := hlater note List.mem_cons_self
    rw [hnote] at this
    exact absurd this (Nat.not_succ_le_self i)

theorem IsRow.length_pos (hrow : IsRow ts) : 0 < ts.length := by
  obtain ⟨⟨body, stop, rfl, -⟩, -⟩ := hrow
  simp

/-- Rows with the same kinds of tokens are programs together. -/
theorem Accepts.of_sameKinds (hrow : IsRow ts) (h : SameKinds ts us)
    (haccepts : Accepts settings symbols ts) : Accepts settings symbols us := by
  obtain ⟨tree, s', hr, hc⟩ := haccepts
  have htokens : s'.cursor.tokens = ts := by
    rw [(Stepwise.ok hr).before.tokens_eq, hrow.tokens]
  have hrun : Abreast (program settings) (program settings) := inferInstance
  have hside := hrun.run
    (together_start symbols hrow.length_pos (alike_of_sameKinds symbols hrow h))
  rw [hr] at hside
  generalize hr' : program settings (.start us symbols) = r' at hside
  cases hside with
  | @ok _ tree' _ u' _ htogether =>
    have hcount := htogether.errorCount
    rw [errorCount, hc, errorCount] at hcount
    exact ⟨tree', u', hr', Array.size_eq_zero_iff.mp hcount.symm⟩
  | apart hapart =>
    -- The cursor always stands on a token of the row.
    have hle : ts.length ≤ s'.cursor.position := hapart.left
    have hlt := (List.getElem?_eq_some_iff.mp (tokens_here s')).1
    rw [htokens] at hlt
    exact absurd hlt (Nat.not_lt.mpr hle)

/-- A parse that stops behind some tokens has its first fault at the next one. -/
theorem length_of_stopsBehind (hrow : IsRow (numbered ts)) {taken : List Token}
    (hstop : StopsBehind (program settings) (.start (numbered ts) symbols) taken) {u : Token}
    {cause : Cause} (hd : (behindProgram settings symbols (numbered ts)).diagnostics[0]? =
      some (.atToken u cause)) :
    taken.length = u.position.column ∧ taken <+: numbered ts := by
  obtain ⟨m, cause', hm, hsteps, hu, hflag⟩ := hstop
  rw [← behindProgram_eq] at hflag
  have hwm : Written [] m := by
    unfold Written
    rw [show m.diagnostics = #[] from hm]
    exact .nil
  obtain ⟨later, hw, -⟩ := hflag.written (hwm.flag cause')
  have hnote := note_of_numbered hrow hw hd
  have hrest : (ParserState.start (numbered ts) symbols).upcoming = numbered ts := by
    have h := hrow.tokens symbols
    rwa [Cursor.tokens, start_passed, List.reverse_nil, List.nil_append] at h
  have hlength := congrArg List.length hu
  have htokens := congrArg List.length hsteps.before.tokens_eq
  rw [hrow.tokens] at htokens
  rw [hrest, List.length_append] at hlength
  have hm : m.cursor.tokens.length = m.cursor.position + m.upcoming.length := by
    simp [Cursor.tokens, Cursor.position, upcoming, Cursor.upcoming]
  have hposition : m.cursor.position = u.position.column := congrArg Prod.fst hnote
  exact ⟨by omega, hrest ▸ hu ▸ List.prefix_append _ _⟩

theorem IsRow.of_completed (hrow : IsRow ts) {n : Nat} (hn : n < ts.length) {more : List Token}
    (hmore : Proper more) : IsRow (ts.take n ++ more ++ [sample .endOfFile]) := by
  obtain ⟨⟨body, stop, rfl, -, hbody⟩, hcounts⟩ := hrow
  have htake : (body ++ [stop]).take n = body.take n :=
    List.take_append_of_le_length (by simp at hn; omega)
  rw [htake]
  refine ⟨⟨_, _, rfl, rfl, fun t ht => ?_⟩, fun t ht => ?_⟩
  · rcases List.mem_append.mp ht with ht | ht
    · exact hbody t (List.mem_of_mem_take ht)
    · exact (hmore t ht).1
  · simp only [List.mem_append, List.mem_singleton] at ht
    rcases ht with (ht | ht) | rfl
    · exact hcounts t (List.mem_append_left _ (List.mem_of_mem_take ht))
    · exact (hmore t ht).2
    · decide

/-- What the grammar derives is parsed without a diagnostic. -/
theorem accepts_of_isProgram (hrow : IsRow ts) {p : Source} (h : IsProgram ts p) :
    Accepts settings symbols ts := by
  obtain ⟨rest, hgives⟩ := program_gives settings h symbols
  obtain ⟨s', hr, hs'⟩ := hgives _ (shows_start symbols hrow.ends hrow.counts)
  exact ⟨_, s', hr, hs'.clean⟩

/-- What stands before the first fault is the beginning of a program. -/
theorem exists_accepts_of_first_fault (hrow : IsRow ts) {i : Nat}
    (h : FirstFaultAt settings symbols ts i) :
    ∃ us, IsRow us ∧ Accepts settings symbols us ∧ ts.take i <+: us := by
  obtain ⟨cause, h⟩ := h
  have hnumbered := sameKinds_numbered ts
  have hnrow := hrow.of_sameKinds hnumbered
  obtain ⟨t, ht, hfirst⟩ := h _ hnumbered
  have hlt : i < (numbered ts).length := (List.getElem?_eq_some_iff.mp ht).1
  cases program_viable settings (.start (numbered ts) symbols) rfl with
  | clean a s' hr =>
    rw [behindProgram_eq, hr.run, stateBehind, show s'.diagnostics = #[] from hr.clean] at hfirst
    cases hfirst
  | stops taken more hstop hmore =>
    obtain ⟨hlength, htaken⟩ := length_of_stopsBehind hnrow hstop hfirst
    rw [column_numbered ht] at hlength
    have htake : taken = (numbered ts).take i := by
      rw [← hlength]
      exact List.prefix_iff_eq_take.mp htaken
    obtain ⟨p, hp⟩ := (hmore.derives [sample .endOfFile] rfl).1 _ rfl rfl
    rw [← List.append_assoc, htake] at hp
    have haccepts : Accepts settings symbols _ :=
      accepts_of_isProgram (hnrow.of_completed hlt hmore.proper) hp
    have hsame : SameKinds ((numbered ts).take i ++ more ++ [sample .endOfFile])
        (ts.take i ++ more ++ [sample .endOfFile]) := by
      unfold SameKinds
      simp only [List.map_append, List.map_take]
      rw [hnumbered]
    refine ⟨_, (hnrow.of_completed hlt hmore.proper).of_sameKinds hsame,
      haccepts.of_sameKinds (hnrow.of_completed hlt hmore.proper) hsame, ?_⟩
    rw [List.append_assoc]
    exact List.prefix_append _ _

/-- Where a program is cut off, every diagnostic stands at the end. -/
theorem diagnostics_of_cut {w : List Token} {stop : Token} (hstop : stop.isEnd = true)
    (haccepts : Accepts settings symbols us) (hw : w <+: us) :
    ∀ d ∈ (behindProgram settings symbols (w ++ [stop])).diagnostics,
      ∃ cause, d = .atToken stop cause := by
  have hrow := start_row_of_end hstop w symbols
  have halike : AlikeUpTo (w.filter Cursor.isGrammatical).length
      (ParserState.start (w ++ [stop]) symbols).cursor.tokens
      (ParserState.start us symbols).cursor.tokens := by
    obtain ⟨more, rfl⟩ := hw
    obtain ⟨more', hmore⟩ := start_row (w ++ more) symbols
    rw [List.filter_append] at hmore
    rw [hrow, ← hmore, List.append_assoc]
    intro j hj
    exact ⟨_, _, List.getElem?_append_left hj ▸ List.getElem?_eq_getElem hj,
      List.getElem?_append_left hj ▸ List.getElem?_eq_getElem hj, rfl⟩
  obtain ⟨notes, later, later', hwritten, hwritten', hlater, -⟩ :=
    notes_of_alike settings symbols halike
  obtain ⟨rfl, -⟩ := List.append_eq_nil_iff.mp (haccepts.notes_eq_nil hwritten')
  intro d hd
  obtain ⟨note, hnote, t, ht, rfl⟩ := hwritten.exists_note (Array.mem_toList_iff.mpr hd)
  have hge := hlater note hnote
  rw [(steps_behindProgram settings symbols _).before.tokens_eq, hrow,
    List.getElem?_append_right hge] at ht
  obtain rfl : t = stop := List.mem_singleton.mp (List.mem_of_getElem? ht)
  exact ⟨note.2, rfl⟩

end

/-! ## The law -/

/-- Faults are noted at the first token that offends. A parse with a diagnostic has its first one at
a token of the row; no program starts with the tokens up to this one, and some program starts with
those in front of it. Where a program is cut off, everything is noted at the end. -/
theorem first_fault_is_first_offence (settings : Settings) (symbols : SymbolTable) :
    (∀ ts, IsRow ts →
      ((behindProgram settings symbols ts).diagnostics ≠ #[] →
        ∃ i, FirstFaultAt settings symbols ts i) ∧
      ∀ i, FirstFaultAt settings symbols ts i →
        (∀ us, Accepts settings symbols us → ¬ ts.take (i + 1) <+: us) ∧
        ∃ us, Accepts settings symbols us ∧ ts.take i <+: us) ∧
    ∀ w us stop, Accepts settings symbols us → w <+: us → stop.isEnd = true →
      ∀ d ∈ (behindProgram settings symbols (w ++ [stop])).diagnostics,
        ∃ cause, d = .atToken stop cause := by
  refine ⟨fun ts hrow => ⟨exists_first_fault hrow, fun i hi => ⟨?_, ?_⟩⟩, ?_⟩
  · exact fun us haccepts => not_accepts_of_first_fault hrow hi haccepts
  · obtain ⟨us, -, haccepts, hprefix⟩ := exists_accepts_of_first_fault hrow hi
    exact ⟨us, haccepts, hprefix⟩
  · exact fun w us stop haccepts hw hstop => diagnostics_of_cut hstop haccepts hw

/-- The tokens of `X ( Y ; Z`: the arguments break off at the semicolon. -/
def brokenCallTokens : List Token :=
  let token k text n := ⟨k, text, none, .between n (n + text.length), ⟨1, n + 1⟩⟩
  [token .identifier "X" 0, token .leftParen "(" 2, token .identifier "Y" 4,
    token .semicolon ";" 6, token .identifier "Z" 8, token .endOfFile "" 9]

/-- The tokens of `X ( Y )`. -/
def callTokens : List Token :=
  let token k text n := ⟨k, text, none, .between n (n + text.length), ⟨1, n + 1⟩⟩
  [token .identifier "X" 0, token .leftParen "(" 2, token .identifier "Y" 4,
    token .rightParen ")" 6, token .endOfFile "" 7]

theorem broken_call_offends_at_semicolon :
    ((∃ cause, (behindProgram {} {} brokenCallTokens).diagnostics[0]? =
        some (.atToken brokenCallTokens[3] cause)) ∧
      (∀ us, Accepts {} {} us → ¬ brokenCallTokens.take 4 <+: us) ∧
      ∃ us, Accepts {} {} us ∧ brokenCallTokens.take 3 <+: us) ∧
    (behindProgram {} {} (callTokens.take 3 ++ [.endAt .start])).diagnostics ≠ #[] ∧
    ∀ d ∈ (behindProgram {} {} (callTokens.take 3 ++ [.endAt .start])).diagnostics,
      ∃ cause, d = .atToken (.endAt .start) cause := by
  have hrow : IsRow brokenCallTokens :=
    ⟨⟨brokenCallTokens.dropLast, _, rfl, rfl, by decide⟩, by decide⟩
  have hd : (behindProgram {} {} brokenCallTokens).diagnostics[0]? =
      some (.atToken brokenCallTokens[3] .missingRightParen) := by decide +kernel
  have hfault : FirstFaultAt {} {} brokenCallTokens 3 :=
    firstFaultAt_of_nodup hrow (by decide) rfl hd
  have hcall : Accepts {} {} callTokens := by
    refine accepts_of_isProgram ⟨⟨callTokens.dropLast, _, rfl, rfl, by decide⟩, by decide⟩
      (p := ⟨1, [_]⟩) (.bare (by decide) (.last (.callWith rfl rfl (.last
        (.simple (.term (.factor (.name rfl))))) rfl)) rfl)
  have hlaw := first_fault_is_first_offence {} {}
  exact ⟨⟨⟨_, hd⟩, (hlaw.1 _ hrow).2 3 hfault⟩, by decide +kernel,
    hlaw.2 _ _ _ hcall (List.take_prefix 3 callTokens) rfl⟩

end Parser

end PascalFront
