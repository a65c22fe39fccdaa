-- The cross-reference of a program: which names the symbol table lists, in
-- which order and with which lines. It is exact behind every run, also one
-- that was given up. A name starts with a letter in small letters too, so it
-- is not taken for a hidden variable where those start otherwise; and tokens
-- come line by line, so no line is entered twice or out of order.
import PascalFront.Proofs.Identifiers
import PascalFront.Proofs.Words

namespace PascalFront

/-! ## Names of hidden variables -/

/-- A name that a WHEN statement gives its hidden variable on some line. -/
def Settings.IsWhenName (settings : Settings) (name : String) : Prop :=
  ∃ line, name = settings.whenName line

/-- The names of hidden variables cannot be mistaken for words. -/
def Settings.StemApart (settings : Settings) : Prop :=
  ∀ c ∈ settings.whenStem.toList.head?, isLetter c = false

instance (settings : Settings) : Decidable settings.StemApart :=
  decidable_of_iff (settings.whenStem.toList.head?.all (!isLetter ·) = true) <| by
    unfold Settings.StemApart
    cases settings.whenStem.toList.head? <;> simp

theorem toList_toString (n : Nat) : (toString n).toList = Nat.toDigits 10 n :=
  Nat.toList_repr

theorem toList_whenName (settings : Settings) (line : Nat) :
    (settings.whenName line).toList = settings.whenStem.toList ++ Nat.toDigits 10 line := by
  rw [Settings.whenName, String.toList_append, toList_toString]

theorem numberOf_toDigits (n : Nat) : numberOf (Nat.toDigits 10 n) = n := by
  have h : numberOf (Nat.toDigits 10 n) = Nat.ofDigitChars 10 (Nat.toDigits 10 n) 0 := rfl
  rw [h, Nat.ofDigitChars_ten_toDigits]

theorem toDigits_injective {m n : Nat} (h : Nat.toDigits 10 m = Nat.toDigits 10 n) : m = n := by
  rw [← numberOf_toDigits m, h, numberOf_toDigits]

theorem toString_injective {m n : Nat} (h : toString m = toString n) : m = n := by
  have hdigits := congrArg String.toList h
  rw [toList_toString, toList_toString] at hdigits
  exact toDigits_injective hdigits

/-- Such a name tells the line. -/
instance (settings : Settings) (name : String) : Decidable (settings.IsWhenName name) :=
  decidable_of_iff
    (name = settings.whenName (numberOf (name.toList.drop settings.whenStem.toList.length))) <| by
      constructor
      · exact fun h => ⟨_, h⟩
      · rintro ⟨line, rfl⟩
        rw [toList_whenName, List.drop_left, numberOf_toDigits]

theorem isLetter_digit : ∀ n < 58, 48 ≤ n → isLetter (Char.ofNat n) = false := by
  decide +kernel

theorem isLetter_of_mem_toDigits {n : Nat} {c : Char} (h : c ∈ Nat.toDigits 10 n) :
    isLetter c = false := by
  have hdigit := Nat.isDigit_of_mem_toDigits (by decide) (by decide) h
  have hrange : 48 ≤ c.toNat ∧ c.toNat ≤ 57 := Char.isDigit_iff_toNat.mp hdigit
  have := isLetter_digit c.toNat (by omega) (by omega)
  rwa [Char.ofNat_toNat] at this

/-- A word is no such name. -/
theorem not_isWhenName_caseFold {settings : Settings} (hstem : settings.StemApart) {c : Char}
    (hc : isLetter c = true) (more : List Char) :
    ¬ settings.IsWhenName (caseFold (String.ofList (c :: more))) := by
  rintro ⟨line, hname⟩
  obtain ⟨d, rest, heq, hd⟩ := caseFold_letter hc more
  rw [hname, toList_whenName] at heq
  have hother : isLetter d = false := by
    cases hs : settings.whenStem.toList with
    | nil =>
      rw [hs, List.nil_append] at heq
      exact isLetter_of_mem_toDigits (by rw [heq]; exact List.mem_cons_self)
    | cons c' stem =>
      rw [hs, List.cons_append] at heq
      have := hstem c' (by rw [hs]; rfl)
      rwa [(List.cons.inj heq).1] at this
  rw [hd] at hother
  cases hother

/-! ## Tokens come line by line -/

/-- A token stands on no line before that of the token in front of it. -/
theorem Scanner.tokens_lines (m : Mark) (cs : List Char) :
    (tokens ⟨m, cs⟩).Pairwise fun t t' => t.position.line ≤ t'.position.line := by
  refine (tokens_positions m cs).2.imp fun {t t'} h => ?_
  rw [Position.isLE_compare] at h
  omega

/-! ## Entering a line -/

namespace SymbolTable

theorem name_mention (e : SymbolEntry) (line : Nat) :
    (SymbolEntry.mention e line).name = e.name := by
  unfold SymbolEntry.mention
  split <;> rfl

/-- A line that is not before the others is listed once behind them. -/
theorem lines_mention {e : SymbolEntry} {line : Nat} (hsorted : e.lines.Pairwise (· < ·))
    (hlast : ∀ l ∈ e.lines, l ≤ line) :
    (SymbolEntry.mention e line).lines.Pairwise (· < ·) ∧
      ∀ l, l ∈ (SymbolEntry.mention e line).lines ↔ l ∈ e.lines ∨ l = line := by
  unfold SymbolEntry.mention
  split
  · rename_i heq
    refine ⟨hsorted, fun l => ⟨.inl, ?_⟩⟩
    rintro (h | rfl)
    · exact h
    · exact List.mem_of_getLast? heq
  · rename_i hne
    refine ⟨List.pairwise_append.mpr ⟨hsorted, List.pairwise_singleton _ _, ?_⟩, fun l => by simp⟩
    intro l hl l' hl'
    rw [List.mem_singleton.mp hl']
    refine Nat.lt_of_le_of_ne (hlast l hl) ?_
    rintro rfl
    -- the largest of the lines would be the last of them
    rcases List.eq_nil_or_concat e.lines with hnil | ⟨init, last, hinit⟩
    · rw [hnil] at hl
      cases hl
    · rw [hinit] at hsorted hlast hl hne
      rw [List.concat_eq_append] at *
      have hle : last ≤ l := hlast last (by simp)
      rcases List.mem_append.mp hl with hmem | hmem
      · have := (List.pairwise_append.mp hsorted).2.2 l hmem last (by simp)
        omega
      · exact hne (by rw [List.mem_singleton.mp hmem]; simp)

/-- What the mention of a name on a line does to an entry. -/
def mentionOf (name : String) (line : Nat) (e : SymbolEntry) : SymbolEntry :=
  if e.name = name then SymbolEntry.mention e line else e

theorem name_mentionOf (name : String) (line : Nat) (e : SymbolEntry) :
    (mentionOf name line e).name = e.name := by
  unfold mentionOf
  split
  · exact name_mention e line
  · rfl

/-- A name that is listed gets the line in its entry. -/
theorem entries_enterAt_of_mem {t : SymbolTable} (hnodup : t.names.Nodup) {name : String}
    (hmem : name ∈ t.names) (line : Nat) :
    (t.enterAt name line).2.entries =
      t.entries.map (mentionOf name line) := by
  obtain ⟨e, he, rfl⟩ := List.mem_map.mp hmem
  obtain ⟨i, hi⟩ : ∃ i, t.entries.findIdx? (·.name == e.name) = some i :=
    Option.isSome_iff_exists.mp (by simpa using ⟨e, he, rfl⟩)
  have henter : (t.enterAt e.name line).2.entries =
      t.entries.modify i (SymbolEntry.mention · line) := by
    simp [enterAt, enter, find?, hi, mention]
  obtain ⟨hlt, hname, -⟩ := List.findIdx?_eq_some_iff_getElem.mp hi
  rw [henter]
  apply List.ext_getElem?
  intro j
  rw [List.getElem?_modify, List.getElem?_map]
  rcases hj : t.entries[j]? with _ | e'
  · rfl
  · -- no two entries have one name
    have hplace : i = j ↔ e'.name = e.name := by
      have hnames : t.names[i]? = some e.name := by
        simpa [names, List.getElem?_eq_getElem hlt] using hname
      have hnames' : t.names[j]? = some e'.name := by simp [names, hj]
      constructor
      · rintro rfl
        rw [hnames] at hnames'
        exact (Option.some.inj hnames').symm
      · intro heq
        rw [heq] at hnames'
        exact (List.getElem?_inj (by simpa [names] using hlt) hnodup).mp (hnames.trans hnames'.symm)
    simp only [Option.map_some, hplace, mentionOf]
    split <;> rfl

/-- A new name gets an entry behind the others. -/
theorem entries_enterAt_of_notMem {t : SymbolTable} {name : String} (hnew : name ∉ t.names)
    (line : Nat) : (t.enterAt name line).2.entries = t.entries ++ [⟨name, [line]⟩] := by
  have hfind : t.entries.findIdx? (·.name == name) = none := by
    rw [List.findIdx?_eq_none_iff]
    intro e he
    exact beq_eq_false_iff_ne.mpr fun heq => hnew (heq ▸ List.mem_map_of_mem he)
  simp [enterAt, enter, find?, hfind, mention, size, List.modify_eq_take_cons_drop,
    SymbolEntry.mention]

/-- The names get one more, unless it is there already. -/
theorem names_enterAt (t : SymbolTable) (name : String) (line : Nat) :
    (t.enterAt name line).2.names = if name ∈ t.names then t.names else t.names ++ [name] := by
  have hnames : (t.enterAt name line).2.names = (t.enter name).2.names := names_mention _ _ _
  rw [hnames, enter, find?]
  rcases hfind : t.entries.findIdx? (·.name == name) with _ | i
  · have hnew : name ∉ t.names := by
      intro hmem
      obtain ⟨e, he, rfl⟩ := List.mem_map.mp hmem
      have := List.findIdx?_eq_none_iff.mp hfind e he
      simp at this
    rw [if_neg hnew]
    simp [names, hfind]
  · obtain ⟨hlt, hname, -⟩ := List.findIdx?_eq_some_iff_getElem.mp hfind
    have hmem : name ∈ t.names :=
      List.mem_map.mpr ⟨t.entries[i], List.getElem_mem hlt, by simpa using hname⟩
    rw [if_pos hmem]
    simp [hfind]

theorem mem_names_enterAt {t : SymbolTable} {name name' : String} {line : Nat} :
    name' ∈ (t.enterAt name line).2.names ↔ name' ∈ t.names ∨ name' = name := by
  rw [names_enterAt]
  split
  · exact ⟨.inl, fun h => h.elim id fun heq => by rwa [heq]⟩
  · simp

theorem nodup_enterAt {t : SymbolTable} (hnodup : t.names.Nodup) (name : String) (line : Nat) :
    (t.enterAt name line).2.names.Nodup := by
  rw [names_enterAt]
  split
  · exact hnodup
  · rename_i hnew
    refine List.nodup_append.mpr ⟨hnodup, by simp, fun a ha b hb => ?_⟩
    rw [List.mem_singleton.mp hb]
    exact ne_of_mem_of_not_mem ha hnew

/-- The entries of the names that no WHEN statement made. -/
def visible (settings : Settings) (t : SymbolTable) : List SymbolEntry :=
  t.entries.filter fun e => ¬ settings.IsWhenName e.name

theorem visible_enterAt_of_mem (settings : Settings) {t : SymbolTable} (hnodup : t.names.Nodup)
    {name : String} (hmem : name ∈ t.names) (line : Nat) :
    (t.enterAt name line).2.visible settings =
      (t.visible settings).map (mentionOf name line) := by
  unfold visible
  rw [entries_enterAt_of_mem hnodup hmem, List.filter_map]
  congr 2
  funext e
  simp only [Function.comp, name_mentionOf]

/-- A hidden variable changes no other entry. -/
theorem visible_enterAt_hidden {settings : Settings} {t : SymbolTable} (hnodup : t.names.Nodup)
    {name : String} (hname : settings.IsWhenName name) (line : Nat) :
    (t.enterAt name line).2.visible settings = t.visible settings := by
  by_cases hmem : name ∈ t.names
  · rw [visible_enterAt_of_mem settings hnodup hmem]
    refine (List.map_congr_left fun e he => ?_).trans (List.map_id _)
    have hvisible : ¬ settings.IsWhenName e.name := by
      simpa [visible] using (List.mem_filter.mp he).2
    exact if_neg fun heq : e.name = name => hvisible (heq ▸ hname)
  · simp [visible, entries_enterAt_of_notMem hmem, hname]

end SymbolTable

/-! ## The cross-reference of a row of names -/

open SymbolTable

/-- A symbol table lists these identifiers: their names in small letters, in the order of the first
mentions, and with each name the lines of its mentions, from the top down. -/
structure CrossReference (settings : Settings) (ids : List Token) (t : SymbolTable) : Prop where
  names : (t.visible settings).map SymbolEntry.name = (ids.map (caseFold ·.text)).eraseDups
  ascending : ∀ e ∈ t.visible settings, e.lines.Pairwise (· < ·)
  lines : ∀ e ∈ t.visible settings, ∀ l,
    l ∈ e.lines ↔ ∃ id ∈ ids, caseFold id.text = e.name ∧ id.position.line = l

namespace CrossReference

variable {settings : Settings} {ids : List Token} {t : SymbolTable}

theorem start : CrossReference settings [] {} := by
  refine ⟨rfl, ?_, ?_⟩ <;> exact fun e he => absurd he List.not_mem_nil

/-- Only the visible entries count. -/
theorem of_visible {t' : SymbolTable} (h : CrossReference settings ids t)
    (hvisible : t'.visible settings = t.visible settings) : CrossReference settings ids t' := by
  refine ⟨?_, ?_, ?_⟩ <;> rw [hvisible]
  · exact h.names
  · exact h.ascending
  · exact h.lines

theorem mem_names_iff (h : CrossReference settings ids t) {name : String}
    (hname : ¬ settings.IsWhenName name) :
    name ∈ t.names ↔ name ∈ ids.map (caseFold ·.text) := by
  rw [← List.mem_eraseDups (l := ids.map _), ← h.names, SymbolTable.names, List.mem_map,
    List.mem_map]
  refine exists_congr fun e => and_congr_left fun heq => ?_
  simp [visible, heq, hname]

theorem eraseDups_mention (names : List String) (name : String) :
    (names ++ [name]).eraseDups =
      if name ∈ names then names.eraseDups else names.eraseDups ++ [name] := by
  rw [List.eraseDups_append, List.removeAll]
  split
  · rename_i h
    rw [List.filter_cons_of_neg (by simpa using h), List.filter_nil, List.eraseDups_nil,
      List.append_nil]
  · rename_i h
    rw [List.filter_cons_of_pos (by simpa using h)]
    simp [List.eraseDups_cons]

theorem mention_iff {ids : List Token} {id : Token} {name : String} {l : Nat} :
    (∃ id' ∈ ids ++ [id], caseFold id'.text = name ∧ id'.position.line = l) ↔
      (∃ id' ∈ ids, caseFold id'.text = name ∧ id'.position.line = l) ∨
        caseFold id.text = name ∧ id.position.line = l := by
  simp [or_and_right, exists_or]

/-- One more mention of a name, on a line that is not before those of the others. -/
theorem mention_again (h : CrossReference settings ids t) (hnodup : t.names.Nodup) {id : Token}
    (hmem : caseFold id.text ∈ t.names) (hname : ¬ settings.IsWhenName (caseFold id.text))
    (hlater : ∀ id' ∈ ids, id'.position.line ≤ id.position.line) :
    CrossReference settings (ids ++ [id]) (t.enterAt (caseFold id.text) id.position.line).2 := by
  have hlast : ∀ e ∈ t.visible settings, ∀ l ∈ e.lines, l ≤ id.position.line := by
    intro e he l hl
    obtain ⟨id', hid', -, rfl⟩ := (h.lines e he l).mp hl
    exact hlater id' hid'
  have hold := (h.mem_names_iff hname).mp hmem
  have hvisible := visible_enterAt_of_mem settings hnodup hmem id.position.line
  refine ⟨?_, ?_, ?_⟩
  · have hnames : (t.visible settings).map
        (SymbolEntry.name ∘ mentionOf (caseFold id.text) id.position.line) =
        (t.visible settings).map SymbolEntry.name :=
      List.map_congr_left fun e _ => name_mentionOf _ _ e
    rw [hvisible, List.map_map, hnames, h.names, List.map_append, List.map_singleton,
      eraseDups_mention, if_pos hold]
  · rw [hvisible]
    intro e' he'
    obtain ⟨e, he, rfl⟩ := List.mem_map.mp he'
    unfold mentionOf
    split
    · exact (lines_mention (h.ascending e he) (hlast e he)).1
    · exact h.ascending e he
  · rw [hvisible]
    intro e' he' l
    obtain ⟨e, he, rfl⟩ := List.mem_map.mp he'
    rw [name_mentionOf, mention_iff, ← h.lines e he l]
    unfold mentionOf
    split
    · rename_i heq
      rw [(lines_mention (h.ascending e he) (hlast e he)).2 l]
      simp [heq, eq_comm]
    · rename_i hne
      simp [Ne.symm hne]

/-- The first mention of a name. -/
theorem mention_first (h : CrossReference settings ids t) {id : Token}
    (hnew : caseFold id.text ∉ t.names) (hname : ¬ settings.IsWhenName (caseFold id.text)) :
    CrossReference settings (ids ++ [id]) (t.enterAt (caseFold id.text) id.position.line).2 := by
  have hfirst := (h.mem_names_iff hname).not.mp hnew
  have hvisible : (t.enterAt (caseFold id.text) id.position.line).2.visible settings =
      t.visible settings ++ [⟨caseFold id.text, [id.position.line]⟩] := by
    simp [visible, entries_enterAt_of_notMem hnew, hname]
  refine ⟨?_, ?_, ?_⟩
  · rw [hvisible, List.map_append, h.names, List.map_append, List.map_singleton,
      List.map_singleton, eraseDups_mention, if_neg hfirst]
  · rw [hvisible]
    intro e he
    rcases List.mem_append.mp he with he | he
    · exact h.ascending e he
    · rw [List.mem_singleton.mp he]
      exact List.pairwise_singleton _ _
  · rw [hvisible]
    intro e he l
    rw [mention_iff]
    rcases List.mem_append.mp he with he | he
    · have hne : e.name ≠ caseFold id.text := fun heq =>
        hnew (heq ▸ List.mem_map_of_mem (List.mem_filter.mp he).1)
      rw [h.lines e he l]
      simp [Ne.symm hne]
    · rw [List.mem_singleton.mp he]
      have hnone : ¬ ∃ id' ∈ ids, caseFold id'.text = caseFold id.text ∧ id'.position.line = l :=
        fun ⟨id', hid', heq, _⟩ => hfirst (heq ▸ List.mem_map_of_mem hid')
      simp only [hnone, false_or, true_and, List.mem_singleton]
      exact eq_comm

end CrossReference

/-! ## Every run lists what it passes -/

/-- Identifiers that can be listed as they come: line by line, and none of them called like a hidden
variable. -/
structure Listable (settings : Settings) (ids : List Token) : Prop where
  lines : ids.Pairwise fun id id' => id.position.line ≤ id'.position.line
  names : ∀ id ∈ ids, ¬ settings.IsWhenName (caseFold id.text)

theorem Listable.sublist {settings : Settings} {ids ids' : List Token}
    (h : Listable settings ids) (hsub : ids'.Sublist ids) : Listable settings ids' :=
  ⟨h.lines.sublist hsub, fun id hid => h.names id (hsub.subset hid)⟩

namespace ParserState

variable {settings : Settings} {s s' : ParserState}

/-- What a step keeps: the names are distinct, and the table lists the identifiers so far. -/
def Listed (settings : Settings) (s : ParserState) : Prop :=
  s.symbols.names.Nodup ∧ CrossReference settings s.identifiers s.symbols

theorem Entering.listed (hstep : Entering settings s s') (hids : Listable settings s'.identifiers)
    (h : s.Listed settings) : s'.Listed settings := by
  obtain ⟨hnodup, hlist⟩ := h
  unfold Listed
  cases hstep with
  | nothing hi ht =>
    rw [hi, ht]
    exact ⟨hnodup, hlist⟩
  | name id hi ht =>
    rw [hi] at hids
    rw [hi, ht]
    have hlater := fun id' hid' => (List.pairwise_append.mp hids.lines).2.2 id' hid' id (by simp)
    have hname := hids.names id (by simp)
    refine ⟨nodup_enterAt hnodup _ _, ?_⟩
    by_cases hmem : caseFold id.text ∈ s.symbols.names
    · exact hlist.mention_again hnodup hmem hname hlater
    · exact hlist.mention_first hmem hname
  | hidden line hi ht =>
    have hname : settings.IsWhenName (settings.whenName line) := ⟨line, rfl⟩
    have hvisible := visible_enterAt_hidden hnodup hname line
    rw [hi, ht]
    exact ⟨nodup_enterAt hnodup _ _, hlist.of_visible hvisible⟩

theorem Entering.identifiers_prefix (hstep : Entering settings s s') :
    s.identifiers <+: s'.identifiers := by
  cases hstep with
  | nothing hi _ => exact hi ▸ List.prefix_rfl
  | name id hi _ => exact ⟨[id], hi.symm⟩
  | hidden _ hi _ => exact hi ▸ List.prefix_rfl

theorem Enterings.listed (hsteps : Enterings settings s s')
    (hids : Listable settings s'.identifiers) (h : s.Listed settings) : s'.Listed settings := by
  induction hsteps with
  | refl => exact h
  | tail _ hstep ih =>
    exact hstep.listed hids (ih (hids.sublist hstep.identifiers_prefix.sublist))

/-- What a run from the start has passed is part of the row. -/
theorem identifiers_sublist {ts : List Token} {symbols : SymbolTable}
    (h : (start ts symbols).Before s) : s.identifiers.Sublist (start ts symbols).upcoming := by
  obtain ⟨taken, hpassed, hupcoming, -⟩ := h.row
  rw [start_passed, List.reverse_nil, List.nil_append] at hpassed
  unfold identifiers
  rw [← hpassed, hupcoming]
  exact List.filter_sublist.trans (List.sublist_append_left _ _)

theorem upcoming_start (source : String) (symbols : SymbolTable) :
    (start (tokensOf source) symbols).upcoming = (tokensOf source).filter Cursor.isGrammatical := by
  obtain ⟨body, stop, hrow, hstop, -⟩ := (grammaticalTokens_spec source).1
  simp [start, Cursor.ofTokens, hrow, hstop, upcoming, Cursor.upcoming]

theorem start_tokens (source : String) (symbols : SymbolTable) :
    (start (tokensOf source) symbols).cursor.tokens =
      (tokensOf source).filter Cursor.isGrammatical := by
  rw [← upcoming_start source symbols, Cursor.tokens, start_passed]
  rfl

end ParserState

/-- The identifiers of a text can be listed. -/
theorem listable_tokensOf {settings : Settings} (hstem : settings.StemApart) (source : String)
    {ids : List Token} (hsub : ids.Sublist (tokensOf source))
    (hids : ∀ t ∈ ids, t.kind = .identifier) :
    Listable settings ids := by
  refine ⟨(Scanner.tokens_lines .start source.toList).sublist hsub, fun t ht => ?_⟩
  obtain ⟨c, more, htext, hletter⟩ := Scanner.identifier_letter (hsub.subset ht) (hids t ht)
  rw [htext]
  exact not_isWhenName_caseFold hstem hletter more

/-! ## The law -/

open ParserState in
/-- The identifiers that the parse of a text passes, until it ends or is given up. -/
def consumed (settings : Settings) (source : String) : List Token :=
  ((Parser.program settings).runFrom (start (tokensOf source) {})).2.identifiers

/-- However a parse ends, the symbol table lists exactly the identifiers that it passed, and the
hidden variables of the WHEN statements besides. -/
theorem cross_reference_is_exact (settings : Settings) (source : String)
    (hstem : settings.StemApart) :
    CrossReference settings (consumed settings source) (parseProgram settings source).symbols := by
  have hsteps : (ParserState.start (tokensOf source) {}).Steps
      ((Parser.program settings).runFrom (.start (tokensOf source) {})).2 :=
    Parser.Stepwise.steps _
  have hsub := ParserState.identifiers_sublist hsteps.before
  rw [ParserState.upcoming_start] at hsub
  have hids := listable_tokensOf hstem source (hsub.trans List.filter_sublist)
    fun t ht => beq_iff_eq.mp (List.mem_filter.mp ht).2
  have hrun : ParserState.Enterings settings (.start (tokensOf source) {})
      ((Parser.program settings).runFrom (.start (tokensOf source) {})).2 := by
    rw [Parser.runFrom_state]
    exact Parser.Indexing.enterings _
  have hstart : (ParserState.start (tokensOf source) {}).Listed settings := by
    have hnone : (ParserState.start (tokensOf source) {}).identifiers = [] := by
      rw [ParserState.identifiers, ParserState.start_passed]
      rfl
    exact ⟨List.nodup_nil, hnone ▸ CrossReference.start⟩
  exact (hrun.listed hids hstart).2

/-- A statement that ends in the middle of its second line. -/
def brokenSource : String := "WHEN Beta + (Alpha\nLESSTHAN0 BETA := beta + ALPHA +"

theorem brokenSource_is_listed :
    ({} : Settings).StemApart ∧ (parseProgram {} brokenSource).tree.isOk = false ∧
      (parseProgram {} brokenSource).symbols.entries =
        [⟨"beta", [1, 2]⟩, ⟨"alpha", [1, 2]⟩, ⟨"$when_1", [1]⟩] ∧
      CrossReference {} (consumed {} brokenSource) (parseProgram {} brokenSource).symbols := by
  have hstem : ({} : Settings).StemApart := by decide +kernel
  exact ⟨hstem, by decide +kernel, by decide +kernel,
    cross_reference_is_exact {} brokenSource hstem⟩

end PascalFront
