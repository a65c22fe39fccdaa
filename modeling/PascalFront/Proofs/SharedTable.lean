-- A symbol table that is shared. Names are entered and lines are noted, and
-- parsers borrow the table one after the other, each with tokens of its own,
-- and some of them stop half-way. All of this comes down to two changes of a
-- table, and each of them keeps what a table is meant to be. No change gives
-- an entry another place or another name, so the numbers in a tree stay good.
import PascalFront.Proofs.CrossReference
import PascalFront.Proofs.ErrorLimit
import PascalFront.Proofs.Uses
import PascalFront.Proofs.WholeTrees
import Mathlib.Data.List.Chain

namespace PascalFront

/-! ## Changes -/

/-- What is done to a table at once. -/
inductive TableChange where
  | enter (name : String)
  | mention (id : SymbolId) (line : Nat)
  deriving DecidableEq

namespace SymbolTable

def change (t : SymbolTable) : TableChange → SymbolTable
  | .enter name => (t.enter name).2
  | .mention id line => t.mention id line

/-- A table that comes of another one by some changes. -/
def ChangesTo (t t' : SymbolTable) : Prop :=
  ∃ changes : List TableChange, t' = changes.foldl change t

theorem ChangesTo.refl (t : SymbolTable) : t.ChangesTo t := ⟨[], rfl⟩

theorem ChangesTo.trans {t t' t'' : SymbolTable} (h : t.ChangesTo t') (h' : t'.ChangesTo t'') :
    t.ChangesTo t'' := by
  obtain ⟨changes, rfl⟩ := h
  obtain ⟨more, rfl⟩ := h'
  exact ⟨changes ++ more, List.foldl_append.symm⟩

theorem changesTo_enter (t : SymbolTable) (name : String) : t.ChangesTo (t.enter name).2 :=
  ⟨[.enter name], rfl⟩

theorem changesTo_mention (t : SymbolTable) (id : SymbolId) (line : Nat) :
    t.ChangesTo (t.mention id line) := ⟨[.mention id line], rfl⟩

/-- What every change keeps, all changes keep. -/
theorem ChangesTo.keeps {I : SymbolTable → Prop} (hI : ∀ t c, I t → I (change t c))
    {t t' : SymbolTable} (h : t.ChangesTo t') (ht : I t) : I t' := by
  obtain ⟨changes, rfl⟩ := h
  induction changes generalizing t with
  | nil => exact ht
  | cons c changes ih => exact ih (hI t c ht)

end SymbolTable

/-- A parser changes the table by its steps, also on its way to a failure. -/
theorem ParserState.Steps.changesTo {s s' : ParserState} (h : s.Steps s') :
    s.symbols.ChangesTo s'.symbols := by
  induction h with
  | refl => exact .refl _
  | @tail u _ _ hstep ih =>
    refine ih.trans ?_
    cases hstep with
    | advance => exact .refl _
    | flag => exact .refl _
    | enter name line =>
      exact (SymbolTable.changesTo_enter u.symbols name).trans
        (SymbolTable.changesTo_mention _ _ line)

/-! ## What every change keeps -/

namespace SymbolTable

/-- No name stands twice in a table, and no line twice in a row in an entry. -/
structure Tidy (t : SymbolTable) : Prop where
  names : t.names.Nodup
  lines : ∀ e ∈ t.entries, e.lines.IsChain (· ≠ ·)

theorem tidy_empty : Tidy {} := ⟨List.nodup_nil, fun _ he => absurd he List.not_mem_nil⟩

theorem nodup_enter {t : SymbolTable} (h : t.names.Nodup) (name : String) :
    (t.enter name).2.names.Nodup := by
  have hnames : (t.enterAt name 0).2.names = (t.enter name).2.names := names_mention _ _ _
  rw [← hnames]
  exact nodup_enterAt h name 0

theorem isChain_mention {e : SymbolEntry} (h : e.lines.IsChain (· ≠ ·)) (line : Nat) :
    (SymbolEntry.mention e line).lines.IsChain (· ≠ ·) := by
  unfold SymbolEntry.mention
  split
  · exact h
  · rename_i hlast
    refine List.isChain_append.mpr ⟨h, List.isChain_singleton _, ?_⟩
    rintro l hl l' hl' rfl
    cases hl'
    exact hlast hl

theorem mem_entries_enter {t : SymbolTable} {name : String} {e : SymbolEntry}
    (he : e ∈ (t.enter name).2.entries) : e ∈ t.entries ∨ e = { name } := by
  unfold enter at he
  split at he
  · exact .inl he
  · simpa using he

theorem mem_entries_mention {t : SymbolTable} {id : SymbolId} {line : Nat} {e : SymbolEntry}
    (he : e ∈ (t.mention id line).entries) :
    ∃ e₀ ∈ t.entries, e = e₀ ∨ e = SymbolEntry.mention e₀ line := by
  obtain ⟨i, hi⟩ := List.mem_iff_getElem?.mp he
  rw [mention, List.getElem?_modify] at hi
  obtain ⟨e₀, he₀, rfl⟩ := Option.map_eq_some_iff.mp hi
  refine ⟨e₀, List.mem_of_getElem? he₀, ?_⟩
  split
  · exact .inr rfl
  · exact .inl rfl

theorem Tidy.change {t : SymbolTable} (h : t.Tidy) (c : TableChange) : (t.change c).Tidy := by
  cases c with
  | enter name =>
    refine ⟨nodup_enter h.names name, fun e he => ?_⟩
    rcases mem_entries_enter he with he | rfl
    · exact h.lines e he
    · exact List.isChain_nil
  | mention id line =>
    refine ⟨?_, fun e he => ?_⟩
    · exact (names_mention t id line).symm ▸ h.names
    · obtain ⟨e₀, he₀, rfl | rfl⟩ := mem_entries_mention he
      · exact h.lines _ he₀
      · exact isChain_mention (h.lines _ he₀) line

theorem ChangesTo.grownTo {t t' : SymbolTable} (h : t.ChangesTo t') : t.GrownTo t' := by
  refine h.keeps (I := t.GrownTo) (fun u c hu => hu.trans ?_) (.refl t)
  cases c with
  | enter name => exact grownTo_enter u name
  | mention id line => exact grownTo_mention u id line

/-! ## The numbers of the names -/

variable {t : SymbolTable}

/-- Where no name stands twice, the number that is found for a name is that of its entry. -/
theorem find?_eq_some_iff (h : t.names.Nodup) {name : String} {id : SymbolId} :
    t.find? name = some id ↔ ∃ e, t.entry? id = some e ∧ e.name = name := by
  have hfind : t.find? name = some id ↔ t.entries.findIdx? (·.name == name) = some id.number := by
    obtain ⟨n⟩ := id
    simp [find?]
  rw [hfind, List.findIdx?_eq_some_iff_getElem]
  constructor
  · rintro ⟨hlt, hname, -⟩
    exact ⟨t.entries[id.number], List.getElem?_eq_getElem hlt, by simpa using hname⟩
  · rintro ⟨e, he, rfl⟩
    obtain ⟨hlt, heq⟩ := List.getElem?_eq_some_iff.mp he
    refine ⟨hlt, by simp [heq], fun j hj hname => ?_⟩
    -- an earlier entry with the name would be another one with it
    have hsame : t.names[j]? = t.names[id.number]? := by
      have hj' : j < t.entries.length := Nat.lt_trans hj hlt
      simp only [names, List.getElem?_map, List.getElem?_eq_getElem hj',
        List.getElem?_eq_getElem hlt, heq, Option.map_some]
      simpa using hname
    have hlength : j < t.names.length := by
      rw [names, List.length_map]
      exact Nat.lt_trans hj hlt
    exact absurd ((List.getElem?_inj hlength h).mp hsame) (Nat.ne_of_lt hj)

theorem exists_find?_iff (h : t.names.Nodup) (id : SymbolId) :
    (∃ name, t.find? name = some id) ↔ id.number < t.size := by
  constructor
  · rintro ⟨name, hname⟩
    obtain ⟨e, he, -⟩ := (find?_eq_some_iff h).mp hname
    exact (List.getElem?_eq_some_iff.mp he).1
  · intro hlt
    exact ⟨_, (find?_eq_some_iff h).mpr ⟨_, List.getElem?_eq_getElem hlt, rfl⟩⟩

theorem numbered_numbers (t : SymbolTable) :
    t.numbered.map (·.1.number) = List.range t.size := by
  simp only [numbered, List.map_map, size, List.range_eq_range']
  exact List.zipIdx_map_snd 0 t.entries

theorem numbered_names (t : SymbolTable) : t.numbered.map (·.2.name) = t.names := by
  calc t.numbered.map (·.2.name)
    _ = (t.entries.zipIdx.map Prod.fst).map SymbolEntry.name := by
      rw [numbered, List.map_map, List.map_map]
      rfl
    _ = t.names := by rw [List.zipIdx_map_fst, names]

theorem sorted_perm (t : SymbolTable) : t.sorted.Perm t.numbered := List.mergeSort_perm _ _

/-- The sorted entries have no name twice, so each name is less than the next. -/
theorem sorted_pairwise (h : t.names.Nodup) :
    t.sorted.Pairwise fun a b => a.2.name < b.2.name := by
  have hle : t.sorted.Pairwise fun a b => a.2.name ≤ b.2.name := by
    have hsorted := @List.pairwise_mergeSort _
      (fun a b : SymbolId × SymbolEntry => decide (a.2.name ≤ b.2.name))
      (fun a b c hab hbc => decide_eq_true
        (le_trans (of_decide_eq_true hab) (of_decide_eq_true hbc)))
      (fun a b => by simpa using le_total a.2.name b.2.name) t.numbered
    exact hsorted.imp of_decide_eq_true
  have hne : t.sorted.Pairwise fun a b => a.2.name ≠ b.2.name := by
    have hperm := (sorted_perm t).map (·.2.name)
    rw [numbered_names] at hperm
    exact List.pairwise_map.mp (hperm.nodup_iff.mpr h)
  exact (hle.and hne).imp fun h => lt_of_le_of_ne h.1 h.2

end SymbolTable

/-! ## A table with an index -/

/-- A table that keeps the numbers of its names beside the entries, and never looks for a name
among them. -/
structure IndexedTable where
  index : String → Option SymbolId := fun _ => none
  entries : List SymbolEntry := []

namespace IndexedTable

def enter (t : IndexedTable) (name : String) : IndexedTable :=
  match t.index name with
  | some _ => t
  | none => ⟨Function.update t.index name (some ⟨t.entries.length⟩), t.entries ++ [{ name }]⟩

def mention (t : IndexedTable) (id : SymbolId) (line : Nat) : IndexedTable :=
  { t with entries := t.entries.modify id.number (SymbolTable.SymbolEntry.mention · line) }

def change (t : IndexedTable) : TableChange → IndexedTable
  | .enter name => t.enter name
  | .mention id line => t.mention id line

/-- The entries are those of a table, and the index finds what is found in that table. -/
structure Mirrors (i : IndexedTable) (t : SymbolTable) : Prop where
  entries : i.entries = t.entries
  index : i.index = t.find?

variable {i : IndexedTable} {t : SymbolTable}

theorem mirrors_empty : Mirrors {} {} := ⟨rfl, rfl⟩

theorem Mirrors.enter (h : i.Mirrors t) (name : String) :
    (i.enter name).Mirrors (t.enter name).2 := by
  obtain ⟨hentries, hindex⟩ := h
  unfold IndexedTable.enter SymbolTable.enter
  rw [hindex, hentries]
  cases hfind : t.find? name with
  | some id => exact ⟨hentries, hindex⟩
  | none =>
    refine ⟨rfl, funext fun other => ?_⟩
    have hnone : t.entries.findIdx? (·.name == name) = none := by
      simpa [SymbolTable.find?] using hfind
    by_cases hother : other = name
    · subst hother
      simp [SymbolTable.find?, List.findIdx?_append, hnone]
    · have hnew : (name == other) = false := beq_eq_false_iff_ne.mpr (Ne.symm hother)
      simp [SymbolTable.find?, List.findIdx?_append, hother, hnew]

theorem Mirrors.mention (h : i.Mirrors t) (id : SymbolId) (line : Nat) :
    (i.mention id line).Mirrors (t.mention id line) := by
  have hentries : (i.mention id line).entries = (t.mention id line).entries := by
    rw [IndexedTable.mention, SymbolTable.mention, h.entries]
  refine ⟨hentries, funext fun name => ?_⟩
  have hfind (u : SymbolTable) :
      u.find? name = (u.names.findIdx? (· == name)).map SymbolId.mk := by
    rw [SymbolTable.find?, SymbolTable.names, List.findIdx?_map]
    rfl
  rw [hfind, SymbolTable.names_mention, ← hfind, ← h.index]
  rfl

/-- The same changes make tables that mirror each other. -/
theorem Mirrors.changes (h : i.Mirrors t) (changes : List TableChange) :
    (changes.foldl change i).Mirrors (changes.foldl SymbolTable.change t) := by
  induction changes generalizing i t with
  | nil => exact h
  | cons c changes ih =>
    refine ih ?_
    cases c with
    | enter name => exact h.enter name
    | mention id line => exact h.mention id line

end IndexedTable

/-! ## Sessions -/

namespace SymbolTable

/-- One use of a table: a name is entered, or a line is noted at a number that is given out, or a
parser borrows the table for some calls on tokens of its own. -/
inductive Use : SymbolTable → SymbolTable → Prop
  | enter (t : SymbolTable) (name : String) : Use t (t.enter name).2
  | mention (t : SymbolTable) {id : SymbolId} (line : Nat) (h : id.number < t.size) :
      Use t (t.mention id line)
  | unit (t : SymbolTable) (settings : Settings) (ts : List Token) (calls : List Entry) :
      Use t ((ParserState.start ts t).afterCalls settings calls).symbols

/-- Any uses of a table, one after the other. -/
def Session : SymbolTable → SymbolTable → Prop := Relation.ReflTransGen Use

theorem Use.changesTo {t t' : SymbolTable} (h : t.Use t') : t.ChangesTo t' := by
  cases h with
  | enter name => exact changesTo_enter t name
  | mention line _ => exact changesTo_mention t _ line
  | unit settings ts calls =>
    exact (ParserState.steps_afterCalls settings calls (.start ts t)).changesTo

theorem Session.changesTo {t t' : SymbolTable} (h : t.Session t') : t.ChangesTo t' := by
  induction h with
  | refl => exact .refl t
  | tail _ huse ih => exact ih.trans huse.changesTo

/-- The names and the numbers of a table belong together, and its lists are in order. -/
structure Consistent (t : SymbolTable) : Prop where
  /-- What is found for a name is the number of its entry, and no other entry has the name. -/
  inverse : ∀ name id, t.find? name = some id ↔ ∃ e, t.entry? id = some e ∧ e.name = name
  given : ∀ id, (∃ name, t.find? name = some id) ↔ id.number < t.size
  numbers : t.numbered.map (·.1.number) = List.range t.size
  distinct : t.names.Nodup
  known : ∀ name id, t.find? name = some id → t.enter name = (id, t)
  lines : ∀ e ∈ t.entries, e.lines.IsChain (· ≠ ·)
  sorted_perm : t.sorted.Perm t.numbered
  sorted_lt : t.sorted.Pairwise fun a b => a.2.name < b.2.name
  /-- An index of the names that goes through the same changes finds the same numbers. -/
  indexed : ∃ changes : List TableChange, t = changes.foldl change {} ∧
    (changes.foldl IndexedTable.change {}).Mirrors t

theorem ChangesTo.tidy {t : SymbolTable} (h : ChangesTo {} t) : t.Tidy :=
  h.keeps (fun _ c ht => ht.change c) tidy_empty

theorem ChangesTo.consistent {t : SymbolTable} (h : ChangesTo {} t) : t.Consistent where
  inverse _ _ := find?_eq_some_iff h.tidy.names
  given := exists_find?_iff h.tidy.names
  numbers := numbered_numbers t
  distinct := h.tidy.names
  known name id hid := by rw [enter, hid]
  lines := h.tidy.lines
  sorted_perm := t.sorted_perm
  sorted_lt := sorted_pairwise h.tidy.names
  indexed := by
    obtain ⟨changes, rfl⟩ := h
    exact ⟨changes, rfl, IndexedTable.mirrors_empty.changes changes⟩

/-- A later table finds the same number for a name. -/
theorem GrownTo.find? {t t' : SymbolTable} (h : t.GrownTo t') (ht : t.names.Nodup)
    (ht' : t'.names.Nodup) {name : String} {id : SymbolId} (hid : t.find? name = some id) :
    t'.find? name = some id := by
  obtain ⟨e, he, rfl⟩ := (find?_eq_some_iff ht).mp hid
  obtain ⟨e', he', hname, -⟩ := h id.number e he
  exact (find?_eq_some_iff ht').mpr ⟨e', he', hname⟩

end SymbolTable

/-! ## The numbers in a tree -/

namespace Node

/-- Every number in a tree is found for a name, for the same one in both tables. -/
def Resolves (n : Node) (t t' : SymbolTable) : Prop :=
  ∀ m ∈ n.walk, ∀ id, m.id = some id → ∃ name, t.find? name = some id ∧ t'.find? name = some id

theorem whole_of_mem_walkStack {names : Nat} {stack : List Node}
    (h : ∀ n ∈ stack, ∃ place, n.Whole names place) :
    ∀ m ∈ walkStack stack, ∃ place, m.Whole names place := by
  induction stack using walkStack.induct with
  | case1 => simp [walkStack]
  | case2 n stack ih =>
    obtain ⟨place, hn⟩ := h n List.mem_cons_self
    intro m hm
    rw [walkStack, List.mem_cons] at hm
    rcases hm with rfl | hm
    · exact ⟨place, hn⟩
    · refine ih (fun c hc => ?_) m hm
      rcases List.mem_append.mp hc with hc | hc
      · obtain ⟨i, hi⟩ := List.mem_iff_getElem?.mp hc
        exact ⟨_, hn.child hi⟩
      · exact h c (List.mem_cons_of_mem n hc)

theorem Whole.number_lt {names : Nat} {place : Place} {n : Node} (h : n.Whole names place) :
    ∀ m ∈ n.walk, ∀ id, m.id = some id → id.number < names := by
  intro m hm id hid
  obtain ⟨_, hm⟩ := whole_of_mem_walkStack (List.forall_mem_singleton.mpr ⟨place, h⟩) m hm
  exact hm.complete.id_lt id hid

theorem Whole.resolves {t t' : SymbolTable} {place : Place} {n : Node}
    (h : n.Whole t.size place) (ht : SymbolTable.ChangesTo {} t) (hgrown : t.ChangesTo t') :
    n.Resolves t t' := by
  intro m hm id hid
  obtain ⟨name, hname⟩ := (SymbolTable.exists_find?_iff ht.tidy.names id).mpr
    (h.number_lt m hm id hid)
  exact ⟨name, hname, hgrown.grownTo.find? ht.tidy.names (ht.trans hgrown).tidy.names hname⟩

end Node

theorem Entry.builds (settings : Settings) (e : Entry) :
    Parser.Builds .statement (e.parser settings) := by
  cases e with
  | statement => exact Parser.statement_builds settings
  | program => exact Parser.program_builds settings

/-! ## The law -/

/-- A table is consistent after every session. What is in it stays there in every session that
follows, and a tree that a unit of a session gives finds its names in the table at the end, with
whatever settings, tokens and calls, before and behind failures. -/
theorem shared_table_stays_consistent {t : SymbolTable} (h : SymbolTable.Session {} t) :
    t.Consistent ∧ (∀ t', t.Session t' → t.GrownTo t') ∧
    ∀ (settings : Settings) (ts : List Token) (before rest : List Entry) (e : Entry) (tree : Node)
      (s : ParserState) (t' : SymbolTable),
      e.parser settings ((ParserState.start ts t).afterCalls settings before) = .ok tree s →
      (s.afterCalls settings rest).symbols.Session t' →
      s.symbols.GrownTo t' ∧ tree.Resolves s.symbols t' := by
  refine ⟨h.changesTo.consistent, fun t' h' => h'.changesTo.grownTo, ?_⟩
  intro settings ts before rest e tree s t' hok hlater
  have hbefore : SymbolTable.ChangesTo {} s.symbols := by
    refine h.changesTo.trans (ParserState.Steps.changesTo (s := .start ts t) ?_)
    exact (ParserState.steps_afterCalls settings before _).trans (Parser.Stepwise.ok hok)
  have hbehind : s.symbols.ChangesTo t' :=
    (ParserState.steps_afterCalls settings rest s).changesTo.trans hlater.changesTo
  exact ⟨hbehind.grownTo, (e.builds settings _ _ _ hok).resolves hbefore hbehind⟩

/-- A table with one name, at which a line is noted. -/
def notedTable : SymbolTable := (({} : SymbolTable).enter "beta").2.mention ⟨0⟩ 3

/-- A parser that reads a statement with that table. -/
def firstUnit : ParserState := .start (tokensOf "Alpha := BETA") notedTable

/-- The table behind the statement, lent to a parser that gives up at its first error. -/
def lentTable : SymbolTable :=
  ((ParserState.start (tokensOf "WHEN gamma + ) LESSTHAN0 ; alpha")
    (firstUnit.afterCalls {} [.statement]).symbols).afterCalls ⟨0, "$"⟩
      [.program, .program]).symbols

theorem notedTable_is_consistent_when_lent :
    SymbolTable.Session {} notedTable ∧
    lentTable.entries = [⟨"beta", [3, 1]⟩, ⟨"alpha", [1]⟩, ⟨"gamma", [1]⟩, ⟨"$1", [1]⟩] ∧
    notedTable.Consistent ∧ notedTable.GrownTo lentTable ∧
    ∃ tree s, Entry.statement.parser {} firstUnit = .ok tree s ∧
      tree.Resolves s.symbols lentTable := by
  have hnoted : SymbolTable.Session {} notedTable :=
    (Relation.ReflTransGen.single (.enter {} "beta")).tail (.mention _ 3 (by decide))
  have hlent : (firstUnit.afterCalls {} [.statement]).symbols.Session lentTable :=
    .single (.unit _ ⟨0, "$"⟩ _ _)
  have hunit : notedTable.Session (firstUnit.afterCalls {} [.statement]).symbols :=
    .single (.unit _ {} _ _)
  obtain ⟨hconsistent, hgrown, htrees⟩ := shared_table_stays_consistent hnoted
  refine ⟨hnoted, by decide +kernel, hconsistent, hgrown _ (hunit.trans hlent), ?_⟩
  have hok : ((Entry.statement.parser {}).runFrom firstUnit).1.isOk = true := by decide +kernel
  cases htree : ((Entry.statement.parser {}).runFrom firstUnit).1 with
  | error e =>
    rw [htree] at hok
    cases hok
  | ok tree =>
    have hrun := Parser.eq_ok_of_runFrom htree
    rw [← Parser.runFrom_state] at hrun
    exact ⟨tree, _, hrun, (htrees {} _ [] [] .statement tree _ lentTable hrun hlent).2⟩

end PascalFront
