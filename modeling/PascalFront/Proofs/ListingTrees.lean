-- A listing determines the tree. Every piece of it says where it ends: a name by
-- the first character that is no letter of names, a quoted text by its quotes, an
-- element by its closing tag; so two listings that are equal agree piece by piece.
import PascalFront.Proofs.Markup
import PascalFront.Proofs.RealText
import PascalFront.Proofs.SharedTable

namespace PascalFront

namespace Listing

/-! ## Pieces that say where they end -/

/-- Two runs of one class that end where it ends are one run. -/
theorem run_unique {p : Char → Bool} {a b x y : List Char} (ha : ∀ c ∈ a, p c = true)
    (hb : ∀ c ∈ b, p c = true) (hx : StopsRun p x) (hy : StopsRun p y) (h : a ++ x = b ++ y) :
    a = b ∧ x = y := by
  have htaken := congrArg (List.takeWhile p) h
  have hleft := congrArg (List.dropWhile p) h
  rw [takeWhile_of_run ha hx, takeWhile_of_run hb hy] at htaken
  rw [dropWhile_of_run ha hx, dropWhile_of_run hb hy] at hleft
  exact ⟨htaken, hleft⟩

theorem name_unique {kind kind' : NodeKind} {x y : List Char} (hx : StopsRun isNameChar x)
    (hy : StopsRun isNameChar y) (h : kind.name.toList ++ x = kind'.name.toList ++ y) :
    kind = kind' ∧ x = y := by
  obtain ⟨hname, hrest⟩ := run_unique (name_chars kind) (name_chars kind') hx hy h
  refine ⟨?_, hrest⟩
  have hall : ∀ k ∈ NodeKind.all, ∀ k' ∈ NodeKind.all, k.name = k'.name → k = k' := by decide
  exact hall _ (by cases kind <;> decide) _ (by cases kind' <;> decide) (String.toList_inj.mp hname)

/-- What stands behind the attributes of a tag: its end, with a stroke or without. -/
def EndsTag (cs : List Char) : Prop := (∃ rest, cs = ' ' :: '/' :: rest) ∨ ∃ rest, cs = '>' :: rest

theorem run_of_notMem {d : Char} {cs : List Char} (h : d ∉ cs) : ∀ c ∈ cs, (c != d) = true := by
  intro c hc
  rw [bne_iff_ne]
  rintro rfl
  exact h hc

/-- A key and a text in quotes. -/
theorem written_unique {key key' text text' : String} {x y : List Char} (hkey : '=' ∉ key.toList)
    (hkey' : '=' ∉ key'.toList) (h : written key text ++ x = written key' text' ++ y) :
    key = key' ∧ text = text' ∧ x = y := by
  have hquote : ∀ s : String, '"' ∉ s.toList.flatMap escape :=
    fun s hs => (not_mark_of_escaped hs).1 rfl
  simp only [written, List.cons_append, List.append_assoc, List.cons.injEq, true_and,
    List.nil_append] at h
  obtain ⟨hkeys, hrest⟩ := run_unique (run_of_notMem hkey) (run_of_notMem hkey')
    (stopsRun_cons.mpr (by decide)) (stopsRun_cons.mpr (by decide)) h
  simp only [List.cons.injEq, true_and] at hrest
  obtain ⟨htexts, hbehind⟩ := run_unique (run_of_notMem (hquote text))
    (run_of_notMem (hquote text')) (stopsRun_cons.mpr (by decide))
    (stopsRun_cons.mpr (by decide)) hrest
  have htext := congrArg unescape htexts
  rw [unescape_escaped, unescape_escaped] at htext
  exact ⟨String.toList_inj.mp hkeys, String.toList_inj.mp htext, (List.cons.inj hbehind).2⟩

/-- A key of letters, so that it is told from the end of a tag. -/
def IsKey (key : String) : Prop := '=' ∉ key.toList ∧ key.toList ≠ [] ∧ key.toList.head? ≠ some '/'

theorem written_ne_end {key text : String} {x y : List Char} (hkey : IsKey key) (hy : EndsTag y) :
    written key text ++ x ≠ y := by
  obtain ⟨-, hne, hstart⟩ := hkey
  obtain ⟨c, cs, hcs⟩ := List.exists_cons_of_ne_nil hne
  rcases hy with ⟨rest, rfl⟩ | ⟨rest, rfl⟩
  · intro h
    simp only [written, hcs, List.cons_append, List.cons.injEq, true_and] at h
    exact hstart (by rw [hcs, h.1]; rfl)
  · intro h
    cases h

/-- The attributes of a tag are found one after the other. -/
theorem rows_unique {ps qs : List (String × String)} {x y : List Char} (hps : ∀ p ∈ ps, IsKey p.1)
    (hqs : ∀ q ∈ qs, IsKey q.1) (hx : EndsTag x) (hy : EndsTag y)
    (h : (ps.flatMap fun p => written p.1 p.2) ++ x = (qs.flatMap fun q => written q.1 q.2) ++ y) :
    ps = qs ∧ x = y := by
  induction ps generalizing qs with
  | nil =>
    cases qs with
    | nil => exact ⟨rfl, h⟩
    | cons q qs =>
      rw [List.flatMap_cons, List.append_assoc] at h
      exact absurd h.symm (written_ne_end (hqs q (by simp)) hx)
  | cons p ps ih =>
    cases qs with
    | nil =>
      rw [List.flatMap_cons, List.append_assoc] at h
      exact absurd h (written_ne_end (hps p (by simp)) hy)
    | cons q qs =>
      rw [List.flatMap_cons, List.flatMap_cons, List.append_assoc, List.append_assoc] at h
      obtain ⟨hkey, htext, hrest⟩ := written_unique (hps p (by simp)).1 (hqs q (by simp)).1 h
      obtain ⟨rfl, hbehind⟩ :=
        ih (fun p hp => hps p (by simp [hp])) (fun q hq => hqs q (by simp [hq])) hrest
      exact ⟨by rw [Prod.ext hkey htext], hbehind⟩

/-! ## Attributes -/

/-- The constants that a kind names, where a real is finite. -/
def Names : NodeKind → Value → Prop
  | .integerConstant, .integer _ => True
  | .realConstant, .real x => x.isFinite = true
  | .stringConstant, .string _ => True
  | _, _ => False

/-- What a listing with a naming shows in full: a constant is the one that the kind names, and the
number of a name is one of those that the naming tells apart. -/
structure Shown (known : SymbolId → Prop) (n : Node) : Prop where
  value : ∀ v, n.value = some v → Names n.kind v
  id : ∀ i, n.id = some i → known i

/-- The numbers that a naming tells apart. -/
def Tells (naming : Naming) (known : SymbolId → Prop) : Prop :=
  ∀ i j, known i → known j → naming i = naming j → i = j

theorem listingText_unique {kind : NodeKind} {v w : Value} (hv : Names kind v) (hw : Names kind w)
    (h : v.listingText = w.listingText) : v = w := by
  cases kind <;> cases v <;> try exact hv.elim
  all_goals cases w <;> try exact hw.elim
  case integerConstant.integer.integer k l => rw [Lexeme.Numeral.toString_int_injective h]
  case realConstant.real.real x y => rw [Binary64.listingText_injective hv hw h]
  case stringConstant.string.string s t => rw [show s = t from h]

theorem isKey_pairs {naming : Naming} {line : Option Nat} {id : Option SymbolId}
    {value : Option Value} {pair : String × String} (h : pair ∈ pairs naming line id value) :
    IsKey pair.1 := by
  have hkeys : ∀ key ∈ ["line", "id", "value"],
      '=' ∉ key.toList ∧ key.toList ≠ [] ∧ key.toList.head? ≠ some '/' := by decide
  exact hkeys _ (pairs_key naming line id value h)

/-- The text of each attribute is found by its key. -/
theorem lookup_pairs (naming : Naming) (line : Option Nat) (id : Option SymbolId)
    (value : Option Value) :
    (pairs naming line id value).lookup "line" = line.map toString ∧
      (pairs naming line id value).lookup "id" = id.map naming ∧
      (pairs naming line id value).lookup "value" = value.map Value.listingText := by
  cases line <;> cases id <;> cases value <;> simp [pairs, List.lookup_cons]

theorem option_unique {α β : Type} {f : α → β} {o o' : Option α}
    (hf : ∀ a b, o = some a → o' = some b → f a = f b → a = b) (h : o.map f = o'.map f) :
    o = o' := by
  cases o with
  | none => exact (Option.map_eq_none_iff.mp h.symm).symm
  | some a =>
    cases o' with
    | none => cases h
    | some b => rw [hf a b rfl rfl (Option.some.inj h)]

/-- Attributes that are written alike are the same. -/
theorem pairs_unique {naming : Naming} {known : SymbolId → Prop} (hnaming : Tells naming known)
    {n m : Node} (hn : Shown known n) (hm : Shown known m) (hkind : n.kind = m.kind)
    (h : pairs naming n.line n.id n.value = pairs naming m.line m.id m.value) :
    n.line = m.line ∧ n.id = m.id ∧ n.value = m.value := by
  obtain ⟨hline, hid, hvalue⟩ := lookup_pairs naming n.line n.id n.value
  obtain ⟨hline', hid', hvalue'⟩ := lookup_pairs naming m.line m.id m.value
  rw [h] at hline hid hvalue
  refine ⟨option_unique (fun _ _ _ _ => toString_injective) (hline.symm.trans hline'),
    option_unique (fun i j hi hj => ?_) (hid.symm.trans hid'),
    option_unique (fun v w hv hw => ?_) (hvalue.symm.trans hvalue')⟩
  · exact hnaming i j (hn.id i hi) (hm.id j hj)
  · exact listingText_unique (hn.value v hv) (hkind ▸ hm.value w hw)

/-! ## Trees -/

section

variable {style : Style} {known : SymbolId → Prop}

theorem inner_ends (style : Style) (depth : Nat) (kind : NodeKind) (children : List Node)
    (rest : List Char) : EndsTag (inner style depth kind children rest) := by
  cases children with
  | nil => exact .inl ⟨_, rfl⟩
  | cons c cs => exact .inr ⟨_, rfl⟩

theorem stopsRun_attributes {naming : Naming} {line : Option Nat} {id : Option SymbolId}
    {value : Option Value} {rest : List Char} (h : EndsTag rest) :
    StopsRun isNameChar (attributes naming line id value ++ rest) := by
  rw [attributes_eq]
  cases pairs naming line id value with
  | nil => rcases h with ⟨_, rfl⟩ | ⟨_, rfl⟩ <;> exact stopsRun_cons.mpr (by decide)
  | cons pair pairs => exact stopsRun_cons.mpr (by decide)

/-- A line that closes an element opens no other one. -/
theorem closing_ne_element (depth depth' : Nat) (kind : NodeKind) (n : Node) (x y : List Char) :
    closing style depth kind x ≠ element style depth' n y := by
  obtain ⟨kind', line, id, value, children⟩ := n
  obtain ⟨c, cs, hname⟩ := List.exists_cons_of_ne_nil (name_ne_nil kind')
  have hc := (nameChar_ne (name_chars kind' c (by simp [hname]))).2.1
  have hblank : ∀ depth, ∀ c ∈ indent style depth, (c == ' ') = true := fun depth c hc => by
    simp [indent_chars style depth c hc]
  rw [element_eq, closing]
  intro h
  obtain ⟨-, hrest⟩ := run_unique (hblank depth) (hblank depth') (stopsRun_cons.mpr (by decide))
    (stopsRun_cons.mpr (by decide)) h
  simp only [opening, hname, List.cons_append, List.cons.injEq, true_and] at hrest
  exact hc hrest.1.symm

/-- An element is found at its place in the lines, when it is a tree that is shown in full. -/
def Unique (style : Style) (known : SymbolId → Prop) (n : Node) : Prop :=
  ∀ m : Node, m.Every (Shown known) →
    ∀ depth x y, element style depth n x = element style depth m y → n = m ∧ x = y

theorem elements_unique {ns ms : List Node} {depth depth' : Nat} {kind : NodeKind} {x y : List Char}
    (hns : ∀ n ∈ ns, Unique style known n) (hms : ∀ m ∈ ms, m.Every (Shown known))
    (h : elements style depth ns (closing style depth' kind x) =
      elements style depth ms (closing style depth' kind y)) : ns = ms ∧ x = y := by
  induction ns generalizing ms with
  | nil =>
    cases ms with
    | nil =>
      simp only [elements, closing] at h
      have hbehind := List.append_cancel_left h
      simp only [List.cons_append, List.cons.injEq, true_and] at hbehind
      have hrest := List.append_cancel_left hbehind
      simp only [List.cons.injEq, true_and] at hrest
      exact ⟨rfl, hrest⟩
    | cons m ms =>
      rw [elements, elements] at h
      exact absurd h (closing_ne_element _ _ _ _ _ _)
  | cons n ns ih =>
    cases ms with
    | nil =>
      rw [elements, elements] at h
      exact absurd h.symm (closing_ne_element _ _ _ _ _ _)
    | cons m ms =>
      rw [elements, elements] at h
      obtain ⟨rfl, hrest⟩ := hns n (by simp) m (hms m (by simp)) _ _ _ h
      obtain ⟨rfl, hbehind⟩ :=
        ih (fun k hk => hns k (by simp [hk])) (fun k hk => hms k (by simp [hk])) hrest
      exact ⟨rfl, hbehind⟩

theorem element_unique (hnaming : Tells style.naming known) {n : Node}
    (hn : n.Every (Shown known)) : Unique style known n := by
  induction hn with
  | @intro n hshown _ ih =>
    intro m hm depth x y h
    obtain ⟨kind, line, id, value, children⟩ := n
    obtain ⟨kind', line', id', value', children'⟩ := m
    obtain ⟨hshown', hchildren'⟩ := Node.every_mk.mp hm
    rw [element_eq, element_eq] at h
    have hopening := (List.cons.inj (List.append_cancel_left h)).2
    rw [opening, opening, List.append_assoc, List.append_assoc] at hopening
    have hends := inner_ends style depth kind children x
    have hends' := inner_ends style depth kind' children' y
    obtain ⟨rfl, hattributes⟩ :=
      name_unique (stopsRun_attributes hends) (stopsRun_attributes hends') hopening
    rw [attributes_eq, attributes_eq] at hattributes
    obtain ⟨hpairs, hinner⟩ := rows_unique (fun _ => isKey_pairs) (fun _ => isKey_pairs) hends
      hends' hattributes
    obtain ⟨rfl, rfl, rfl⟩ := pairs_unique hnaming hshown hshown' rfl hpairs
    cases children with
    | nil =>
      cases children' with
      | nil =>
        simp only [inner, List.cons_append, List.nil_append, List.cons.injEq, true_and] at hinner
        exact ⟨rfl, hinner⟩
      | cons c cs => cases hinner
    | cons c cs =>
      cases children' with
      | nil => cases hinner
      | cons d ds =>
        simp only [inner, List.cons.injEq, true_and] at hinner
        obtain ⟨hall, hrest⟩ := elements_unique ih hchildren' hinner
        have hall : c :: cs = d :: ds := hall
        exact ⟨by rw [hall], hrest⟩

theorem listing_unique (hnaming : Tells style.naming known) {n m : Node}
    (hn : n.Every (Shown known)) (hm : m.Every (Shown known))
    (h : n.listing style = m.listing style) : n = m := by
  rw [Node.listing, Node.listing, String.ofList_inj] at h
  exact (element_unique hnaming hn m hm 0 [] [] h).1

end

/-! ## The two namings -/

theorem byNumber_tells : Tells byNumber fun _ => True := by
  rintro ⟨i⟩ ⟨j⟩ - - h
  exact congrArg SymbolId.mk (toString_injective h)

/-- The names of a table tell its numbers apart. -/
theorem byName_tells {symbols : SymbolTable} (h : SymbolTable.ChangesTo {} symbols) :
    Tells (byName symbols) fun id => id.number < symbols.size := by
  rintro ⟨i⟩ ⟨j⟩ hi hj hname
  have hsize : symbols.names.length = symbols.size := by simp [SymbolTable.names, SymbolTable.size]
  rw [← hsize] at hi hj
  simp only [byName, SymbolTable.nameOf_eq, List.getElem?_eq_getElem hi,
    List.getElem?_eq_getElem hj,
    Option.getD_some] at hname
  exact congrArg SymbolId.mk ((List.Nodup.getElem_inj_iff h.tidy.names).mp hname)

/-- A listing determines the tree: with numbers as they are, and with the names of one table,
whatever the indentation. Quoted texts can be read back, and the tags balance. -/
theorem listing_determines_tree :
    (∀ (width : Nat) (n m : Node), n.Every (Shown fun _ => True) → m.Every (Shown fun _ => True) →
      n.listing ⟨width, byNumber⟩ = m.listing ⟨width, byNumber⟩ → n = m) ∧
    (∀ (width : Nat) (symbols : SymbolTable), SymbolTable.ChangesTo {} symbols → ∀ n m : Node,
      n.Every (Shown fun id => id.number < symbols.size) →
        m.Every (Shown fun id => id.number < symbols.size) →
      n.listing ⟨width, byName symbols⟩ = m.listing ⟨width, byName symbols⟩ → n = m) ∧
    (∀ text : String, unescape (text.toList.flatMap escape) = text.toList) ∧
    ∀ (style : Style) (n : Node), Balances (n.listing style) := by
  refine ⟨fun width n m hn hm h => ?_, fun width symbols hsymbols n m hn hm h => ?_,
    fun text => unescape_escaped text.toList, balances⟩
  · exact listing_unique byNumber_tells hn hm h
  · exact listing_unique (byName_tells hsymbols) hn hm h

/-- A call with a text that looks like the rest of a listing. -/
def forgery (number : Nat) : Node :=
  ⟨.call, some 2, some ⟨number⟩, none,
    [{ kind := .parameters, children :=
      [Node.string "\" />\n</PARAMETERS>&lt;", Node.real ⟨0x3FF8000000000000⟩] }]⟩

/-- Names of which one looks like an entity. -/
def forgedNames : SymbolTable :=
  [TableChange.enter "a", .enter "&amp;a", .mention ⟨1⟩ 2].foldl SymbolTable.change {}

theorem shown_forgery {known : SymbolId → Prop} {number : Nat} (h : known ⟨number⟩) :
    (forgery number).Every (Shown known) := by
  have hreal : Binary64.isFinite ⟨0x3FF8000000000000⟩ = true := by decide
  have hplain : ∀ {n : Node}, n.id = none → (∀ v, n.value = some v → Names n.kind v) →
      Shown known n :=
    fun hid hvalue => ⟨hvalue, by simp [hid]⟩
  simp only [forgery, Node.string, Node.real, Node.every_mk, List.forall_mem_cons, List.not_mem_nil,
    false_implies,
    implies_true, and_true]
  refine ⟨⟨by simp, by simpa using h⟩, hplain rfl (by simp), hplain rfl (by simp [Names]),
    hplain rfl ?_⟩
  simpa [Names] using hreal

theorem forgeries_are_told_apart :
    (forgery 0).listing ⟨0, byNumber⟩ ≠ (forgery 1).listing ⟨0, byNumber⟩ ∧
    (forgery 0).listing ⟨4, byName forgedNames⟩ ≠ (forgery 1).listing ⟨4, byName forgedNames⟩ ∧
    unescape ("&lt;\"".toList.flatMap escape) = "&lt;\"".toList ∧
      Balances ((forgery 1).listing {}) := by
  have hne : forgery 0 ≠ forgery 1 := by simp [forgery]
  obtain ⟨hnumbers, hnames, hescape, hbalances⟩ := listing_determines_tree
  refine ⟨fun h => hne (hnumbers 0 _ _ (shown_forgery trivial) (shown_forgery trivial) h), fun h =>
    hne ?_,
    hescape _, hbalances _ _⟩
  have hsize : (0 < forgedNames.size) ∧ 1 < forgedNames.size := by decide
  exact hnames 4 forgedNames ⟨_, rfl⟩ _ _ (shown_forgery hsize.1) (shown_forgery hsize.2) h

end Listing

end PascalFront
