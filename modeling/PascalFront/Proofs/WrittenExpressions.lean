-- Expressions as they are written. A tree is written with parentheses only
-- where the layers of the operators ask for them, and it is read back as it was:
-- the same tree, its tokens and not one more, and nothing noted. Where the
-- parentheses stand decides the derivation, so the law comes from the grammar.
import PascalFront.Proofs.DraftRuns
import PascalFront.Proofs.Preservation
import Mathlib.Data.List.Forall2

namespace PascalFront

/-! ## Trees and their written form -/

/-- The tree of an expression without any placeholder. -/
inductive ExprTree where
  | var (id : SymbolId)
  | constant (v : Value)
  | not (x : ExprTree)
  | negate (x : ExprTree)
  | binary (op : Operator) (left right : ExprTree)

/-- One token of a written expression, as far as the tree decides on it. -/
inductive Glyph where
  | var (id : SymbolId)
  | constant (v : Value)
  | symbol (k : TokenKind)
  deriving DecidableEq

/-- How loosely the phrases of a layer bind. -/
def Layer.rank : Layer → Nat
  | factor => 0
  | term => 1
  | simple => 2
  | expression => 3

namespace Operator

/-- The layer of a left operand without parentheses: sums and products group to the left, and
relations do not chain. -/
def leftLayer (op : Operator) : Layer :=
  match op.layer with
  | .expression => .simple
  | layer => layer

/-- The layer of a right operand without parentheses. -/
def rightLayer (op : Operator) : Layer :=
  match op.layer with
  | .expression => .simple
  | .simple => .term
  | _ => .factor

end Operator

/-- A phrase of the layer `own` where one of the layer `wanted` is due. -/
def enclosed (own wanted : Layer) (phrase : List Glyph) : List Glyph :=
  if own.rank ≤ wanted.rank then phrase
  else .symbol .leftParen :: (phrase ++ [.symbol .rightParen])

namespace ExprTree

def node : ExprTree → Node
  | var id => .var id
  | constant v => v.node
  | not x => .operator .not [x.node]
  | negate x => .operator .negate [x.node]
  | binary op left right => .binary op.node left.node right.node

/-- A tree as a phrase of a layer. A sign stands only in front of the first term. -/
def written : ExprTree → Layer → List Glyph
  | var id, _ => [.var id]
  | constant v, _ => [.constant v]
  | not x, _ => .symbol .kwNot :: x.written .factor
  | negate x, wanted => enclosed .simple wanted (.symbol .minus :: x.written .term)
  | binary op left right, wanted =>
    enclosed op.layer wanted
      (left.written op.leftLayer ++ .symbol op.token :: right.written op.rightLayer)

/-- Whether a token of this kind behind a written tree still belongs to the expression. -/
def goesOnWith : ExprTree → TokenKind → Bool
  | binary op _ _, k =>
    (product? k).isSome || (sum? k).isSome || (op.layer != .expression && (relation? k).isSome)
  | _, k => Parser.continues k

end ExprTree

/-- The table behind the names of some tokens, each entered with its line. -/
def SymbolTable.enterAll (t : SymbolTable) (ts : List Token) : SymbolTable :=
  ts.foldl (fun t u => if u.kind = .identifier then (u.asName.enter t).2 else t) t

/-- A token that shows a glyph: a name by its number in a table, in any letter case. -/
def Glyph.ShownBy (table : SymbolTable) : Glyph → Token → Prop
  | .var id, t => t.kind = .identifier ∧ table.find? t.asName.folded = some id
  | .constant v, t => t.constant? = some v
  | .symbol k, t => t.kind = k

instance (table : SymbolTable) (g : Glyph) (t : Token) : Decidable (g.ShownBy table t) := by
  unfold Glyph.ShownBy
  cases g <;> infer_instance

/-! ## Names -/

namespace SymbolTable

variable {t t' : SymbolTable}

theorem enterAll_append (t : SymbolTable) (ts us : List Token) :
    t.enterAll (ts ++ us) = (t.enterAll ts).enterAll us := List.foldl_append

theorem enterAll_of_ne {u : Token} (h : u.kind ≠ .identifier) (t : SymbolTable) (ts : List Token) :
    t.enterAll (u :: ts) = t.enterAll ts := by
  rw [enterAll, List.foldl_cons, if_neg h, enterAll]

theorem find?_eq (t : SymbolTable) (name : String) :
    t.find? name = (t.names.findIdx? (· == name)).map SymbolId.mk := by
  rw [find?, names, List.findIdx?_map]
  rfl

/-- What is found in a table is found in every later one. -/
theorem find?_of_prefix (h : t.names <+: t'.names) {name : String} {id : SymbolId}
    (hid : t.find? name = some id) : t'.find? name = some id := by
  obtain ⟨more, hmore⟩ := h
  rw [find?_eq] at hid ⊢
  obtain ⟨i, hi, rfl⟩ := Option.map_eq_some_iff.mp hid
  rw [← hmore, List.findIdx?_append, hi]
  rfl

theorem find?_enterAt (t : SymbolTable) (name : String) (line : Nat) :
    (t.enterAt name line).2.find? name = some (t.enterAt name line).1 := by
  have hnames : (t.enterAt name line).2.names = (t.enter name).2.names := names_mention _ _ _
  have hnumber : (t.enterAt name line).1 = (t.enter name).1 := rfl
  rw [find?_eq, hnames, ← find?_eq, hnumber]
  unfold enter
  cases h : t.find? name with
  | some id => exact h
  | none =>
    have hnone : t.names.findIdx? (· == name) = none := by
      rwa [find?_eq, Option.map_eq_none_iff] at h
    rw [find?_eq]
    simp only [names, List.map_append, List.map_cons, List.map_nil, size] at hnone ⊢
    rw [List.findIdx?_append, hnone]
    simp

end SymbolTable

/-! ## From trees to phrases -/

/-- A source expression whose names have the numbers of a tree. -/
inductive Expr.Names (table : SymbolTable) : Expr → ExprTree → Prop
  | name {n : Name} {id : SymbolId} : table.find? n.folded = some id →
      Names table (.name n) (.var id)
  | literal (v : Value) : Names table (.literal v) (.constant v)
  | not {e : Expr} {x : ExprTree} : Names table e x → Names table (.not e) (.not x)
  | negate {e : Expr} {x : ExprTree} : Names table e x → Names table (.negate e) (.negate x)
  | binary (op : Operator) {left right : Expr} {x y : ExprTree} : Names table left x →
      Names table right y → Names table (.binary op left right) (.binary op x y)

/-- The tokens `w` are a phrase, whatever stands behind them. -/
def IsPhrase (layer : Layer) (w : List Token) (e : Expr) : Prop :=
  ∀ rest, Phrase layer (w ++ rest) e rest

section

variable {table : SymbolTable} {w : List Token} {e left right : Expr} {x : ExprTree}

/-- The lowering of such an expression is the tree, if the table is a later one. -/
theorem Expr.Names.lower_eq (h : e.Names table x) {t : SymbolTable}
    (hlater : (e.lower t).2.names <+: table.names) : (e.lower t).1 = x.node := by
  induction h generalizing t with
  | @name n id hid =>
    have hfound : (n.enter t).2.find? n.folded = some (n.enter t).1 :=
      t.find?_enterAt n.folded n.line
    have hnumber : some (n.enter t).1 = some id :=
      (SymbolTable.find?_of_prefix hlater hfound).symm.trans hid
    exact congrArg Node.var (Option.some.inj hnumber)
  | literal v => rfl
  | not _ ih => exact congrArg (fun n => Node.operator .not [n]) (ih hlater)
  | negate _ ih => exact congrArg (fun n => Node.operator .negate [n]) (ih hlater)
  | @binary op left right x y _ _ ihx ihy =>
    have hright : ((right.lower (left.lower t).2).2).names <+: table.names := hlater
    have hgrows : (left.lower t).2.names <+: (right.lower (left.lower t).2).2.names :=
      Grows.names _
    exact congrArg₂ (Node.binary op.node) (ihx (hgrows.trans hright)) (ihy hright)

/-- A phrase is also a phrase of every looser layer. -/
theorem isPhrase_lift {own wanted : Layer} (h : IsPhrase own w e)
    (hle : own.rank ≤ wanted.rank) : IsPhrase wanted w e := by
  have hterm (h : IsPhrase .factor w e) : IsPhrase .term w e := fun rest => .factor (h rest)
  have hsimple (h : IsPhrase .term w e) : IsPhrase .simple w e := fun rest => .term (h rest)
  have hexpression (h : IsPhrase .simple w e) : IsPhrase .expression w e :=
    fun rest => .simple (h rest)
  cases own with
  | factor =>
    cases wanted with
    | factor => exact h
    | term => exact hterm h
    | simple => exact hsimple (hterm h)
    | expression => exact hexpression (hsimple (hterm h))
  | term =>
    cases wanted with
    | factor => exact absurd hle (by decide)
    | term => exact h
    | simple => exact hsimple h
    | expression => exact hexpression (hsimple h)
  | simple =>
    cases wanted with
    | factor | term => exact absurd hle (by decide)
    | simple => exact h
    | expression => exact hexpression h
  | expression =>
    cases wanted with
    | factor | term | simple => exact absurd hle (by decide)
    | expression => exact h

theorem isPhrase_of_factor (h : IsPhrase .factor w e) (wanted : Layer) : IsPhrase wanted w e :=
  isPhrase_lift h (Nat.zero_le wanted.rank)

/-- Glyphs one after the other are shown by tokens one after the other. -/
theorem shownBy_append {gs hs : List Glyph}
    (h : List.Forall₂ (Glyph.ShownBy table) (gs ++ hs) w) :
    ∃ u v, List.Forall₂ (Glyph.ShownBy table) gs u ∧ List.Forall₂ (Glyph.ShownBy table) hs v ∧
      w = u ++ v := by
  refine ⟨w.take gs.length, w.drop gs.length, ?_, ?_, (List.take_append_drop _ w).symm⟩
  · simpa using List.forall₂_take gs.length h
  · simpa using List.forall₂_drop gs.length h

theorem isPhrase_enclosed {own wanted : Layer} {gs : List Glyph}
    (hinner : ∀ w, List.Forall₂ (Glyph.ShownBy table) gs w →
      ∃ e, IsPhrase own w e ∧ e.Names table x)
    (h : List.Forall₂ (Glyph.ShownBy table) (enclosed own wanted gs) w) :
    ∃ e, IsPhrase wanted w e ∧ e.Names table x := by
  unfold enclosed at h
  split at h
  · rename_i hle
    obtain ⟨e, hphrase, hnames⟩ := hinner w h
    exact ⟨e, isPhrase_lift hphrase hle, hnames⟩
  · obtain ⟨t, _, ht, hrest, rfl⟩ := List.forall₂_cons_left_iff.mp h
    obtain ⟨w, _, hw, hlast, rfl⟩ := shownBy_append hrest
    obtain ⟨u, _, hu, hnil, rfl⟩ := List.forall₂_cons_left_iff.mp hlast
    cases hnil
    obtain ⟨e, hphrase, hnames⟩ := hinner w hw
    have hinside : IsPhrase .expression w e :=
      isPhrase_lift hphrase (by cases own <;> decide)
    have hparens : IsPhrase .factor (t :: (w ++ [u])) e := by
      intro rest
      rw [List.cons_append, List.append_assoc]
      exact .parens ht (hinside _) hu
    exact ⟨e, isPhrase_of_factor hparens wanted, hnames⟩

theorem isPhrase_binary {op : Operator} {t : Token} {u v : List Token} (ht : t.kind = op.token)
    (hleft : IsPhrase op.leftLayer u left) (hright : IsPhrase op.rightLayer v right) :
    IsPhrase op.layer (u ++ t :: v) (.binary op left right) := by
  intro rest
  rw [List.append_assoc, List.cons_append]
  have hl := hleft (t :: (v ++ rest))
  have hr := hright rest
  unfold Operator.leftLayer at hl
  unfold Operator.rightLayer at hr
  cases hop : op.layer with
  | factor => cases op <;> cases hop
  | term =>
    rw [hop] at hl hr
    exact .product hop hl ht hr
  | simple =>
    rw [hop] at hl hr
    exact .sum hop hl ht hr
  | expression =>
    rw [hop] at hl hr
    exact .relation hop hl ht hr

/-- What is written for a tree is a phrase of the layer that was wanted. -/
theorem isPhrase_written (x : ExprTree) {wanted : Layer}
    (h : List.Forall₂ (Glyph.ShownBy table) (x.written wanted) w) :
    ∃ e, IsPhrase wanted w e ∧ e.Names table x := by
  induction x generalizing wanted w with
  | var id =>
    obtain ⟨t, _, ⟨hkind, hid⟩, hnil, rfl⟩ := List.forall₂_cons_left_iff.mp h
    cases hnil
    have hname : IsPhrase .factor [t] (.name t.asName) := fun _ => .name hkind
    exact ⟨_, isPhrase_of_factor hname wanted, .name hid⟩
  | constant v =>
    obtain ⟨t, _, ht, hnil, rfl⟩ := List.forall₂_cons_left_iff.mp h
    cases hnil
    have hliteral : IsPhrase .factor [t] (.literal v) := fun _ => .literal ht
    exact ⟨_, isPhrase_of_factor hliteral wanted, .literal v⟩
  | not x ih =>
    obtain ⟨t, u, ht, hu, rfl⟩ := List.forall₂_cons_left_iff.mp h
    obtain ⟨e, hphrase, hnames⟩ := ih hu
    have hnot : IsPhrase .factor (t :: u) (.not e) := fun rest => .not ht (hphrase rest)
    exact ⟨_, isPhrase_of_factor hnot wanted, .not hnames⟩
  | negate x ih =>
    refine isPhrase_enclosed (fun w hw => ?_) h
    obtain ⟨t, u, ht, hu, rfl⟩ := List.forall₂_cons_left_iff.mp hw
    obtain ⟨e, hphrase, hnames⟩ := ih hu
    exact ⟨_, fun rest => .minus ht (hphrase rest), .negate hnames⟩
  | binary op left right ihl ihr =>
    refine isPhrase_enclosed (fun w hw => ?_) h
    obtain ⟨u, _, hu, hrest, rfl⟩ := shownBy_append hw
    obtain ⟨t, v, ht, hv, rfl⟩ := List.forall₂_cons_left_iff.mp hrest
    obtain ⟨_, hl, hnames⟩ := ihl hu
    obtain ⟨_, hr, hnames'⟩ := ihr hv
    exact ⟨_, isPhrase_binary ht hl hr, .binary op hnames hnames'⟩

end

/-! ## From phrases to runs -/

theorem ne_identifier_of_constant? {t : Token} {v : Value} (h : t.constant? = some v) :
    t.kind ≠ .identifier := by
  rcases Parser.constant?_eq_some h with ⟨hk, -⟩ | ⟨hk, -⟩ | ⟨hk, -⟩ <;> rw [hk] <;> decide

/-- The tokens `w` hold the names of an expression, in the order in which it enters them. -/
def EntersAll (w : List Token) (e : Expr) : Prop :=
  ∀ table : SymbolTable, (e.lower table).2 = table.enterAll w

theorem EntersAll.binary {u v : List Token} {left right : Expr} (hleft : EntersAll u left)
    (hright : EntersAll v right) {op : Operator} {t : Token} (ht : t.kind = op.token) :
    EntersAll (u ++ t :: v) (.binary op left right) := by
  intro table
  have hop : t.kind ≠ .identifier := by rw [ht]; cases op <;> decide
  rw [SymbolTable.enterAll_append, SymbolTable.enterAll_of_ne hop, ← hleft, ← hright]
  rfl

/-- The names of a phrase are entered in the order of their tokens. -/
theorem phrase_enters {layer : Layer} {ts rest : List Token} {e : Expr}
    (h : Phrase layer ts e rest) : ∃ w, ts = w ++ rest ∧ EntersAll w e := by
  have hbinary {ts mid rest : List Token} {t : Token} {op : Operator} {left right : Expr}
      (ht : t.kind = op.token) (hl : ∃ u, ts = u ++ t :: mid ∧ EntersAll u left)
      (hr : ∃ v, mid = v ++ rest ∧ EntersAll v right) :
      ∃ w, ts = w ++ rest ∧ EntersAll w (.binary op left right) := by
    obtain ⟨u, rfl, hu⟩ := hl
    obtain ⟨v, rfl, hv⟩ := hr
    exact ⟨u ++ t :: v, by simp, hu.binary hv ht⟩
  induction h with
  | @name t _ ht =>
    refine ⟨[t], rfl, fun table => ?_⟩
    rw [SymbolTable.enterAll, List.foldl_cons, if_pos ht]
    rfl
  | @literal t _ _ ht =>
    refine ⟨[t], rfl, fun table => ?_⟩
    rw [SymbolTable.enterAll_of_ne (ne_identifier_of_constant? ht)]
    rfl
  | @not t _ _ _ ht _ ih =>
    obtain ⟨w, rfl, hw⟩ := ih
    refine ⟨t :: w, rfl, fun table => ?_⟩
    rw [SymbolTable.enterAll_of_ne (by rw [ht]; decide), ← hw]
    rfl
  | @parens t u _ _ _ ht _ hu ih =>
    obtain ⟨w, rfl, hw⟩ := ih
    refine ⟨t :: (w ++ [u]), by simp, fun table => ?_⟩
    rw [SymbolTable.enterAll_of_ne (by rw [ht]; decide), SymbolTable.enterAll_append,
      SymbolTable.enterAll_of_ne (by rw [hu]; decide), hw]
    rfl
  | factor _ ih => exact ih
  | product _ _ ht _ ihl ihr => exact hbinary ht ihl ihr
  | term _ ih => exact ih
  | @plus t _ _ _ ht _ ih =>
    obtain ⟨w, rfl, hw⟩ := ih
    refine ⟨t :: w, rfl, fun table => ?_⟩
    rw [SymbolTable.enterAll_of_ne (by rw [ht]; decide), hw]
  | @minus t _ _ _ ht _ ih =>
    obtain ⟨w, rfl, hw⟩ := ih
    refine ⟨t :: w, rfl, fun table => ?_⟩
    rw [SymbolTable.enterAll_of_ne (by rw [ht]; decide), ← hw]
    rfl
  | sum _ _ ht _ ihl ihr => exact hbinary ht ihl ihr
  | simple _ ih => exact ih
  | relation _ _ ht _ ihl ihr => exact hbinary ht ihl ihr

namespace Parser

variable {table : SymbolTable} {w : List Token} {x : ExprTree}

/-- In front of a written tree the parser passes a phrase for it and stops where it must. -/
theorem written_gives (h : List.Forall₂ (Glyph.ShownBy table) (x.written .expression) w)
    {t : Token} (hstop : x.goesOnWith t.kind = false) (rest : List Token) :
    ∃ e, Phrase .expression (w ++ t :: rest) e (t :: rest) ∧ e.Names table x ∧
      ∀ table₀, Gives expression (w ++ t :: rest) table₀ (e.lower table₀).1 (t :: rest)
        (e.lower table₀).2 := by
  by_cases hrelation : ∃ op left right, x = .binary op left right ∧ op.layer = .expression
  · obtain ⟨op, left, right, rfl, hop⟩ := hrelation
    have hwritten : (ExprTree.binary op left right).written .expression =
        left.written .simple ++ .symbol op.token :: right.written .simple := by
      simp [ExprTree.written, enclosed, hop, Operator.leftLayer, Operator.rightLayer]
    rw [hwritten] at h
    obtain ⟨u, _, hu, hlast, rfl⟩ := shownBy_append h
    obtain ⟨s, v, hs, hv, rfl⟩ := List.forall₂_cons_left_iff.mp hlast
    obtain ⟨el, hl, hnames⟩ := isPhrase_written left hu
    obtain ⟨er, hr, hnames'⟩ := isPhrase_written right hv
    rw [List.append_assoc, List.cons_append]
    have hleft := hl (s :: (v ++ t :: rest))
    have hright := hr (t :: rest)
    obtain ⟨hproduct, hsum⟩ : product? t.kind = none ∧ sum? t.kind = none := by
      simpa [ExprTree.goesOnWith, hop] using hstop
    exact ⟨_, .relation hop hleft hs hright, .binary op hnames hnames',
      relation_gives hop (phrase_reads hleft) hs (phrase_reads hright) hproduct hsum⟩
  · obtain ⟨e, hphrase, hnames⟩ := isPhrase_written x h
    have hcontinues : continues t.kind = false := by
      cases x with
      | binary op left right =>
        have hop : op.layer ≠ .expression := fun hop => hrelation ⟨op, left, right, rfl, hop⟩
        simp only [ExprTree.goesOnWith, bne_iff_ne.mpr hop, Bool.true_and, Bool.or_eq_false_iff]
          at hstop
        simp only [continues, hstop, Bool.or_false]
      | _ => exact hstop
    exact ⟨e, hphrase _, hnames, expression_gives (hphrase _) hcontinues⟩

/-- A tree that is written with no more parentheses than it needs is read back: the parser gives
this tree, stops at the token behind it, notes nothing and enters the names in their order. -/
theorem written_expression_is_read_back {s : ParserState} {x : ExprTree} {ts rest : List Token}
    {t : Token} (hs : s.upcoming = ts ++ t :: rest)
    (hwritten : List.Forall₂ (Glyph.ShownBy (s.symbols.enterAll ts)) (x.written .expression) ts)
    (hstop : x.goesOnWith t.kind = false) :
    ∃ s', expression s = .ok x.node s' ∧ s'.upcoming = t :: rest ∧
      s'.diagnostics = s.diagnostics ∧ s'.symbols = s.symbols.enterAll ts := by
  obtain ⟨e, hphrase, hnames, hgives⟩ := written_gives hwritten hstop rest
  obtain ⟨w, hw, henters⟩ := phrase_enters hphrase
  obtain rfl : ts = w := List.append_cancel_right hw
  have hnode : (e.lower s.symbols).1 = x.node :=
    hnames.lower_eq (henters s.symbols ▸ List.prefix_refl _)
  -- the run is that of a state with nothing noted: what was noted before does not count
  have hstart : s = ParserState.noting s.diagnostics { s with diagnostics := #[] } := by
    simp [ParserState.noting]
  obtain ⟨s', hrun, hupcoming, hsymbols, hclean⟩ :=
    hgives s.symbols { s with diagnostics := #[] } ⟨hs, rfl, rfl⟩
  have hnoted := (inferInstance : Heedless expression).run s.diagnostics
    { s with diagnostics := #[] }
  rw [← hstart, hrun, hnode] at hnoted
  refine ⟨s'.noting s.diagnostics, hnoted, hupcoming, ?_, hsymbols.trans (henters s.symbols)⟩
  have hnone : s'.diagnostics = #[] := hclean
  simp [ParserState.noting, hnone]

/-- A relation of a negated product and a negation. Behind it stands another relation, which
cannot go on with it. -/
def relationTree : ExprTree :=
  .binary .lessEqual
    (.negate (.binary .times (.var ⟨0⟩) (.binary .minus (.var ⟨1⟩) (.constant (.integer 2)))))
    (.not (.binary .or (.var ⟨0⟩) (.constant (.string "it"))))

def beforeRelation : ParserState :=
  .start (tokensOf "- Alpha * (b - 2) <= NOT (alpha OR \x27it\x27) < 1") {}

theorem relationTree_is_read_back :
    List.Forall₂ (Glyph.ShownBy (beforeRelation.symbols.enterAll (beforeRelation.upcoming.take 15)))
      (relationTree.written .expression) (beforeRelation.upcoming.take 15) ∧
    (∃ t rest, beforeRelation.upcoming = beforeRelation.upcoming.take 15 ++ t :: rest ∧
      t.kind = .lessThan) ∧
    relationTree.goesOnWith .lessThan = false ∧
    ∃ s', expression beforeRelation = .ok relationTree.node s' ∧ s'.kind = .lessThan ∧
      s'.diagnostics = #[] := by
  have hshown : List.Forall₂
      (Glyph.ShownBy (beforeRelation.symbols.enterAll (beforeRelation.upcoming.take 15)))
      (relationTree.written .expression) (beforeRelation.upcoming.take 15) := by decide +kernel
  have hnext : ∃ t ∈ (beforeRelation.upcoming.drop 15).head?, t.kind = .lessThan := by
    decide +kernel
  obtain ⟨t, ht, hkind⟩ := hnext
  obtain ⟨rest, hrest⟩ := List.head?_eq_some_iff.mp ht
  have hrow : beforeRelation.upcoming = beforeRelation.upcoming.take 15 ++ t :: rest := by
    rw [← hrest, List.take_append_drop]
  have hstop : relationTree.goesOnWith .lessThan = false := by decide
  obtain ⟨s', hrun, hupcoming, hnoted, -⟩ :=
    written_expression_is_read_back hrow hshown (hkind ▸ hstop)
  refine ⟨hshown, ⟨t, rest, hrow, hkind⟩, hstop, s', hrun, ?_, hnoted⟩
  rw [ParserState.kind_eq_ahead, hupcoming, kindAhead_cons, hkind]

end Parser

end PascalFront
