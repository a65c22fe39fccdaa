-- Parsing keeps the meaning of a program: the tree of a text without faults does
-- what its source says, on every machine and under every interpretation.
import PascalFront.Proofs.GrammarExact
import PascalFront.Proofs.Words

namespace PascalFront

/-! ## The names of a derivation -/

/-- Every identifier among some tokens is a visible name. -/
def NamesVisible (ts : List Token) : Prop := ∀ t ∈ ts, t.kind = .identifier → t.asName.Visible

section

variable {t : Token} {ts mid rest : List Token}

theorem NamesVisible.head (h : NamesVisible (t :: ts)) (ht : t.kind = .identifier) :
    t.asName.Visible := h t List.mem_cons_self ht

theorem NamesVisible.tail (h : NamesVisible (t :: ts)) : NamesVisible ts :=
  fun u hu => h u (List.mem_cons_of_mem t hu)

theorem phrase_visible {layer : Layer} {e : Expr} (hp : Phrase layer ts e rest)
    (h : NamesVisible ts) : e.Visible ∧ NamesVisible rest := by
  induction hp with
  | name ht => exact ⟨h.head ht, h.tail⟩
  | literal _ => exact ⟨trivial, h.tail⟩
  | not _ _ ih => exact ih h.tail
  | parens _ _ _ ih =>
    obtain ⟨he, hrest⟩ := ih h.tail
    exact ⟨he, hrest.tail⟩
  | factor _ ih | term _ ih | simple _ ih => exact ih h
  | plus _ _ ih | minus _ _ ih => exact ih h.tail
  | product _ _ _ _ ihl ihr | sum _ _ _ _ ihl ihr | relation _ _ _ _ ihl ihr =>
    obtain ⟨hl, hmid⟩ := ihl h
    obtain ⟨hr, hrest⟩ := ihr hmid.tail
    exact ⟨⟨hl, hr⟩, hrest⟩

theorem arguments_visible {es : List Expr} (ha : Arguments ts es rest) (h : NamesVisible ts) :
    (∀ e ∈ es, e.Visible) ∧ NamesVisible rest := by
  induction ha with
  | last he =>
    obtain ⟨hv, hrest⟩ := phrase_visible he h
    exact ⟨List.forall_mem_singleton.mpr hv, hrest⟩
  | more he _ _ ih =>
    obtain ⟨hv, hmid⟩ := phrase_visible he h
    obtain ⟨hvs, hrest⟩ := ih hmid.tail
    exact ⟨List.forall_mem_cons.mpr ⟨hv, hvs⟩, hrest⟩

theorem assignment_visible {target : Name} {value : Expr} (ha : Assignment ts target value rest)
    (h : NamesVisible ts) : (target.Visible ∧ value.Visible) ∧ NamesVisible rest := by
  obtain ⟨ht, -, he⟩ := ha
  obtain ⟨hv, hrest⟩ := phrase_visible he h.tail.tail
  exact ⟨⟨h.head ht, hv⟩, hrest⟩

theorem optionalSemicolon_visible (ho : OptionalSemicolon ts rest) (h : NamesVisible ts) :
    NamesVisible rest := by
  cases ho with
  | absent => exact h
  | present => exact h.tail

end

mutual
theorem statement_visible {ts rest : List Token} {x : Stmt} :
    Statement ts x rest → NamesVisible ts → x.Visible ∧ NamesVisible rest
  | .empty, h => ⟨trivial, h⟩
  | .block _ hxs _, h =>
    have ⟨hvs, hrest⟩ := statements_visible hxs h.tail
    ⟨hvs, hrest.tail⟩
  | .assign ha, h => assignment_visible ha h
  | .call ht, h => ⟨⟨h.head ht, nofun⟩, h.tail⟩
  | .callEmpty ht _ _, h => ⟨⟨h.head ht, fun es hes => by cases hes; simp⟩, h.tail.tail.tail⟩
  | .callWith ht _ ha _, h =>
    have ⟨hvs, hrest⟩ := arguments_visible ha h.tail.tail
    ⟨⟨h.head ht, fun es hes => by cases hes; exact hvs⟩, hrest.tail⟩
  | .ifThen _ he _ hx _, h =>
    have ⟨hc, hmid⟩ := phrase_visible he h.tail
    have ⟨hv, hrest⟩ := statement_visible hx hmid.tail
    ⟨⟨hc, hv⟩, hrest⟩
  | .ifElse _ he _ hx _ hy, h =>
    have ⟨hc, hmid⟩ := phrase_visible he h.tail
    have ⟨hv, hmid'⟩ := statement_visible hx hmid.tail
    have ⟨hw, hrest⟩ := statement_visible hy hmid'.tail
    ⟨⟨hc, hv, hw⟩, hrest⟩
  | .whileDo _ he _ hx, h =>
    have ⟨hc, hmid⟩ := phrase_visible he h.tail
    have ⟨hv, hrest⟩ := statement_visible hx hmid.tail
    ⟨⟨hc, hv⟩, hrest⟩
  | .repeatUntil _ hxs _ he, h =>
    have ⟨hvs, hmid⟩ := statements_visible hxs h.tail
    have ⟨hc, hrest⟩ := phrase_visible he hmid.tail
    ⟨⟨hvs, hc⟩, hrest⟩
  | .loop _ _ hfirst hskip _ hcond hskip' hnext _ _ hx, h =>
    have ⟨hf, h₁⟩ := assignment_visible hfirst h.tail.tail
    have ⟨hc, h₂⟩ := phrase_visible hcond (optionalSemicolon_visible hskip h₁)
    have ⟨hn, h₃⟩ := assignment_visible hnext (optionalSemicolon_visible hskip' h₂)
    have ⟨hv, hrest⟩ := statement_visible hx h₃.tail.tail
    ⟨⟨hf, hc, hn, hv⟩, hrest⟩
  | .when _ he _ hx hskip _ hy hskip' _ hz, h =>
    have ⟨hc, h₁⟩ := phrase_visible he h.tail
    have ⟨hv, h₂⟩ := statement_visible hx h₁.tail
    have ⟨hw, h₃⟩ := statement_visible hy (optionalSemicolon_visible hskip h₂).tail
    have ⟨hu, hrest⟩ := statement_visible hz (optionalSemicolon_visible hskip' h₃).tail
    ⟨⟨hc, hv, hw, hu⟩, hrest⟩

theorem statements_visible {ts rest : List Token} {xs : List Stmt} :
    Statements ts xs rest → NamesVisible ts → Stmt.AllVisible xs ∧ NamesVisible rest
  | .last hx, h =>
    have ⟨hv, hrest⟩ := statement_visible hx h
    ⟨⟨hv, trivial⟩, hrest⟩
  | .more hx _ hxs, h =>
    have ⟨hv, hmid⟩ := statement_visible hx h
    have ⟨hvs, hrest⟩ := statements_visible hxs hmid.tail
    ⟨⟨hv, hvs⟩, hrest⟩
end

theorem program_visible {ts : List Token} {p : Source} (hp : IsProgram ts p)
    (h : NamesVisible ts) : Stmt.AllVisible p.body := by
  cases hp with
  | block _ hxs _ _ _ => exact (statements_visible hxs h.tail).1
  | bare _ hxs _ => exact (statements_visible hxs h).1

/-! ## From a text to its derivation -/

/-- Tokens that do not count for the grammar are not seen at all. -/
theorem start_filter (ts : List Token) (symbols : SymbolTable) :
    ParserState.start (ts.filter Cursor.isGrammatical) symbols = .start ts symbols := by
  simp only [ParserState.start, Cursor.ofTokens, List.filter_filter, Bool.and_self]

/-- A text that is parsed without a fault has a derivation, and its tree and names are those of the
lowering of every derivation. -/
theorem parse_of_clean {settings : Settings} {source : String}
    (h : (parseProgram settings source).isClean = true) :
    (∃ p, IsProgram ((tokensOf source).filter Cursor.isGrammatical) p) ∧
      ∀ p, IsProgram ((tokensOf source).filter Cursor.isGrammatical) p →
        (parseProgram settings source).tree = .ok (p.lower settings {}).1 ∧
          (parseProgram settings source).symbols = (p.lower settings {}).2 := by
  obtain ⟨hends, hkinds, -⟩ := grammaticalTokens_spec source
  have hshows := Parser.shows_start {} hends hkinds
  rw [start_filter] at hshows
  have hrun : parseProgram settings source =
      ⟨((Parser.program settings).runFrom (.start (tokensOf source) {})).1,
        lexicalDiagnostics (tokensOf source) ++
          ((Parser.program settings).runFrom (.start (tokensOf source) {})).2.diagnostics.toList,
        ((Parser.program settings).runFrom (.start (tokensOf source) {})).2.symbols⟩ := rfl
  constructor
  · rw [hrun] at h
    unfold Parser.runFrom at h
    rcases hr : Parser.program settings (.start (tokensOf source) {}) with ⟨tree, s'⟩ | ⟨e, s'⟩
    · rw [hr] at h
      simp only [Outcome.isClean, Bool.and_eq_true, List.isEmpty_iff, List.append_eq_nil_iff] at h
      have hclean : s'.Clean := Array.toList_eq_nil_iff.mp h.2.2
      have hp := Parser.program_passes settings (by rwa [hshows.upcoming]) ⟨hr, hclean⟩
      rwa [hshows.upcoming] at hp
    · rw [hr] at h
      cases h
  · intro p hp
    obtain ⟨rest, hgives⟩ := Parser.program_gives settings hp {}
    obtain ⟨s', hr, hs'⟩ := hgives _ hshows
    rw [hrun]
    unfold Parser.runFrom
    rw [hr]
    exact ⟨rfl, hs'.symbols⟩

/-! ## The law -/

/-- A text without faults has a derivation. For each of its derivations no name of the program is
that of a hidden variable, and under every interpretation and from every machine the source and the
tree run through the same events and leave the same values in all variables that are not hidden. -/
theorem parsing_keeps_meaning (source : String)
    (h : (parseProgram {} source).isClean = true) :
    ∃ tree, (parseProgram {} source).tree = .ok tree ∧
      (∃ p, IsProgram ((tokensOf source).filter Cursor.isGrammatical) p) ∧
      ∀ p, IsProgram ((tokensOf source).filter Cursor.isGrammatical) p →
        Stmt.AllVisible p.body ∧
          ∀ (I : Interpretation) (m : Machine),
            (p.run I m).2.Alike (tree.run I (parseProgram {} source).symbols m).2 := by
  obtain ⟨⟨p₀, hp₀⟩, hparse⟩ := parse_of_clean h
  refine ⟨_, (hparse p₀ hp₀).1, ⟨p₀, hp₀⟩, fun p hp => ?_⟩
  have hvisible := program_visible hp (grammaticalTokens_spec source).2.2
  refine ⟨hvisible, fun I m => ?_⟩
  obtain ⟨htree, hsymbols⟩ := hparse p hp
  have hsame : (p.lower {} {}).1 = (p₀.lower {} {}).1 :=
    Except.ok.inj (htree.symm.trans (hparse p₀ hp₀).1)
  rw [← hsame, hsymbols]
  exact (allPreserved I _ p.body hvisible {} (List.prefix_refl _) m m ⟨rfl, rfl, fun _ _ => rfl⟩).2

/-- The integers as Pascal has them, with zero for false. -/
def plainInterpretation : Interpretation where
  truth a := a != 0
  not a := if a = 0 then 1 else 0
  negate a := -a
  binary op a b :=
    let ofBool (b : Bool) : Int := if b then 1 else 0
    match op with
    | .equal => ofBool (a == b)
    | .notEqual => ofBool (a != b)
    | .less => ofBool (a < b)
    | .lessEqual => ofBool (a ≤ b)
    | .greater => ofBool (b < a)
    | .greaterEqual => ofBool (b ≤ a)
    | .plus => a + b
    | .minus => a - b
    | .or => ofBool (a != 0 || b != 0)
    | .times => a * b
    | .slash | .div => a.tdiv b
    | .mod => a.tmod b
    | .and => ofBool (a != 0 && b != 0)
  constant
    | .integer n => n
    | _ => 0
  truth_not a := by by_cases h : a = 0 <;> simp [h]
  constant_zero := rfl
  truth_less_zero a := by by_cases h : a < 0 <;> simp [h]
  truth_equal_zero a := by by_cases h : a = 0 <;> simp [h]

/-- Two WHEN statements on one line, which share their hidden variable. -/
def nestedSource : String :=
  "WHEN A LESSTHAN0 F EQUAL0 WHEN B LESSTHAN0 F(1) EQUAL0 G GREATERTHAN0 A := 0 GREATERTHAN0 F"

theorem nested_source_keeps_meaning :
    ∃ tree p, (parseProgram {} nestedSource).tree = .ok tree ∧
      IsProgram ((tokensOf nestedSource).filter Cursor.isGrammatical) p ∧
      ∀ m, (p.run plainInterpretation m).2.Alike
        (tree.run plainInterpretation (parseProgram {} nestedSource).symbols m).2 := by
  obtain ⟨tree, htree, ⟨p, hp⟩, hall⟩ := parsing_keeps_meaning nestedSource (by decide +kernel)
  exact ⟨tree, p, htree, hp, fun m => (hall p hp).2 plainInterpretation m⟩

end PascalFront
