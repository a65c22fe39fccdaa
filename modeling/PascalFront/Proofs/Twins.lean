-- Two runs on the same tokens, under settings that differ in what the hidden
-- variables are called. They pass the same tokens and end alike, so the second
-- run tells which names of the first one are those of hidden variables. What
-- the first run passes of any other name it counts in its result.
import PascalFront.Proofs.Identifiers
import PascalFront.Proofs.Preservation
import PascalFront.Proofs.Uses

namespace PascalFront

namespace ParserState

/-! ## Two runs on the same tokens -/

theorem cursor_ext {c c' : Cursor} (ht : c.tokens = c'.tokens) (hp : c.position = c'.position) :
    c = c' := by
  obtain ⟨passed, ahead, stop, _⟩ := c
  obtain ⟨passed', ahead', stop', _⟩ := c'
  simp only [Cursor.tokens, List.append_assoc, Cursor.position] at ht hp
  obtain ⟨hpassed, hrest⟩ := List.append_inj ht (by simpa using hp)
  obtain ⟨hahead, hstop⟩ := List.append_inj' hrest rfl
  simp_all

/-- Two runs at the same place of the same tokens. -/
structure Twin (s u : ParserState) : Prop where
  together : Together s.cursor.tokens.length s u
  cursor : s.cursor = u.cursor

/-- A run is its own twin. -/
theorem Written.twin {notes : List (Nat × Cause)} {s : ParserState} (h : Written notes s) :
    Twin s s := by
  refine ⟨⟨rfl, ?_, fun i hi => ?_, notes, h, h⟩, rfl⟩
  · have := s.position_add_left
    omega
  · exact ⟨_, _, List.getElem?_eq_getElem hi, List.getElem?_eq_getElem hi, rfl⟩

theorem twin_start (ts : List Token) (symbols : SymbolTable) :
    Twin (start ts symbols) (start ts symbols) :=
  (written_start ts symbols).twin

section

variable {s u : ParserState}

theorem Twin.here (h : Twin s u) : u.here = s.here := by
  unfold ParserState.here
  rw [h.cursor]

theorem Twin.kind (h : Twin s u) : u.kind = s.kind := congrArg Token.kind h.here

theorem Twin.line (h : Twin s u) : u.line = s.line := congrArg (·.position.line) h.here

end

/-- How often a name is passed. -/
def mentions (s : ParserState) (name : String) : Nat :=
  s.identifiers.countP (caseFold ·.text == name)

end ParserState

namespace Parser

open ParserState ResumePoints

/-- Of two runs that began at the same place, one has a result when the other one has. -/
theorem Abreast.twin [Like α] {p q : Parser α} [hpq : Abreast p q] {s u s' : ParserState} {a : α}
    (h : Twin s u) (hr : p s = .ok a s') :
    ∃ b u', q u = .ok b u' ∧ Like.like a b ∧ Twin s' u' := by
  have hs := hpq.left
  have hu := hpq.right
  have hrun := hpq.run h.together
  have htokens := (Stepwise.ok hr).before.tokens_eq
  rw [hr] at hrun
  generalize hr' : q u = r' at hrun
  cases hrun with
  | ok hlike htogether =>
    have htokens' := (Stepwise.ok hr').before.tokens_eq
    refine ⟨_, _, rfl, hlike, by rwa [htokens], cursor_ext ?_ htogether.position⟩
    rw [htokens, htokens', h.cursor]
  | apart hapart =>
    have hleft : s.cursor.tokens.length ≤ s'.cursor.position := hapart.left
    have := s'.position_add_left
    rw [htokens] at this
    omega

/-! ## What two runs keep -/

/-- A name that is watched in a run under some settings, while a second run has other names for the
hidden variables. The table is the one at the end of the first run. -/
structure Watch where
  settings : Settings
  other : Settings
  table : SymbolTable
  name : String

namespace Watch

variable (v : Watch)

/-- Wherever a hidden variable of the first run has the watched name, the second run has none. -/
def Clear (u : ParserState) : Prop :=
  ∀ line, v.settings.whenName line = v.name → v.other.whenName line ∉ u.symbols.names

/-- From one pair of states on, what is counted in a result is what was counted before and the
mentions that are passed. -/
def Tally (w : α → Nat) (c : Nat) (p q : Parser α) (s u : ParserState) : Prop :=
  ∀ a s', p s = .ok a s' → v.Clear (stateBehind (q u)) → s'.symbols.names <+: v.table.names →
    w a + s.mentions v.name = c + s'.mentions v.name

/-- So it is wherever two runs are at the same place. -/
def Tallies (w : α → Nat) (c : Nat) (p q : Parser α) : Prop :=
  ∀ s u, Twin s u → v.Tally w c p q s u

/-- The uses of the watched name in a tree, in some trees, and at a number. -/
def uses (n : Node) : Nat := n.uses v.table v.name

@[inherit_doc uses]
def usesIn (ns : List Node) : Nat := Node.usesIn ns v.table v.name

@[inherit_doc uses]
def weight (id : SymbolId) : Nat := v.table.weight v.name id

variable {v} {s u : ParserState} {c : Nat}

theorem Clear.before {u' : ParserState} (h : v.Clear u') (hu : u.Before u') : v.Clear u :=
  fun line heq hmem => h line heq (hu.names.subset hmem)

section

variable {p q : Parser α} {w : α → Nat}

/-- What was counted before is not forgotten. -/
theorem Tallies.behind (hp : v.Tallies w 0 p q) (c : Nat) :
    v.Tallies (fun a => c + w a) c p q := by
  intro s u hsu a s' hr hclear hnames
  have := hp s u hsu a s' hr hclear hnames
  dsimp only
  omega

theorem tallies_pure {a b : α} (h : w a = c) : v.Tallies w c (pure a) (pure b) := by
  rintro s u - a s' ⟨rfl, rfl⟩ - -
  rw [h]

theorem tallies_quiet [hp : Quiet p] (c : Nat) : v.Tallies (fun _ => c) c p q := by
  intro s u _ a s' hr _ _
  have h := hp.identifiers s
  rw [hr] at h
  unfold ParserState.mentions
  rw [← h]
  rfl

theorem tallies_endedEarly : v.Tallies w c endedEarly endedEarly := by
  rintro s u - a s' ⟨⟩

theorem Tallies.ite {P : Prop} [Decidable P] {p' q' : Parser α} (h : v.Tallies w c p q)
    (h' : v.Tallies w c p' q') : v.Tallies w c (if P then p else p') (if P then q else q') := by
  split
  · exact h
  · exact h'

end

/-! ## One parser behind another -/

section

variable [Like α] {p q : Parser α} {f g : α → Parser β} {w : β → Nat} {w₁ : α → Nat}
  [∀ a, Stepwise (f a)] [∀ b, Stepwise (g b)]

theorem Tally.bind [Abreast p q] (hsu : Twin s u) (hp : v.Tally w₁ c p q s u)
    (hf : ∀ a b, Like.like a b → v.Tallies w (w₁ a) (f a) (g b)) :
    v.Tally w c (p >>= f) (q >>= g) s u := by
  intro r s' hr hclear hnames
  obtain ⟨a, s₁, ha, hr⟩ := bind_eq_ok.mp hr
  obtain ⟨b, u₁, hb, hlike, hsu₁⟩ := Abreast.twin (q := q) hsu ha
  have hq : (q >>= g) u = g b u₁ := by rw [bind_apply, hb]
  rw [hq] at hclear
  have hfirst := hp a s₁ ha (by rw [hb]; exact hclear.before (Stepwise.behind (g b) u₁).before)
    ((Stepwise.ok hr).before.names.trans hnames)
  have hthen := hf a b hlike s₁ u₁ hsu₁ r s' hr hclear hnames
  omega

theorem Tallies.bind [Abreast p q] (hp : v.Tallies w₁ c p q)
    (hf : ∀ a b, Like.like a b → v.Tallies w (w₁ a) (f a) (g b)) :
    v.Tallies w c (p >>= f) (q >>= g) :=
  fun s u hsu => .bind hsu (hp s u hsu) hf

/-- Behind a parser that passes no identifier. -/
theorem Tallies.after [Quiet p] [Abreast p q]
    (hf : ∀ a b, Like.like a b → v.Tallies w c (f a) (g b)) :
    v.Tallies w c (p >>= f) (q >>= g) :=
  .bind (tallies_quiet c) hf

end

section

variable {w : β → Nat}

/-- Behind a token that is there or not. -/
theorem Tallies.accept {k : TokenKind} [Nameless k] {f g : Bool → Parser β}
    [∀ b, Stepwise (f b)] [∀ b, Stepwise (g b)] (hyes : v.Tallies w c (f true) (g true))
    (hno : v.Tallies w c (f false) (g false)) :
    v.Tallies w c (Parser.accept k >>= f) (Parser.accept k >>= g) := by
  refine .after ?_
  rintro (_ | _) _ rfl
  · exact hno
  · exact hyes

theorem Tally.here {f g : Token → Parser β} (hsu : Twin s u)
    (h : v.Tally w c (f s.here) (g s.here) s u) :
    v.Tally w c (Parser.here >>= f) (Parser.here >>= g) s u := by
  unfold Tally
  rw [here_bind, here_bind, hsu.here]
  exact h

theorem Tally.kind {f g : TokenKind → Parser β} (hsu : Twin s u)
    (h : v.Tally w c (f s.kind) (g s.kind) s u) :
    v.Tally w c (Parser.kind >>= f) (Parser.kind >>= g) s u := by
  unfold Tally
  rw [kind_bind, kind_bind, hsu.kind]
  exact h

theorem Tally.nextKind {f g : TokenKind → Parser β} (hsu : Twin s u)
    (h : v.Tally w c (f s.cursor.second.kind) (g s.cursor.second.kind) s u) :
    v.Tally w c (Parser.nextKind >>= f) (Parser.nextKind >>= g) s u := by
  unfold Tally
  rw [nextKind_bind, nextKind_bind, ← hsu.cursor]
  exact h

theorem Tally.line {f g : Nat → Parser β} (hsu : Twin s u)
    (h : v.Tally w c (f s.line) (g s.line) s u) :
    v.Tally w c (Parser.line >>= f) (Parser.line >>= g) s u := by
  unfold Tally
  rw [line_bind, line_bind, hsu.line]
  exact h

/-- A token that is no identifier leaves the count as it is. -/
theorem Tally.advance {f g : Unit → Parser β} [∀ a, Stepwise (f a)] [∀ b, Stepwise (g b)]
    (hsu : Twin s u) (hk : s.kind ≠ .identifier) (h : v.Tallies w c (f ()) (g ())) :
    v.Tally w c (Parser.advance >>= f) (Parser.advance >>= g) s u := by
  have hpass : v.Tally (fun _ => c) c Parser.advance Parser.advance s u := by
    rintro a s' ⟨rfl, rfl⟩ - -
    unfold ParserState.mentions
    rw [identifiers_advance_of_ne hk]
  exact .bind hsu hpass fun _ _ _ => h

theorem mentions_advance (hk : s.kind = .identifier) (name : String) :
    s.advance.mentions name =
      s.mentions name + if caseFold s.here.text = name then 1 else 0 := by
  unfold ParserState.mentions
  rw [identifiers_advance hk, List.countP_append, List.countP_singleton]
  simp

/-- An identifier is counted at its number. -/
theorem Tally.takeName {f g : SymbolId → Parser β} [∀ id, Stepwise (f id)] [∀ id, Stepwise (g id)]
    (hsu : Twin s u) (hk : s.kind = .identifier)
    (h : ∀ id id', v.Tallies w (c + v.weight id) (f id) (g id')) :
    v.Tally w c (Parser.takeName >>= f) (Parser.takeName >>= g) s u := by
  have htake : v.Tally (fun id => c + v.weight id) c Parser.takeName Parser.takeName s u := by
    intro id s' hr _ hnames
    rw [takeName_eq] at hr
    cases hr
    have hname : v.table.nameOf (s.enter (caseFold s.here.text) s.line).1 =
        caseFold s.here.text :=
      nameOf_mentioned hnames
    have hpassed : (s.enter (caseFold s.here.text) s.line).2.advance.mentions v.name =
        s.mentions v.name + if caseFold s.here.text = v.name then 1 else 0 :=
      mentions_advance (s := (s.enter (caseFold s.here.text) s.line).2) hk v.name
    simp only [hpassed, weight, SymbolTable.weight, hname]
    omega
  exact .bind hsu htake fun id id' _ => h id id'

/-- A hidden variable does not have the watched name. -/
theorem Tally.hidden {f g : SymbolId → Parser β} [∀ id, Stepwise (f id)] [∀ id, Stepwise (g id)]
    {line : Nat} (hsu : Twin s u)
    (h : ∀ id id', v.weight id = 0 → v.Tallies w c (f id) (g id')) :
    v.Tally w c (enter (v.settings.whenName line) line >>= f)
      (enter (v.other.whenName line) line >>= g) s u := by
  intro r s' hr hclear hnames
  have hr' : f (s.enter (v.settings.whenName line) line).1
      (s.enter (v.settings.whenName line) line).2 = .ok r s' := hr
  have hname : v.table.nameOf (s.enter (v.settings.whenName line) line).1 =
      v.settings.whenName line :=
    nameOf_mentioned ((Stepwise.ok hr').before.names.trans hnames)
  have hother : v.settings.whenName line ≠ v.name := by
    intro heq
    refine hclear line heq ((Stepwise.behind (g _) _).before.names.subset ?_)
    exact List.mem_of_getElem? (u.symbols.enterAt_spec (v.other.whenName line) line).1
  have hweight : v.weight (s.enter (v.settings.whenName line) line).1 = 0 := by
    rw [weight, SymbolTable.weight, hname, if_neg hother]
  have hentered : Twin (s.enter (v.settings.whenName line) line).2
      (u.enter (v.other.whenName line) line).2 :=
    ⟨hsu.together.enter _ _ _ _, hsu.cursor⟩
  exact h _ _ hweight _ _ hentered r s' hr' hclear hnames

end

/-! ## Loops and recursion -/

theorem tallies_loop [Like β] [Loose β] {turn turn' : β → Parser (Option β)}
    [habreast : ∀ b b', Abreast (turn b) (turn' b')] {w : β → Nat}
    (hturn : ∀ b b', v.Tallies (fun o => w (o.getD b)) (w b) (turn b) (turn' b')) (b b' : β) :
    v.Tallies w (w b) (loop turn b) (loop turn' b') := by
  have hsteps (b : β) : Stepwise (turn b) := (habreast b b').left
  have hsteps' (b' : β) : Stepwise (turn' b') := (habreast b b').right
  have within (bound : List Token) : ∀ b b',
      v.Tallies w (w b) (loopWithin turn bound b) (loopWithin turn' bound b') := by
    induction bound with
    | nil =>
      intro b b'
      unfold loopWithin
      exact .bind (hturn b b') fun o o' _ => tallies_pure rfl
    | cons t bound ih =>
      intro b b'
      have := steps_loopWithin turn bound
      have := steps_loopWithin turn' bound
      have hcont := stepwise_option (pure b) (loopWithin turn bound)
      have hcont' := stepwise_option (pure b') (loopWithin turn' bound)
      unfold loopWithin
      refine .bind (hturn b b') ?_
      rintro (_ | b₁) (_ | b₁') hlike
      · exact tallies_pure rfl
      · exact hlike.elim
      · exact hlike.elim
      · exact ih b₁ b₁'
  intro s u hsu
  have hbound : u.cursor.ahead = s.cursor.ahead := by rw [hsu.cursor]
  unfold Tally loop
  rw [hbound]
  exact within s.cursor.ahead b b' s u hsu

/-- Two parsers that count alike, and what a level needs to know of the parsers in it. -/
structure Inner (v : Watch) (K : Parser Node → Prop) (p q : Parser Node) : Prop where
  left : Stepwise p
  right : Stepwise q
  kept : K p
  kept' : K q
  abreast : Abreast p q
  tallies : v.Tallies v.uses 0 p q

theorem tallies_nest {last last' : Parser Node} {level level' : Parser Node → Parser Node}
    [Stepwise last] [Stepwise last'] (hg : Guarded level) (hg' : Guarded level')
    {K : Parser Node → Prop} (hlast : K endedEarly)
    (h : ∀ p q, v.Inner K p q → v.Inner K (level p) (level' q))
    (hlevel : ∀ p, Stepwise p → Stepwise (level p))
    (hlevel' : ∀ p, Stepwise p → Stepwise (level' p)) :
    v.Tallies v.uses 0 (nest last level) (nest last' level') := by
  have within (bound : List Token) : v.Inner K (nestWithin endedEarly level bound)
      (nestWithin endedEarly level' bound) := by
    induction bound with
    | nil =>
      exact h _ _ ⟨inferInstance, inferInstance, hlast, hlast, inferInstance, tallies_endedEarly⟩
    | cons t bound ih => exact h _ _ ih
  intro s u hsu
  have hs : nest last level s = nestWithin endedEarly level s.cursor.ahead s :=
    nest_eq_nestWithin hg hlevel (Nat.le_refl _)
  have hu : nest last' level' u = nestWithin endedEarly level' s.cursor.ahead u :=
    nest_eq_nestWithin hg' hlevel' (by rw [hsu.cursor]; exact Nat.le_refl _)
  unfold Tally
  rw [hs, hu]
  exact (within s.cursor.ahead).tallies s u hsu

end Watch

end Parser

end PascalFront
