-- Trees beside trees. One run has stray tokens in a list that another run has
-- not. What each parser does around that list is the same, and it builds the
-- same tree around the node of the list.
import PascalFront.Proofs.ListPlaces

namespace PascalFront.Parser

open ParserState ResumePoints

/-! ## Stray tokens -/

/-- A token that starts no statement and does not close the list it is in. -/
structure IsStray (closer : TokenKind) (t : Token) : Prop where
  counts : Cursor.isGrammatical t = true
  starts : statementStart.contains t.kind = false
  closes : t.kind ≠ closer
  ends : t.kind ≠ .endOfFile

/-- The empty statement in front of a token. -/
def emptyAt (t : Token) : Node := .statement .noOp t.position.line []

/-- The diagnostics of tokens that do not belong where they are. -/
def unexpected (ts : List Token) : Array Diagnostic :=
  (ts.map fun t => Diagnostic.atToken t .unexpectedToken).toArray

/-- Stray tokens for a list, not more than a parse puts up with. -/
structure Insertion (settings : Settings) (closer : TokenKind) where
  strays : List Token
  isStray : ∀ t ∈ strays, IsStray closer t
  limit : strays.length ≤ settings.maxErrors

namespace Insertion

variable {settings : Settings} {closer : TokenKind} (i : Insertion settings closer)

/-- In front of the stray tokens, which one run has ahead and the other one has not. -/
def inFront (tail : List Token) : Detour settings := ⟨#[], tail, i.strays ++ tail, Nat.zero_le _⟩

/-- Behind the stray tokens, which one run has noted. -/
def behind : Detour settings :=
  ⟨unexpected i.strays, [], [], by simpa [unexpected] using i.limit⟩

end Insertion

/-! ## The tree around the list -/

section

variable {settings : Settings} {d : Detour settings}

/-- What is read behind a node, and the tree that is built around the node. -/
class Carries (d : Detour settings) (place : List Nat) (f : Node → Parser Node) : Prop where
  stepwise : ∀ n, Stepwise (f n) := by infer_instance
  run : ∀ {s s' u : ParserState} {n tree m : Node} {nodes new children : List Node}
    {path : List Nat}, Beside d s u → Node.Gains nodes new m path n.children children →
    f n s = .ok tree s' → s'.Clean → d.tail.length ≤ s'.left →
    ∃ children' u', f { n with children } u = .ok { tree with children := children' } u' ∧
      Beside d s' u' ∧ Node.Gains nodes new m (place ++ path) tree.children children'

theorem carries_pure {place : List Nat} {build : Node → Node} (h : Node.Seats place build) :
    Carries d place fun n => pure (build n) where
  run hsu hgains hr _ _ := by
    cases hr
    obtain ⟨children', heq, hgains'⟩ := h _ _ _ _ _ _ hgains
    exact ⟨children', _, congrArg (EStateM.Result.ok · _) heq, hsu, hgains'⟩

instance {place : List Nat} {q : Parser α} {f : α → Node → Parser Node} [hq : Follows d q]
    [hf : ∀ a, Carries d place (f a)] : Carries d place fun n => q >>= fun a => f a n where
  stepwise n := by
    have := hq.stepwise
    have (a : α) := (hf a).stepwise n
    infer_instance
  run {s s' u n tree m nodes new children path} hsu hgains hr hclean hleft := by
    obtain ⟨a, s₁, ha, hb⟩ := bind_eq_ok.mp hr
    have := (hf a).stepwise n
    have hlater := Stepwise.ok hb
    obtain ⟨u₁, ha', h₁⟩ := hq.run hsu ha (hlater.before.clean hclean)
      (Nat.le_trans hleft hlater.before.left_le)
    obtain ⟨children', u', hb', h'⟩ := (hf a).run h₁ hgains hb hclean hleft
    exact ⟨children', u', bind_eq_ok.mpr ⟨a, u₁, ha', hb'⟩, h'⟩

instance {place : List Nat} {q : Parser α} {f : Node → Parser Node} [Follows d q]
    [Carries d place f] : Carries d place fun n => q >>= fun _ => f n :=
  inferInstance

instance {place : List Nat} {c : Prop} [Decidable c] {f g : Node → Parser Node}
    [Carries d place f] [Carries d place g] :
    Carries d place fun n => if c then f n else g n := by
  split <;> assumption

end

/-! ## The way to the list -/

variable {settings : Settings} {closer : TokenKind} (i : Insertion settings closer)

/-- Two rows of trees, where one has the nodes of the stray tokens in some place, in front of the
statement that is read in `v`. -/
def Grown (nodes : List Node) (v : ParserState) (path : List Nat) (ns ns' : List Node) : Prop :=
  ∃ m v', statement settings v = .ok m v' ∧
    Node.Gains nodes (i.strays.map emptyAt) m path ns ns'

/-- A parser that gives a tree with the nodes of the stray tokens beside a run without them. -/
def Detours (nodes : List Node) (v : ParserState) (path : List Nat) (p : Parser Node)
    (s u : ParserState) : Prop :=
  ∀ n s', p s = .ok n s' → s'.Clean →
    ∃ children u', p u = .ok { n with children } u' ∧ Beside i.behind s' u' ∧
      Grown i nodes v path n.children children

/-- The same for a list of nodes. -/
def DetoursList (nodes : List Node) (v : ParserState) (path : List Nat) (p : Parser (List Node))
    (s u : ParserState) : Prop :=
  ∀ ns s', p s = .ok ns s' → s'.Clean →
    ∃ ns' u', p u = .ok ns' u' ∧ Beside i.behind s' u' ∧ Grown i nodes v path ns ns'

/-- Where a header says that a statement is there, the parser reads it and puts it in its place. -/
class Threads (header : Parser Bool) (place : List Nat) (p : Parser Node) : Prop where
  stepwise : Stepwise header := by infer_instance
  run : ∀ {tail : List Token} {s s₁ u v : ParserState} {nodes : List Node} {path : List Nat},
    Beside (i.inFront tail) s u → header s = .ok true s₁ → s₁.Clean →
    tail.length ≤ s₁.left →
    (∀ u₁, Beside (i.inFront tail) s₁ u₁ → Detours i nodes v path (statement settings) s₁ u₁) →
    Detours i nodes v (place ++ path) p s u

section

variable {i} {header : Parser Bool} {place : List Nat}

instance {q : Parser α} {g : α → Parser Bool} {f : α → Parser Node}
    [hq : ∀ tail, Follows (i.inFront tail) q] [hf : ∀ a, Threads i (g a) place (f a)] :
    Threads i (q >>= g) place (q >>= f) where
  stepwise := by
    have := (hq []).stepwise
    have (a : α) := (hf a).stepwise
    infer_instance
  run {tail s s₁ u v nodes path} hsu hheader hclean hleft hstatement := by
    intro n s' hr hclean'
    obtain ⟨a, s₂, ha, hga⟩ := bind_eq_ok.mp hheader
    have := (hf a).stepwise
    have hlater := Stepwise.ok hga
    obtain ⟨u₂, ha', h₂⟩ := (hq tail).run hsu ha (hlater.before.clean hclean)
      (Nat.le_trans hleft hlater.before.left_le)
    rw [bind_of_ok ha] at hr
    rw [bind_of_ok ha']
    exact (hf a).run h₂ hga hclean hleft hstatement n s' hr hclean'

instance {q : Parser α} {g : Parser Bool} {f : Parser Node}
    [∀ tail, Follows (i.inFront tail) q] [Threads i g place f] :
    Threads i (q >>= fun _ => g) place (q >>= fun _ => f) :=
  inferInstance

/-- The statement is next. -/
theorem Detours.bind {nodes : List Node} {s u v : ParserState} {path : List Nat}
    {p : Parser Node} {f : Node → Parser Node} [hf : Carries i.behind place f]
    (h : Detours i nodes v path p s u) : Detours i nodes v (place ++ path) (p >>= f) s u := by
  intro n s' hr hclean
  obtain ⟨x, s₁, hx, hfx⟩ := bind_eq_ok.mp hr
  have := hf.stepwise x
  obtain ⟨children, u₁, hx', h₁, m, v', hm, hgains⟩ :=
    h x s₁ hx ((Stepwise.ok hfx).before.clean hclean)
  obtain ⟨children', u', hfx', h', hgains'⟩ := hf.run h₁ hgains hfx hclean (Nat.zero_le _)
  exact ⟨children', u', bind_eq_ok.mpr ⟨_, u₁, hx', hfx'⟩, h', m, v', hm, hgains'⟩

instance {f : Node → Parser Node} [Carries i.behind place f] :
    Threads i (pure true) place (statement settings >>= f) where
  run hsu hheader _ _ hstatement := by
    cases hheader
    exact (hstatement _ hsu).bind

instance {k : TokenKind} {f : Node → Parser Node} {q : Parser Node} [Carries i.behind place f] :
    Threads i (accept k) place
      (accept k >>= fun there => if there then statement settings >>= f else q) where
  run {tail s s₁ u v nodes path} hsu hheader hclean hleft hstatement := by
    intro n s' hr hclean'
    obtain ⟨u₁, hheader', h₁⟩ :=
      (inferInstance : Follows (i.inFront tail) (accept k)).run hsu hheader hclean hleft
    rw [bind_of_ok hheader] at hr
    rw [bind_of_ok hheader']
    exact (hstatement u₁ h₁).bind n s' hr hclean'

/-- A look at the line takes nothing. -/
instance (priority := low) {f : Nat → Parser Node} [h : ∀ l, Threads i header place (f l)] :
    Threads i header place (line >>= f) where
  stepwise := (h 0).stepwise
  run {tail s s₁ u v nodes path} hsu hheader hclean hleft hstatement := by
    intro n s' hr hclean'
    rw [line_bind] at hr ⊢
    rw [hsu.line]
    exact (h s.line).run hsu hheader hclean hleft hstatement n s' hr hclean'

theorem threads_ifStatement (h : (header, place) ∈ parts settings .kwIf) :
    Threads i header place (ifStatement (statement settings)) := by
  have hshort (line : Nat) (condition : Node) : Carries i.behind [1] fun yes =>
      pure (.statement .branch line [condition, yes]) :=
    carries_pure (Node.seats_statement .branch line [condition] [])
  have hlong (line : Nat) (condition no : Node) : Carries i.behind [1] fun yes =>
      pure (.statement .branch line [condition, yes, no]) :=
    carries_pure (Node.seats_statement .branch line [condition] [no])
  have helse (line : Nat) (condition yes : Node) : Carries i.behind [2] fun no =>
      pure (.statement .branch line [condition, yes, no]) :=
    carries_pure (Node.seats_statement .branch line [condition, yes] [])
  simp only [parts, List.mem_cons, List.not_mem_nil, or_false, Prod.mk.injEq] at h
  unfold ifStatement
  rcases h with ⟨rfl, rfl⟩ | ⟨rfl, rfl⟩
  · unfold thenHeader
    infer_instance
  · unfold elseHeader thenHeader
    simp only [bind_assoc, pure_bind]
    infer_instance

theorem threads_whileStatement (h : (header, place) ∈ parts settings .kwWhile) :
    Threads i header place (whileStatement (statement settings)) := by
  have hbody (line : Nat) (test : Node) : Carries i.behind [1] fun body =>
      pure (.statement .loop line [test, body]) :=
    carries_pure (Node.seats_statement .loop line [test] [])
  simp only [parts, List.mem_cons, List.not_mem_nil, or_false, Prod.mk.injEq] at h
  obtain ⟨rfl, rfl⟩ := h
  unfold whileHeader whileStatement
  infer_instance

theorem threads_loopStatement (h : (header, place) ∈ parts settings .kwLoop) :
    Threads i header place (loopStatement (statement settings)) := by
  have hbody (line : Nat) (initial test update : Node) : Carries i.behind [1, 1] fun body =>
      pure (.statement .compound line [initial, .statement .loop line [test, body, update]]) :=
    carries_pure ((Node.seats_statement .compound line [initial] []).comp
      (Node.seats_statement .loop line [test] [update]))
  simp only [parts, List.mem_cons, List.not_mem_nil, or_false, Prod.mk.injEq] at h
  obtain ⟨rfl, rfl⟩ := h
  unfold countingHeader loopStatement
  infer_instance

theorem threads_whenStatement (h : (header, place) ∈ parts settings .kwWhen) :
    Threads i header place (whenStatement settings (statement settings)) := by
  have hcompound (line : Nat) (first : Node) := Node.seats_statement .compound line [first] []
  have hnegative (line : Nat) (first test rest : Node) : Carries i.behind [1, 1] fun negative =>
      pure (.statement .compound line [first, .statement .branch line [test, negative, rest]]) :=
    carries_pure ((hcompound line first).comp (Node.seats_statement .branch line [test] [rest]))
  have hzero (line zeroLine : Nat) (first test negative again positive : Node) :
      Carries i.behind [1, 2, 1] fun zero => pure (.statement .compound line
        [first, .statement .branch line
          [test, negative, .statement .branch zeroLine [again, zero, positive]]]) :=
    carries_pure ((hcompound line first).comp ((Node.seats_statement .branch line
      [test, negative] []).comp (Node.seats_statement .branch zeroLine [again] [positive])))
  have hpositive (line zeroLine : Nat) (first test negative again zero : Node) :
      Carries i.behind [1, 2, 2] fun positive => pure (.statement .compound line
        [first, .statement .branch line
          [test, negative, .statement .branch zeroLine [again, zero, positive]]]) :=
    carries_pure ((hcompound line first).comp ((Node.seats_statement .branch line
      [test, negative] []).comp (Node.seats_statement .branch zeroLine [again, zero] [])))
  simp only [parts, List.mem_cons, List.not_mem_nil, or_false, Prod.mk.injEq] at h
  unfold whenStatement
  rcases h with ⟨rfl, rfl⟩ | ⟨rfl, rfl⟩ | ⟨rfl, rfl⟩
  · unfold negativeHeader
    infer_instance
  · unfold zeroHeader negativeHeader
    simp only [bind_assoc, pure_bind]
    infer_instance
  · unfold positiveHeader zeroHeader negativeHeader
    simp only [bind_assoc, pure_bind]
    infer_instance

theorem threads_of_mem_parts {k : TokenKind} {header : Parser Bool} {place : List Nat}
    (h : (header, place) ∈ parts settings k) :
    ∃ p, Threads i header place p ∧ ∀ s, s.kind = k → statement settings s = p s := by
  have hread {p : Parser Node} (hlevel : ∀ s, s.kind = k →
      statementLevel settings (statement settings) s = p s) (s : ParserState) (hk : s.kind = k) :
      statement settings s = p s := by
    rw [statement_level]
    exact hlevel s hk
  unfold statementLevel at hread
  simp only [kind_bind] at hread
  cases k
  case kwIf => exact ⟨_, threads_ifStatement h, hread fun s hk => by rw [hk]⟩
  case kwWhile => exact ⟨_, threads_whileStatement h, hread fun s hk => by rw [hk]⟩
  case kwLoop => exact ⟨_, threads_loopStatement h, hread fun s hk => by rw [hk]⟩
  case kwWhen => exact ⟨_, threads_whenStatement h, hread fun s hk => by rw [hk]⟩
  all_goals cases h

end

section

variable {i} {nodes : List Node} {s u v : ParserState} {path : List Nat}

/-- A tree with the nodes of the list, and what is read behind the list. -/
theorem DetoursList.bind {p q : Parser (List Node)} [hq : Follows i.behind q]
    (h : DetoursList i nodes v path p s u) (kind : NodeKind) (line : Nat) :
    Detours i nodes v path (do return .statement kind line ((← p) ++ (← q))) s u := by
  intro n s' hr hclean
  obtain ⟨ns, s₁, hns, hr⟩ := bind_eq_ok.mp hr
  obtain ⟨more, s₂, hmore, hn⟩ := bind_eq_ok.mp hr
  cases hn
  have := hq.stepwise
  obtain ⟨ns', u₁, hns', h₁, m, v', hm, hgains⟩ :=
    h ns s₁ hns ((Stepwise.ok hmore).before.clean hclean)
  obtain ⟨u', hmore', h'⟩ := hq.run h₁ hmore hclean (Nat.zero_le _)
  refine ⟨ns' ++ more, u', ?_, h', m, v', hm, hgains.append more⟩
  rw [bind_of_ok hns', bind_of_ok hmore']
  rfl

theorem Detours.of_eq {p q : Parser Node} {s₁ u₁ : ParserState} (hs : p s = q s₁)
    (hu : p u = q u₁) (h : Detours i nodes v path q s₁ u₁) : Detours i nodes v path p s u := by
  intro n s' hr
  rw [hs] at hr
  rw [hu]
  exact h n s' hr

end

end PascalFront.Parser
