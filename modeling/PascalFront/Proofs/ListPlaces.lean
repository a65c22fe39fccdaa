-- Places in statement lists. A run that has come to some place in a list has read
-- the statements in front of that place, and the list has its node in the tree of
-- the whole. What changes from there on in the list changes that node alone.
import PascalFront.Proofs.NestedStatements
import PascalFront.Proofs.SideRuns

namespace PascalFront

/-! ## Trees with more nodes in one place -/

namespace Node

/-- Two rows of trees that are the same but for one node, which is found along the numbers of
`path`: its children are `nodes`, then `m` and others, and `new` come in front of `m`. -/
inductive Gains (nodes new : List Node) (m : Node) : List Nat → List Node → List Node → Prop
  | here (more : List Node) :
      Gains nodes new m [] (nodes ++ m :: more) (nodes ++ (new ++ m :: more))
  | inside (left right : List Node) {path : List Nat} {n : Node} {children : List Node} :
      Gains nodes new m path n.children children →
      Gains nodes new m (left.length :: path) (left ++ n :: right)
        (left ++ { n with children } :: right)

variable {nodes new : List Node} {m : Node} {path : List Nat}

theorem Gains.append {ns ns' : List Node} (more : List Node) (h : Gains nodes new m path ns ns') :
    Gains nodes new m path (ns ++ more) (ns' ++ more) := by
  cases h with
  | here rest => simpa using Gains.here (rest ++ more)
  | inside left right hn => simpa using Gains.inside left (right ++ more) hn

/-- Where a node comes to be in a tree that is built around it. -/
def Seats (place : List Nat) (build : Node → Node) : Prop :=
  ∀ (nodes new : List Node) (m : Node) (path : List Nat) (n : Node) (children : List Node),
    Gains nodes new m path n.children children →
    ∃ children', build { n with children } = { build n with children := children' } ∧
      Gains nodes new m (place ++ path) (build n).children children'

theorem seats_self : Seats [] fun n => n := fun _ _ _ _ _ children h => ⟨children, rfl, h⟩

/-- A child of a statement. -/
theorem seats_statement (kind : NodeKind) (line : Nat) (left right : List Node) :
    Seats [left.length] fun n => statement kind line (left ++ n :: right) :=
  fun _ _ _ _ _ _ h => ⟨_, rfl, .inside left right h⟩

theorem Seats.comp {place place' : List Nat} {build build' : Node → Node} (h : Seats place build)
    (h' : Seats place' build') : Seats (place ++ place') fun n => build (build' n) := by
  intro nodes new m path n children hn
  obtain ⟨children', heq', hgains'⟩ := h' _ _ _ _ _ _ hn
  obtain ⟨children'', heq, hgains⟩ := h _ _ _ _ _ _ hgains'
  refine ⟨children'', ?_, ?_⟩
  · show build (build' _) = _
    rw [heq', heq]
  · rwa [List.append_assoc]

end Node

namespace Parser

open ParserState ResumePoints

/-! ## Turns -/

section

variable {settings : Settings} {d : Detour settings} {inner : Parser Node} {closer : TokenKind}
  {s : ParserState}

theorem checkLimit_of_le (hcount : s.errorCount ≤ settings.maxErrors) :
    checkLimit settings s = .ok () s := by
  unfold checkLimit
  rw [if_neg (Nat.not_lt.mpr hcount)]

theorem behindItem_semicolon (hk : s.kind = .semicolon)
    (hcount : s.errorCount ≤ settings.maxErrors) :
    behindItem settings closer s = .ok () s.advance := by
  unfold behindItem
  rw [bind_of_ok (checkLimit_of_le hcount), accept_bind_of_kind hk]
  rfl

theorem listTurn_open (nodes : List Node) (h : s.kind ≠ closer ∧ s.kind ≠ .endOfFile) :
    listTurn settings inner closer nodes s = (do
      let node ← inner
      behindItem settings closer
      return some (nodes ++ [node])) s := by
  have hopen : ¬(s.kind = closer ∨ s.kind = .endOfFile) := not_or.mpr h
  rw [listTurn_eq, kind_bind, if_neg hopen]

/-- The nodes that a list starts with only stand in front of the others. -/
theorem listTurn_append (nodes more : List Node) :
    listTurn settings inner closer (nodes ++ more) = (do
      let o ← listTurn settings inner closer more
      return o.map (nodes ++ ·)) := by
  simp only [listTurn_eq, bind_assoc, ite_bind, pure_bind, List.append_assoc, Option.map]

theorem listLoop_append (nodes : List Node) :
    loop (listTurn settings inner closer) nodes = (do
      let more ← loop (listTurn settings inner closer) []
      return nodes ++ more) := by
  have within (bound : List Token) (more : List Node) :
      loopWithin (listTurn settings inner closer) bound (nodes ++ more) = (do
        let all ← loopWithin (listTurn settings inner closer) bound more
        return nodes ++ all) := by
    induction bound generalizing more with
    | nil =>
      simp only [loopWithin, listTurn_append, bind_assoc, pure_bind]
      congr 1
      funext o
      cases o <;> rfl
    | cons t bound ih =>
      simp only [loopWithin, listTurn_append, bind_assoc, pure_bind]
      congr 1
      funext o
      cases o with
      | none => rfl
      | some all => exact ih all
  funext s
  have h := congrFun (within s.cursor.ahead []) s
  rwa [List.append_nil] at h

/-- A list that has not come to its end reads a statement, and goes on behind it. -/
theorem listLoop_open (hi : IsStatementParser inner) (nodes : List Node)
    (h : s.kind ≠ closer ∧ s.kind ≠ .endOfFile) :
    loop (listTurn settings inner closer) nodes s = (do
      let node ← inner
      behindItem settings closer
      let more ← loop (listTurn settings inner closer) []
      return nodes ++ node :: more) s := by
  have hrest (node : Node) : loop (listTurn settings inner closer) (nodes ++ [node]) = (do
      let more ← loop (listTurn settings inner closer) []
      return nodes ++ [node] ++ more) := listLoop_append (nodes ++ [node])
  rw [loop_unrolls (listTurn_progressive settings hi closer), bind_apply, listTurn_open nodes h,
    ← bind_apply]
  simp only [bind_assoc, pure_bind, hrest, List.append_assoc, List.singleton_append]

end

/-! ## Lists -/

section

variable (settings : Settings)

/-- The turns of a statement list that take it from some nodes to some more. -/
inductive Turns (closer : TokenKind) (nodes : List Node) (s : ParserState) :
    List Node → ParserState → Prop
  | refl : Turns closer nodes s nodes s
  | turn {nodes₁ nodes' : List Node} {s₁ s' : ParserState} : Turns closer nodes s nodes₁ s₁ →
      listTurn settings (statement settings) closer nodes₁ s₁ = .ok (some nodes') s' →
      Turns closer nodes s nodes' s'

/-- The headers in a statement that starts with a token of this kind, and where the statement that
is read behind each of them comes to be in its tree. -/
def parts : TokenKind → List (Parser Bool × List Nat)
  | .kwIf => [(thenHeader, [1]), (elseHeader settings, [2])]
  | .kwWhile => [(whileHeader, [1])]
  | .kwLoop => [(countingHeader, [1, 1])]
  | .kwWhen => [(negativeHeader settings, [1, 1]), (zeroHeader settings, [1, 2, 1]),
      (positiveHeader settings, [1, 2, 2])]
  | _ => []

/-- A statement that is read in one state has a list in it that has read `nodes` in another state.
The node of the list is found along `path` in the tree of the statement. -/
inductive ListWithin (closer : TokenKind) (nodes : List Node) (v : ParserState) :
    List Nat → ParserState → Prop
  | own {s : ParserState} : closer? s.kind = some closer →
      Turns settings closer [] s.advance nodes v → ListWithin closer nodes v [] s
  | item {s s₁ : ParserState} {closer' : TokenKind} {items : List Node} {path : List Nat} :
      closer? s.kind = some closer' → Turns settings closer' [] s.advance items s₁ →
      ListWithin closer nodes v path s₁ → ListWithin closer nodes v (items.length :: path) s
  | part {s s₁ : ParserState} {header : Parser Bool} {place path : List Nat} :
      (header, place) ∈ parts settings s.kind → header s = .ok true s₁ →
      ListWithin closer nodes v path s₁ → ListWithin closer nodes v (place ++ path) s

/-- A program that is read from a state on has a list, its own or one in a statement, that has read
`nodes` in another state. -/
inductive ReachesList (closer : TokenKind) (nodes : List Node) (v : ParserState) :
    List Nat → ParserState → Prop
  | block {s : ParserState} {path : List Nat} : s.kind = .kwBegin →
      ListWithin settings closer nodes v path s → ReachesList closer nodes v path s
  | bare {s : ParserState} : s.kind ≠ .kwBegin → closer = .endOfFile →
      Turns settings .endOfFile [] s nodes v → ReachesList closer nodes v [] s
  | item {s s₁ : ParserState} {items : List Node} {path : List Nat} : s.kind ≠ .kwBegin →
      Turns settings .endOfFile [] s items s₁ → ListWithin settings closer nodes v path s₁ →
      ReachesList closer nodes v (items.length :: path) s

end

section

variable {settings : Settings} {closer : TokenKind} {nodes nodes₁ nodes' : List Node}
  {s s₁ s' v : ParserState} {path : List Nat}

theorem Turns.trans (h : Turns settings closer nodes s nodes₁ s₁)
    (h' : Turns settings closer nodes₁ s₁ nodes' s') : Turns settings closer nodes s nodes' s' := by
  induction h' with
  | refl => exact h
  | turn _ hturn ih => exact .turn ih hturn

theorem Turns.steps (h : Turns settings closer nodes s nodes' s') : s.Steps s' := by
  induction h with
  | refl => exact .refl s
  | turn _ hturn ih => exact ih.trans (Stepwise.ok hturn)

/-- Behind some turns, a loop goes on as if it started there. -/
theorem Turns.loop_eq (h : Turns settings closer nodes s nodes' s') :
    loop (listTurn settings (statement settings) closer) nodes s =
      loop (listTurn settings (statement settings) closer) nodes' s' := by
  have hunroll := loop_unrolls
    (listTurn_progressive settings (statement_isStatementParser settings) closer)
  induction h with
  | refl => rfl
  | turn _ hturn ih => rw [ih, hunroll, bind_apply, hturn]

theorem mem_headers_of_mem_parts {k : TokenKind} {header : Parser Bool} {place : List Nat}
    (h : (header, place) ∈ parts settings k) : header ∈ headers settings k := by
  cases k <;> simp only [parts, List.mem_cons, List.not_mem_nil, Prod.mk.injEq, or_false] at h
  case kwIf => rcases h with ⟨rfl, -⟩ | ⟨rfl, -⟩ <;> simp [headers]
  case kwWhile => simp [headers, h.1]
  case kwLoop => simp [headers, h.1]
  case kwWhen => rcases h with ⟨rfl, -⟩ | ⟨rfl, -⟩ | ⟨rfl, -⟩ <;> simp [headers]

/-- A list is in a statement that is there. -/
theorem ListWithin.opens (h : ListWithin settings closer nodes v path s) :
    s.kind ∈ statementOpeners := by
  have hcloser {c : TokenKind} : closer? s.kind = some c → s.kind ∈ statementOpeners := by
    cases s.kind <;> intro hk <;> first | decide | cases hk
  cases h with
  | own hk => exact hcloser hk
  | item hk => exact hcloser hk
  | part hmem =>
    generalize s.kind = k at hmem
    cases k <;> first | decide | cases hmem

/-- What closes a list opens no statement. -/
theorem opener_ne_closer {k k' : TokenKind} (hk : closer? k = some closer)
    (h : k' ∈ statementOpeners) : k' ≠ closer ∧ k' ≠ .endOfFile := by
  constructor <;> rintro rfl
  · cases k <;> cases hk <;> exact absurd h (by decide)
  · exact absurd h (by decide)

theorem atEnd_of_closer (hk : closer? s.kind = some closer) : s.cursor.atEnd = false := by
  apply atEnd_of_kind rfl
  intro hend
  rw [hend] at hk
  cases hk

/-- A list begins behind the token that opens it, and a statement in another one begins behind its
header, so there are fewer tokens left where the list has come to. -/
theorem ListWithin.left_lt (h : ListWithin settings closer nodes v path s) : v.left < s.left := by
  induction h with
  | own hk hturns =>
    have := hturns.steps.before.left_le
    have := left_advance (atEnd_of_closer hk)
    omega
  | item hk hturns _ ih =>
    have := hturns.steps.before.left_le
    have := left_advance (atEnd_of_closer hk)
    omega
  | part hmem hheader _ ih =>
    have := (ReachesPart.header (mem_headers_of_mem_parts hmem) hheader).left_lt
    omega

theorem ListWithin.steps (h : ListWithin settings closer nodes v path s) : s.Steps v := by
  induction h with
  | own _ hturns => exact (steps_advance _).trans hturns.steps
  | item _ hturns _ ih => exact (steps_advance _).trans (hturns.steps.trans ih)
  | part hmem hheader _ ih =>
    have := (spec_of_mem_headers (mem_headers_of_mem_parts hmem)).1
    exact (Stepwise.ok hheader).trans ih

theorem ReachesList.steps (h : ReachesList settings closer nodes v path s) : s.Steps v := by
  cases h with
  | block _ hwithin => exact hwithin.steps
  | bare _ _ hturns => exact hturns.steps
  | item _ hturns hwithin => exact hturns.steps.trans hwithin.steps

/-! ## Parsers that begin with a list -/

theorem statement_level (s : ParserState) :
    statement settings s = statementLevel settings (statement settings) s :=
  congrFun (statement_eq settings) s

theorem statement_begin (hk : s.kind = .kwBegin) : statement settings s = (do
    let nodes ← loop (listTurn settings (statement settings) .kwEnd) []
    expect .kwEnd .missingEnd
    return Node.statement .compound s.line nodes) s.advance := by
  rw [statement_level]
  unfold statementLevel compound statementList
  rw [kind_bind, hk]
  simp only [bind_assoc, pure_bind, line_bind, advance_bind]

theorem statement_repeat (hk : s.kind = .kwRepeat) : statement settings s = (do
    let nodes ← loop (listTurn settings (statement settings) .kwUntil) []
    expect .kwUntil .missingUntil
    let testLine ← line
    let condition ← expression
    return Node.statement .loop s.line
      (nodes ++ [Node.statement .test testLine [.operator .not [condition]]])) s.advance := by
  rw [statement_level]
  unfold statementLevel repeatStatement statementList
  rw [kind_bind, hk]
  simp only [bind_assoc, pure_bind, line_bind, advance_bind]

/-- What a program between BEGIN and END ends with. -/
def behindRoot (root : Node) : Parser Node := do
  expect .dot .missingPeriod
  if (← kind) ≠ .endOfFile then flag .unexpectedToken
  return root

theorem program_block (hk : s.kind = .kwBegin) :
    program settings s = (statement settings >>= behindRoot) s := by
  have hread : statement settings s = compound settings (statement settings) s := by
    rw [statement_level]
    unfold statementLevel
    rw [kind_bind, hk]
  unfold program
  rw [kind_bind, if_pos hk, bind_apply, bind_apply, hread]
  rfl

theorem program_bare (hk : s.kind ≠ .kwBegin) : program settings s = (do
    let nodes ← loop (listTurn settings (statement settings) .endOfFile) []
    expect .endOfFile .unexpectedEnd
    return Node.statement .compound s.line nodes) s := by
  unfold program statementList
  rw [kind_bind, if_neg hk]
  simp only [bind_assoc, pure_bind, line_bind]

end

end Parser

end PascalFront
