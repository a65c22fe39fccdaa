-- Drafts of programs, with some tokens left out. Where a token announces
-- nothing that the next one does not announce as well, a draft without it can
-- still be read: such a token is told by the grammar, not by the parser.
import PascalFront.Proofs.Forms
import PascalFront.Proofs.Progress
import PascalFront.Proofs.Lowering

namespace PascalFront

/-! ## Trees that differ in some lines -/

namespace Node

mutual
/-- `Relined ls n n'`: the trees are the same but for the lines of some IFs that test a hidden
variable for zero; `ls` has these lines in order, each with the line that takes its place. -/
inductive Relined : List (Nat × Nat) → Node → Node → Prop
  | same (n : Node) : Relined [] n n
  | inside {ls : List (Nat × Nat)} {n : Node} {children : List Node} :
      RelinedAll ls n.children children → Relined ls n { n with children := children }
  | zero {ls ls' : List (Nat × Nat)} {line line' : Nat} {hidden : SymbolId}
      {n n' positive positive' : Node} : Relined ls n n' → Relined ls' positive positive' →
      Relined ((line, line') :: (ls ++ ls'))
        (.statement .branch line [.signTest .equal hidden, n, positive])
        (.statement .branch line' [.signTest .equal hidden, n', positive'])

inductive RelinedAll : List (Nat × Nat) → List Node → List Node → Prop
  | nil : RelinedAll [] [] []
  | cons {ls ls' : List (Nat × Nat)} {n n' : Node} {ns ns' : List Node} : Relined ls n n' →
      RelinedAll ls' ns ns' → RelinedAll (ls ++ ls') (n :: ns) (n' :: ns')
end

mutual
theorem Relined.eq_of_nil {ls : List (Nat × Nat)} {n n' : Node} :
    Relined ls n n' → ls = [] → n' = n
  | .same n, _ => rfl
  | .inside (n := ⟨_, _, _, _, _⟩) h, hls => by rw [RelinedAll.eq_of_nil h hls]
  | .zero _ _, hls => by cases hls

theorem RelinedAll.eq_of_nil {ls : List (Nat × Nat)} {ns ns' : List Node} :
    RelinedAll ls ns ns' → ls = [] → ns' = ns
  | .nil, _ => rfl
  | .cons h hs, hls => by
    obtain ⟨rfl, rfl⟩ := List.append_eq_nil_iff.mp hls
    rw [Relined.eq_of_nil h rfl, RelinedAll.eq_of_nil hs rfl]
end

section

variable {ls : List (Nat × Nat)} {n n' : Node} {ns ns' : List Node}

theorem RelinedAll.same (ns : List Node) : RelinedAll [] ns ns := by
  induction ns with
  | nil => exact .nil
  | cons n ns ih => exact .cons (.same n) ih

theorem RelinedAll.head (h : Relined ls n n') (ns : List Node) :
    RelinedAll ls (n :: ns) (n' :: ns) := by
  have hall := RelinedAll.cons h (.same ns)
  rwa [List.append_nil] at hall

theorem RelinedAll.tail (n : Node) (h : RelinedAll ls ns ns') :
    RelinedAll ls (n :: ns) (n :: ns') :=
  .cons (.same n) h

end

theorem RelinedAll.append_same {ls : List (Nat × Nat)} {ns ns' : List Node} (more : List Node) :
    RelinedAll ls ns ns' → RelinedAll ls (ns ++ more) (ns' ++ more)
  | .nil => .same more
  | .cons h hs => .cons h (hs.append_same more)

end Node

/-! ## Rows with tokens left out -/

/-- A token of a draft, kept or left out. -/
structure Slot where
  token : Token
  kept : Bool

/-- A row of tokens of which some are left out. -/
abbrev Draft := List Slot

namespace Draft

/-- The tokens before any was left out. -/
def full (ms : Draft) : List Token := ms.map Slot.token

/-- The tokens that are still there. -/
def kept : Draft → List Token
  | [] => []
  | m :: ms => if m.kept then m.token :: kept ms else kept ms

/-- A draft with nothing left out. -/
def whole (ts : List Token) : Draft := ts.map (⟨·, true⟩)

/-- What is wrong where a token of this kind is missing. -/
def missing : TokenKind → Cause
  | .assign => .missingAssign
  | .kwDo => .missingDo
  | .leftParen => .missingLeftParen
  | .rightParen => .missingRightParen
  | .kwThen => .missingThen
  | .kwLessThan0 => .missingLessThan0
  | .kwEqual0 => .missingEqual0
  | .kwGreaterThan0 => .missingGreaterThan0
  | _ => .unexpectedToken

/-- A diagnostic for each token that is left out, at the next one that is still there. -/
def faults : Draft → List Diagnostic
  | [] => []
  | m :: ms =>
    if m.kept then faults ms
    else ((kept ms).head?.map (Diagnostic.atToken · (missing m.token.kind))).toList ++ faults ms

/-- The lines of the second markers that are left out, with the lines of the tokens that come next
in their places. -/
def moves : Draft → List (Nat × Nat)
  | [] => []
  | m :: ms =>
    if m.kept = false ∧ m.token.kind = .kwEqual0 then
      (m.token.line, lineAhead (kept ms)) :: moves ms
    else moves ms

section

variable (t : Token) (ts : List Token) (ms : Draft)

@[simp] theorem kept_nil : kept [] = [] := rfl

@[simp] theorem kept_cons_true : kept (⟨t, true⟩ :: ms) = t :: kept ms := rfl

@[simp] theorem kept_cons_false : kept (⟨t, false⟩ :: ms) = kept ms := rfl

@[simp] theorem faults_nil : faults [] = [] := rfl

@[simp] theorem faults_cons_true : faults (⟨t, true⟩ :: ms) = faults ms := rfl

@[simp] theorem moves_nil : moves [] = [] := rfl

@[simp] theorem moves_cons_true : moves (⟨t, true⟩ :: ms) = moves ms := by simp [moves]

@[simp] theorem full_cons (m : Slot) : full (m :: ms) = m.token :: full ms := rfl

@[simp] theorem full_append (ms' : Draft) : full (ms ++ ms') = full ms ++ full ms' :=
  List.map_append

@[simp] theorem whole_nil : whole [] = [] := rfl

@[simp] theorem whole_cons : whole (t :: ts) = ⟨t, true⟩ :: whole ts := rfl

@[simp] theorem whole_append (ts' : List Token) : whole (ts ++ ts') = whole ts ++ whole ts' :=
  List.map_append

@[simp] theorem full_whole : full (whole ts) = ts := by
  induction ts with
  | nil => rfl
  | cons t ts ih => rw [whole_cons, full_cons, ih]

@[simp] theorem kept_whole_append : kept (whole ts ++ ms) = ts ++ kept ms := by
  induction ts with
  | nil => rfl
  | cons t ts ih => simp [ih]

@[simp] theorem faults_whole_append : faults (whole ts ++ ms) = faults ms := by
  induction ts with
  | nil => rfl
  | cons t ts ih => simpa using ih

@[simp] theorem moves_whole_append : moves (whole ts ++ ms) = moves ms := by
  induction ts with
  | nil => rfl
  | cons t ts ih => simpa using ih

@[simp] theorem kept_whole : kept (whole ts) = ts := by
  simpa using kept_whole_append ts []

@[simp] theorem faults_whole : faults (whole ts) = [] := by
  simpa using faults_whole_append ts []

@[simp] theorem moves_whole : moves (whole ts) = [] := by
  simpa using moves_whole_append ts []

end

/-- A row with one token left out. -/
def without (before : List Token) (t : Token) (behind : List Token) : Draft :=
  whole before ++ ⟨t, false⟩ :: whole behind

section

variable {before behind : List Token} {t next : Token}

theorem full_without : full (without before t behind) = before ++ t :: behind := by simp [without]

theorem kept_without : kept (without before t behind) = before ++ behind := by simp [without]

theorem faults_without (h : behind.head? = some next) :
    faults (without before t behind) = [.atToken next (missing t.kind)] := by
  simp [without, faults, h]

theorem moves_without (h : behind.head? = some next) : moves (without before t behind) =
    if t.kind = .kwEqual0 then [(t.line, next.line)] else [] := by
  simp [without, moves, lineAhead, Token.line, h]

end

/-! ## The grammar of drafts -/

/-- The tokens of an expression, whatever stands behind them. -/
def Spells (w : List Token) (e : Expr) : Prop := ∀ rest, Phrase .expression (w ++ rest) e rest

/-- The tokens of some arguments, whatever stands behind them. -/
def SpellAll (w : List Token) (es : List Expr) : Prop := ∀ rest, Arguments (w ++ rest) es rest

/-- An assignment. Its sign may be left out where the value does not begin with a parenthesis; the
name would be a call with arguments there. -/
inductive Assignment : Draft → Name → Expr → Draft → Prop
  | intro {t u : Token} {b : Bool} {w : List Token} {rest : Draft} {e : Expr} :
      t.kind = .identifier → u.kind = .assign → Spells w e →
      (b = false → kindAhead w ≠ .leftParen) →
      Assignment (⟨t, true⟩ :: ⟨u, b⟩ :: (whole w ++ rest)) t.asName e rest

inductive OptionalSemicolon : Draft → Draft → Prop
  | absent {ms : Draft} : OptionalSemicolon ms ms
  | present {t : Token} {ms : Draft} : t.kind = .semicolon →
      OptionalSemicolon (⟨t, true⟩ :: ms) ms

/-- The condition in the header of a LOOP, behind its semicolon. Without one, a sign would belong to
the value in front of it. -/
inductive Condition : Draft → Expr → Draft → Prop
  | joined {w : List Token} {rest : Draft} {e : Expr} : Spells w e → kindAhead w ≠ .plus →
      kindAhead w ≠ .minus → Condition (whole w ++ rest) e rest
  | behind {t : Token} {w : List Token} {rest : Draft} {e : Expr} : t.kind = .semicolon →
      Spells w e → Condition (⟨t, true⟩ :: (whole w ++ rest)) e rest

/-- A later marker of a WHEN statement, behind its semicolon. Behind one, it may be left out where
the branch is not empty. -/
inductive Marker (k : TokenKind) : Draft → Slot → Draft → Prop
  | bare {t : Token} {ms : Draft} : t.kind = k → Marker k (⟨t, true⟩ :: ms) ⟨t, true⟩ ms
  | behind {s t : Token} {b : Bool} {ms : Draft} : s.kind = .semicolon → t.kind = k →
      (b = false → kindAhead (kept ms) ∈ Parser.statementOpeners) →
      Marker k (⟨s, true⟩ :: ⟨t, b⟩ :: ms) ⟨t, b⟩ ms

/-- The line that a marker gives to its IF: its own, or that of the token in its place. -/
def markerLine (m : Slot) (ms : Draft) : Nat :=
  if m.kept then m.token.line else lineAhead (kept ms)

mutual
/-- `Statement ms x x' rest`: the draft `ms` starts with the statement `x`, and `rest` is left. From
the tokens that are still there, `x'` is read. -/
inductive Statement : Draft → Stmt → Stmt → Draft → Prop
  | empty {t : Token} {ms : Draft} :
      Statement (⟨t, true⟩ :: ms) (.empty t.line) (.empty t.line) (⟨t, true⟩ :: ms)
  | block {t u : Token} {ms rest : Draft} {xs xs' : List Stmt} : t.kind = .kwBegin →
      Statements ms xs xs' (⟨u, true⟩ :: rest) → u.kind = .kwEnd →
      Statement (⟨t, true⟩ :: ms) (.block t.line xs) (.block t.line xs') rest
  | assign {ms rest : Draft} {target : Name} {value : Expr} : Assignment ms target value rest →
      Statement ms (.assign target value) (.assign target value) rest
  | call {t : Token} {rest : Draft} : t.kind = .identifier →
      Statement (⟨t, true⟩ :: rest) (.call t.asName none) (.call t.asName none) rest
  | callEmpty {t u v : Token} {rest : Draft} : t.kind = .identifier → u.kind = .leftParen →
      v.kind = .rightParen →
      Statement (⟨t, true⟩ :: ⟨u, true⟩ :: ⟨v, true⟩ :: rest) (.call t.asName (some []))
        (.call t.asName (some [])) rest
  | callWith {t u v : Token} {w : List Token} {rest : Draft} {es : List Expr} :
      t.kind = .identifier → u.kind = .leftParen → SpellAll w es → v.kind = .rightParen →
      Statement (⟨t, true⟩ :: ⟨u, true⟩ :: (whole w ++ ⟨v, true⟩ :: rest))
        (.call t.asName (some es)) (.call t.asName (some es)) rest
  | ifThen {t u r : Token} {b : Bool} {w : List Token} {mid rest : Draft} {e : Expr}
      {x x' : Stmt} : t.kind = .kwIf → Spells w e → u.kind = .kwThen →
      Statement mid x x' (⟨r, true⟩ :: rest) → r.kind ≠ .kwElse →
      Statement (⟨t, true⟩ :: (whole w ++ ⟨u, b⟩ :: mid)) (.ifThen t.line e x)
        (.ifThen t.line e x') (⟨r, true⟩ :: rest)
  | ifElse {t u v : Token} {b : Bool} {w : List Token} {mid mid' rest : Draft} {e : Expr}
      {x x' y y' : Stmt} : t.kind = .kwIf → Spells w e → u.kind = .kwThen →
      Statement mid x x' (⟨v, true⟩ :: mid') → v.kind = .kwElse → Statement mid' y y' rest →
      Statement (⟨t, true⟩ :: (whole w ++ ⟨u, b⟩ :: mid)) (.ifElse t.line e x y)
        (.ifElse t.line e x' y') rest
  | whileDo {t u : Token} {b : Bool} {w : List Token} {mid rest : Draft} {e : Expr}
      {x x' : Stmt} : t.kind = .kwWhile → Spells w e → u.kind = .kwDo → Statement mid x x' rest →
      Statement (⟨t, true⟩ :: (whole w ++ ⟨u, b⟩ :: mid)) (.whileDo t.line e x)
        (.whileDo t.line e x') rest
  | repeatUntil {t u : Token} {w : List Token} {ms rest : Draft} {e : Expr} {xs xs' : List Stmt} :
      t.kind = .kwRepeat → Statements ms xs xs' (⟨u, true⟩ :: (whole w ++ rest)) →
      u.kind = .kwUntil → Spells w e →
      Statement (⟨t, true⟩ :: ms) (.repeatUntil t.line xs (lineAhead w) e)
        (.repeatUntil t.line xs' (lineAhead w) e) rest
  | loop {t u v z : Token} {b c d : Bool} {ms afterFirst afterCondition atNext mid rest : Draft}
      {counter target : Name} {first condition next : Expr} {x x' : Stmt} : t.kind = .kwLoop →
      u.kind = .leftParen → Assignment ms counter first afterFirst →
      Condition afterFirst condition afterCondition → OptionalSemicolon afterCondition atNext →
      Assignment atNext target next (⟨v, c⟩ :: ⟨z, d⟩ :: mid) → v.kind = .rightParen →
      z.kind = .kwDo → (c = true ∨ d = true) → Statement mid x x' rest →
      Statement (⟨t, true⟩ :: ⟨u, b⟩ :: ms) (.loop counter first condition target next x)
        (.loop counter first condition target next x') rest
  | when {t u : Token} {v z : Slot} {b : Bool} {w : List Token}
      {mid afterNegative atZero afterZero beforePositive rest : Draft} {e : Expr}
      {x x' y y' p p' : Stmt} : t.kind = .kwWhen → Spells w e → u.kind = .kwLessThan0 →
      Statement mid x x' afterNegative → Marker .kwEqual0 afterNegative v atZero →
      Statement atZero y y' afterZero → Marker .kwGreaterThan0 afterZero z beforePositive →
      Statement beforePositive p p' rest →
      Statement (⟨t, true⟩ :: (whole w ++ ⟨u, b⟩ :: mid))
        (.when t.line (lineAhead w) e x v.token.line y p)
        (.when t.line (lineAhead w) e x' (markerLine v atZero) y' p') rest

inductive Statements : Draft → List Stmt → List Stmt → Draft → Prop
  | last {ms rest : Draft} {x x' : Stmt} : Statement ms x x' rest → Statements ms [x] [x'] rest
  | more {t : Token} {ms mid rest : Draft} {x x' : Stmt} {xs xs' : List Stmt} :
      Statement ms x x' (⟨t, true⟩ :: mid) → t.kind = .semicolon → Statements mid xs xs' rest →
      Statements ms (x :: xs) (x' :: xs') rest
end

/-- A draft of a whole program. Nothing is read behind the first token for the end. -/
inductive IsProgram : Draft → Source → Source → Prop
  | block {t u v stop : Token} {ms : Draft} {behind : List Token} {xs xs' : List Stmt} :
      t.kind = .kwBegin → Statements ms xs xs' (whole (u :: v :: stop :: behind)) →
      u.kind = .kwEnd → v.kind = .dot → stop.isEnd = true →
      IsProgram (⟨t, true⟩ :: ms) ⟨t.line, xs⟩ ⟨t.line, xs'⟩
  | bare {t stop : Token} {ms : Draft} {behind : List Token} {xs xs' : List Stmt} :
      t.kind ≠ .kwBegin → Statements (⟨t, true⟩ :: ms) xs xs' (whole (stop :: behind)) →
      stop.isEnd = true → IsProgram (⟨t, true⟩ :: ms) ⟨t.line, xs⟩ ⟨t.line, xs'⟩

/-! ## Nothing left out -/

/-- A draft with every token back in its place. -/
def restore (ms : Draft) : Draft := whole (full ms)

section

variable {ms rest : Draft}

@[simp] theorem restore_cons (m : Slot) : restore (m :: ms) = ⟨m.token, true⟩ :: restore ms := rfl

@[simp] theorem restore_whole (ts : List Token) : Draft.restore (whole ts) = whole ts := by
  rw [restore, full_whole]

@[simp] theorem restore_whole_append (w : List Token) :
    restore (whole w ++ ms) = whole w ++ restore ms := by simp [restore]

theorem Assignment.restore {target : Name} {value : Expr} (h : Assignment ms target value rest) :
    Assignment (restore ms) target value (Draft.restore rest) := by
  obtain ⟨ht, hu, he, -⟩ := h
  simp only [restore_cons, restore_whole_append]
  exact .intro ht hu he (fun h => by cases h)

theorem Condition.restore {e : Expr} (h : Condition ms e rest) :
    Condition (restore ms) e (Draft.restore rest) := by
  cases h with
  | joined he hplus hminus =>
    rw [restore_whole_append]
    exact .joined he hplus hminus
  | behind ht he =>
    rw [restore_cons, restore_whole_append]
    exact .behind ht he

theorem OptionalSemicolon.restore (h : OptionalSemicolon ms rest) :
    OptionalSemicolon (restore ms) (Draft.restore rest) := by
  cases h with
  | absent => exact .absent
  | present ht => exact .present ht

theorem Marker.restore {k : TokenKind} {m : Slot} (h : Marker k ms m rest) :
    Marker k (restore ms) ⟨m.token, true⟩ (Draft.restore rest) := by
  cases h with
  | bare ht => exact .bare ht
  | behind hs ht => exact .behind hs ht (fun h => by cases h)

mutual
theorem Statement.restore {ms rest : Draft} {x x' : Stmt} :
    Statement ms x x' rest → Statement (restore ms) x x (Draft.restore rest)
  | .empty => .empty
  | .block ht hxs hu => .block ht (Statements.restore hxs) hu
  | .assign h => .assign h.restore
  | .call ht => .call ht
  | .callEmpty ht hu hv => .callEmpty ht hu hv
  | .callWith ht hu hes hv => by
    simp only [restore_cons, restore_whole_append]
    exact .callWith ht hu hes hv
  | .ifThen ht he hu hx hr => by
    have hx := Statement.restore hx
    simp only [restore_cons, restore_whole_append] at hx ⊢
    exact .ifThen ht he hu hx hr
  | .ifElse ht he hu hx hv hy => by
    have hx := Statement.restore hx
    simp only [restore_cons, restore_whole_append] at hx ⊢
    exact .ifElse ht he hu hx hv (Statement.restore hy)
  | .whileDo ht he hu hx => by
    simp only [restore_cons, restore_whole_append]
    exact .whileDo ht he hu (Statement.restore hx)
  | .repeatUntil ht hxs hu he => by
    have hxs := Statements.restore hxs
    simp only [restore_cons, restore_whole_append] at hxs ⊢
    exact .repeatUntil ht hxs hu he
  | .loop ht hu hfirst hcond hskip hnext hv hz _ hx =>
    .loop ht hu hfirst.restore hcond.restore hskip.restore hnext.restore hv hz (Or.inl rfl)
      (Statement.restore hx)
  | .when ht he hu hx hv hy hz hp => by
    simp only [restore_cons, restore_whole_append]
    exact .when ht he hu (Statement.restore hx) hv.restore (Statement.restore hy) hz.restore
      (Statement.restore hp)

theorem Statements.restore {ms rest : Draft} {xs xs' : List Stmt} :
    Statements ms xs xs' rest → Statements (restore ms) xs xs (Draft.restore rest)
  | .last hx => .last (Statement.restore hx)
  | .more hx ht hxs => .more (Statement.restore hx) ht (Statements.restore hxs)
end

/-! ## What is read from a draft -/

/-- Two statements with the same names and, but for some lines, with the same tree. -/
def AlikeBut (settings : Settings) (ls : List (Nat × Nat)) (x x' : Stmt) : Prop :=
  ∀ table, (x'.lower settings table).2 = (x.lower settings table).2 ∧
    (x.lower settings table).1.Relined ls (x'.lower settings table).1

def AllAlikeBut (settings : Settings) (ls : List (Nat × Nat)) (xs xs' : List Stmt) : Prop :=
  ∀ table, (Stmt.lowerAll settings xs' table).2 = (Stmt.lowerAll settings xs table).2 ∧
    Node.RelinedAll ls (Stmt.lowerAll settings xs table).1 (Stmt.lowerAll settings xs' table).1

variable {settings : Settings} {ls ls' ls₁ ls₂ : List (Nat × Nat)} {x x' y y' p p' : Stmt}
  {xs xs' : List Stmt} {e : Expr}

theorem AlikeBut.of_eq (h : AlikeBut settings ls x x') {table table' : SymbolTable}
    (ht : table' = table) : (x'.lower settings table').2 = (x.lower settings table).2 ∧
      (x.lower settings table).1.Relined ls (x'.lower settings table').1 := by
  rw [ht]
  exact h table

theorem AllAlikeBut.of_eq (h : AllAlikeBut settings ls xs xs') {table table' : SymbolTable}
    (ht : table' = table) :
    (Stmt.lowerAll settings xs' table').2 = (Stmt.lowerAll settings xs table).2 ∧
      Node.RelinedAll ls (Stmt.lowerAll settings xs table).1
        (Stmt.lowerAll settings xs' table').1 := by
  rw [ht]
  exact h table

theorem alike_same (x : Stmt) : AlikeBut settings [] x x := fun _ => ⟨rfl, .same _⟩

theorem alike_block (line : Nat) (h : AllAlikeBut settings ls xs xs') :
    AlikeBut settings ls (.block line xs) (.block line xs') := by
  intro table
  obtain ⟨htable, hnodes⟩ := h table
  exact ⟨htable, .inside hnodes⟩

theorem alike_ifThen (line : Nat) (e : Expr) (h : AlikeBut settings ls x x') :
    AlikeBut settings ls (.ifThen line e x) (.ifThen line e x') := by
  intro table
  obtain ⟨htable, hnode⟩ := h (e.lower table).2
  exact ⟨htable, .inside (.tail _ (.head hnode []))⟩

theorem alike_ifElse (line : Nat) (e : Expr) (hx : AlikeBut settings ls x x')
    (hy : AlikeBut settings ls' y y') :
    AlikeBut settings (ls ++ ls') (.ifElse line e x y) (.ifElse line e x' y') := by
  intro table
  obtain ⟨htable, hnode⟩ := hx (e.lower table).2
  obtain ⟨htable', hnode'⟩ := hy.of_eq htable
  exact ⟨htable', .inside (.tail _ (.cons hnode (.head hnode' [])))⟩

theorem alike_whileDo (line : Nat) (e : Expr) (h : AlikeBut settings ls x x') :
    AlikeBut settings ls (.whileDo line e x) (.whileDo line e x') := by
  intro table
  obtain ⟨htable, hnode⟩ := h (e.lower table).2
  exact ⟨htable, .inside (.tail _ (.head hnode []))⟩

theorem alike_repeatUntil (line testLine : Nat) (e : Expr) (h : AllAlikeBut settings ls xs xs') :
    AlikeBut settings ls (.repeatUntil line xs testLine e) (.repeatUntil line xs' testLine e) := by
  intro table
  obtain ⟨htable, hnodes⟩ := h table
  have hlower (xs : List Stmt) : (Stmt.repeatUntil line xs testLine e).lower settings table =
      (.statement .loop line ((Stmt.lowerAll settings xs table).1 ++ [.statement .test testLine
        [.operator .not [(e.lower (Stmt.lowerAll settings xs table).2).1]]]),
        (e.lower (Stmt.lowerAll settings xs table).2).2) := rfl
  rw [hlower, hlower, htable]
  exact ⟨rfl, .inside (hnodes.append_same _)⟩

theorem alike_loop (counter target : Name) (first condition next : Expr)
    (h : AlikeBut settings ls x x') :
    AlikeBut settings ls (.loop counter first condition target next x)
      (.loop counter first condition target next x') := by
  intro table
  obtain ⟨htable, hnode⟩ := h (next.lowerAssign counter.line target
    (condition.lower (first.lowerAssign counter.line counter table).2).2).2
  exact ⟨htable, .inside (.tail _ (.head (.inside (.tail _ (.head hnode _))) []))⟩

/-- The line of the inner IF of a WHEN statement may be another one. -/
theorem alike_when (line valueLine : Nat) (e : Expr) {zeroLine zeroLine' : Nat}
    (hline : ls₁ = [] ∧ zeroLine' = zeroLine ∨ ls₁ = [(zeroLine, zeroLine')])
    (hx : AlikeBut settings ls x x') (hy : AlikeBut settings ls' y y')
    (hp : AlikeBut settings ls₂ p p') :
    AlikeBut settings (ls ++ (ls₁ ++ (ls' ++ ls₂))) (.when line valueLine e x zeroLine y p)
      (.when line valueLine e x' zeroLine' y' p') := by
  intro table
  obtain ⟨htable, hnode⟩ := hx
    (SymbolTable.mentioned (settings.whenName valueLine) valueLine (e.lower table).2).2
  obtain ⟨htable', hnode'⟩ := hy.of_eq htable
  obtain ⟨htable₂, hnode₂⟩ := hp.of_eq htable'
  refine ⟨htable₂, .inside (.tail _ (.head (.inside (.tail _ (.cons hnode ?_))) []))⟩
  refine .head ?_ []
  rcases hline with ⟨rfl, rfl⟩ | rfl
  · rw [List.nil_append]
    exact .inside (.tail _ (.cons hnode' (.head hnode₂ [])))
  · rw [List.singleton_append]
    exact .zero hnode' hnode₂

theorem alike_last (hempty : x'.isEmpty = x.isEmpty) (h : AlikeBut settings ls x x')
    (hnil : x.isEmpty = true → ls = []) : AllAlikeBut settings ls [x] [x'] := by
  intro table
  by_cases hx : x.isEmpty = true
  · rw [Stmt.lowerAll_last_empty hx, Stmt.lowerAll_last_empty (hempty.trans hx), hnil hx]
    exact ⟨rfl, .nil⟩
  · have hx : x.isEmpty = false := by simpa using hx
    obtain ⟨htable, hnode⟩ := h table
    rw [Stmt.lowerAll_cons (Or.inr hx), Stmt.lowerAll_cons (Or.inr (hempty.trans hx))]
    exact ⟨htable, .head hnode []⟩

theorem alike_more (hne : xs ≠ []) (hne' : xs' ≠ []) (h : AlikeBut settings ls x x')
    (hs : AllAlikeBut settings ls' xs xs') :
    AllAlikeBut settings (ls ++ ls') (x :: xs) (x' :: xs') := by
  intro table
  obtain ⟨htable, hnode⟩ := h table
  obtain ⟨htable', hnodes⟩ := hs.of_eq htable
  rw [Stmt.lowerAll_cons (Or.inl hne), Stmt.lowerAll_cons (Or.inl hne')]
  exact ⟨htable', .cons hnode hnodes⟩

/-! ### Along a draft -/

theorem moves_cons_of_ne {m : Slot} (h : m.token.kind ≠ .kwEqual0) (ms : Draft) :
    moves (m :: ms) = moves ms := by
  rw [moves, if_neg fun hm => h hm.2]

theorem Assignment.moves_eq {target : Name} {value : Expr} (h : Assignment ms target value rest) :
    moves ms = moves rest := by
  obtain ⟨-, hu, -, -⟩ := h
  rw [moves_cons_true, moves_cons_of_ne (by simp [hu]), moves_whole_append]

theorem Condition.moves_eq {e : Expr} (h : Condition ms e rest) : moves ms = moves rest := by
  cases h <;> simp

theorem OptionalSemicolon.moves_eq (h : OptionalSemicolon ms rest) : moves ms = moves rest := by
  cases h <;> simp

theorem Marker.moves_eq {k : TokenKind} {m : Slot} (h : Marker k ms m rest)
    (hk : k ≠ .kwEqual0) : moves ms = moves rest := by
  cases h with
  | bare => simp
  | behind _ ht => rw [moves_cons_true, moves_cons_of_ne (by rw [ht]; exact hk)]

theorem Marker.moved {m : Slot} (h : Marker .kwEqual0 ms m rest) :
    ∃ ls₁, moves ms = ls₁ ++ moves rest ∧ (ls₁ = [] ∧ markerLine m rest = m.token.line ∨
      ls₁ = [(m.token.line, markerLine m rest)]) := by
  cases h with
  | bare => exact ⟨[], by simp, Or.inl ⟨rfl, rfl⟩⟩
  | @behind s t b ms _ ht =>
    cases b with
    | true => exact ⟨[], by simp, Or.inl ⟨rfl, rfl⟩⟩
    | false =>
      refine ⟨[_], ?_, Or.inr rfl⟩
      rw [moves_cons_true, moves, if_pos ⟨rfl, ht⟩]
      rfl

theorem Statement.isEmpty_eq (h : Statement ms x x' rest) :
    x'.isEmpty = x.isEmpty ∧ (x.isEmpty = true → ms = rest) := by
  cases h <;> exact ⟨rfl, fun h => by first | rfl | cases h⟩

theorem Statements.ne_nil (h : Statements ms xs xs' rest) : xs ≠ [] ∧ xs' ≠ [] := by
  cases h <;> exact ⟨List.cons_ne_nil _ _, List.cons_ne_nil _ _⟩

mutual
/-- What is read from a draft differs from the whole statement in the lines of the second markers
that are left out, and in nothing else. -/
theorem Statement.alike (settings : Settings) {ms rest : Draft} {x x' : Stmt} :
    Statement ms x x' rest → ∃ ls, moves ms = ls ++ moves rest ∧ AlikeBut settings ls x x'
  | .empty => ⟨[], rfl, alike_same _⟩
  | .block _ hxs _ => by
    obtain ⟨ls, hls, h⟩ := Statements.alike settings hxs
    exact ⟨ls, by simpa using hls, alike_block _ h⟩
  | .assign h => ⟨[], h.moves_eq, alike_same _⟩
  | .call _ => ⟨[], by simp, alike_same _⟩
  | .callEmpty _ _ _ => ⟨[], by simp, alike_same _⟩
  | .callWith _ _ _ _ => ⟨[], by simp, alike_same _⟩
  | .ifThen _ _ hu hx _ => by
    obtain ⟨ls, hls, h⟩ := Statement.alike settings hx
    refine ⟨ls, ?_, alike_ifThen _ _ h⟩
    rw [moves_cons_true, moves_whole_append, moves_cons_of_ne (by simp [hu]), hls]
  | .ifElse _ _ hu hx _ hy => by
    obtain ⟨ls, hls, h⟩ := Statement.alike settings hx
    obtain ⟨ls', hls', h'⟩ := Statement.alike settings hy
    refine ⟨ls ++ ls', ?_, alike_ifElse _ _ h h'⟩
    rw [moves_cons_true, moves_whole_append, moves_cons_of_ne (by simp [hu]), hls, moves_cons_true,
      hls', List.append_assoc]
  | .whileDo _ _ hu hx => by
    obtain ⟨ls, hls, h⟩ := Statement.alike settings hx
    refine ⟨ls, ?_, alike_whileDo _ _ h⟩
    rw [moves_cons_true, moves_whole_append, moves_cons_of_ne (by simp [hu]), hls]
  | .repeatUntil _ hxs _ _ => by
    obtain ⟨ls, hls, h⟩ := Statements.alike settings hxs
    exact ⟨ls, by simpa using hls, alike_repeatUntil _ _ _ h⟩
  | .loop _ hu hfirst hcond hskip hnext hv hz _ hx => by
    obtain ⟨ls, hls, h⟩ := Statement.alike settings hx
    refine ⟨ls, ?_, alike_loop _ _ _ _ _ h⟩
    rw [moves_cons_true, moves_cons_of_ne (by simp [hu]), hfirst.moves_eq, hcond.moves_eq,
      hskip.moves_eq, hnext.moves_eq, moves_cons_of_ne (by simp [hv]),
      moves_cons_of_ne (by simp [hz]), hls]
  | .when _ _ hu hx hv hy hz hp => by
    obtain ⟨ls, hls, h⟩ := Statement.alike settings hx
    obtain ⟨ls₁, hls₁, hline⟩ := hv.moved
    obtain ⟨ls', hls', h'⟩ := Statement.alike settings hy
    obtain ⟨ls₂, hls₂, h₂⟩ := Statement.alike settings hp
    refine ⟨ls ++ (ls₁ ++ (ls' ++ ls₂)), ?_, alike_when _ _ _ hline h h' h₂⟩
    rw [moves_cons_true, moves_whole_append, moves_cons_of_ne (by simp [hu]), hls, hls₁, hls',
      hz.moves_eq (by decide), hls₂]
    simp only [List.append_assoc]

theorem Statements.alike (settings : Settings) {ms rest : Draft} {xs xs' : List Stmt} :
    Statements ms xs xs' rest → ∃ ls, moves ms = ls ++ moves rest ∧ AllAlikeBut settings ls xs xs'
  | .last hx => by
    obtain ⟨ls, hls, h⟩ := Statement.alike settings hx
    obtain ⟨hempty, hsame⟩ := hx.isEmpty_eq
    refine ⟨ls, hls, alike_last hempty h fun he => ?_⟩
    rw [hsame he] at hls
    simpa using hls
  | .more hx _ hxs => by
    obtain ⟨ls, hls, h⟩ := Statement.alike settings hx
    obtain ⟨ls', hls', hs⟩ := Statements.alike settings hxs
    refine ⟨ls ++ ls', ?_, alike_more hxs.ne_nil.1 hxs.ne_nil.2 h hs⟩
    rw [hls, moves_cons_true, hls', List.append_assoc]
end

/-- What is read from a draft of a program: the same names, and a tree in which only the lines of
missing second markers differ. -/
theorem IsProgram.alike (settings : Settings) {p p' : Source} (h : IsProgram ms p p')
    (table : SymbolTable) : (p'.lower settings table).2 = (p.lower settings table).2 ∧
      (p.lower settings table).1.Relined (moves ms) (p'.lower settings table).1 := by
  cases h with
  | block _ hxs =>
    obtain ⟨ls, hls, h⟩ := Statements.alike settings hxs
    obtain ⟨htable, hnodes⟩ := h table
    rw [moves_whole, List.append_nil] at hls
    rw [moves_cons_true, hls]
    exact ⟨htable, .inside hnodes⟩
  | bare _ hxs =>
    obtain ⟨ls, hls, h⟩ := Statements.alike settings hxs
    obtain ⟨htable, hnodes⟩ := h table
    rw [moves_whole, List.append_nil] at hls
    rw [hls]
    exact ⟨htable, .inside hnodes⟩

theorem IsProgram.restore {p p' : Source} (h : IsProgram ms p p') : IsProgram (restore ms) p p := by
  cases h with
  | block ht hxs hu hv hstop =>
    have hxs := Statements.restore hxs
    rw [restore_whole] at hxs
    exact .block ht hxs hu hv hstop
  | bare ht hxs hstop =>
    have hxs := Statements.restore hxs
    rw [restore_whole] at hxs
    exact .bare ht hxs hstop

end

end Draft

end PascalFront
