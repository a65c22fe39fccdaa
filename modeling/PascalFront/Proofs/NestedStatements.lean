-- Where a run reads statements. A statement in another one is read behind a
-- header, and a statement of a list behind the turns before it. So it is known
-- which statements a run reads, and with which tokens each of them begins, also
-- where the run fails somewhere in them.
import PascalFront.Proofs.Lockstep

namespace PascalFront.Parser

open ParserState ResumePoints

/-! ## Headers

What is read of a statement up to a statement in it. A header says whether that
statement is there. -/

def thenHeader : Parser Bool := do
  advance
  let _ ← expression
  expectIn beforeThen .kwThen .missingThen
  return true

def elseHeader (settings : Settings) : Parser Bool := do
  let _ ← thenHeader
  let _ ← statement settings
  accept .kwElse

def whileHeader : Parser Bool := do
  advance
  let _ ← expression
  expectIn beforeDo .kwDo .missingDo
  return true

def countingHeader : Parser Bool := do
  advance
  expect .leftParen .missingLeftParen
  let _ ← assignment
  let _ ← accept .semicolon
  let _ ← expression
  let _ ← accept .semicolon
  let _ ← assignment
  expectIn beforeRightParen .rightParen .missingRightParen
  expectIn beforeDo .kwDo .missingDo
  return true

def negativeHeader (settings : Settings) : Parser Bool := do
  advance
  let valueLine ← line
  let _ ← expression
  let _ ← enter (settings.whenName valueLine) valueLine
  expectIn beforeLessThan0 .kwLessThan0 .missingLessThan0
  return true

def zeroHeader (settings : Settings) : Parser Bool := do
  let _ ← negativeHeader settings
  let _ ← statement settings
  let _ ← accept .semicolon
  resumeAt beforeEqual0
  expect .kwEqual0 .missingEqual0
  return true

def positiveHeader (settings : Settings) : Parser Bool := do
  let _ ← zeroHeader settings
  let _ ← statement settings
  let _ ← accept .semicolon
  expectIn beforeGreaterThan0 .kwGreaterThan0 .missingGreaterThan0
  return true

/-- The headers in a statement that starts with a token of this kind. -/
def headers (settings : Settings) : TokenKind → List (Parser Bool)
  | .kwIf => [thenHeader, elseHeader settings]
  | .kwWhile => [whileHeader]
  | .kwLoop => [countingHeader]
  | .kwWhen => [negativeHeader settings, zeroHeader settings, positiveHeader settings]
  | _ => []

/-- What closes the list in a statement that starts with a token of this kind. -/
def closer? : TokenKind → Option TokenKind
  | .kwBegin => some .kwEnd
  | .kwRepeat => some .kwUntil
  | _ => none

/-! ## Statements in statements -/

/-- A list that goes on with some nodes from a state on reads a statement in a later state. -/
inductive ReachesItem (settings : Settings) (closer : TokenKind) :
    List Node → ParserState → ParserState → Prop
  | here {nodes : List Node} {s : ParserState} : s.kind ≠ closer → s.kind ≠ .endOfFile →
      ReachesItem settings closer nodes s s
  | later {nodes nodes' : List Node} {s s₁ s' : ParserState} :
      listTurn settings (statement settings) closer nodes s = .ok (some nodes') s₁ →
      ReachesItem settings closer nodes' s₁ s' → ReachesItem settings closer nodes s s'

/-- A statement that is read in one state has a part that is read in another one. -/
inductive ReachesPart (settings : Settings) (s s' : ParserState) : Prop
  | header {header : Parser Bool} : header ∈ headers settings s.kind → header s = .ok true s' →
      ReachesPart settings s s'
  | item {closer : TokenKind} : closer? s.kind = some closer →
      ReachesItem settings closer [] s.advance s' → ReachesPart settings s s'

theorem ReachesPart.behind {settings : Settings} {s s' : ParserState} {k : TokenKind}
    {header : Parser Bool} (hk : s.kind = k) (hmem : header ∈ headers settings k)
    (hrun : header s = .ok true s') : ReachesPart settings s s' :=
  .header (hk ▸ hmem) hrun

/-- A statement that is read in one state is the statement that is read in another one, or has it
in it. -/
def ReachesWithin (settings : Settings) : ParserState → ParserState → Prop :=
  Relation.ReflTransGen (ReachesPart settings)

/-- A program that is read from a state on has a statement that is read in another one. -/
inductive ReachesStatement (settings : Settings) (s s' : ParserState) : Prop
  | block {u : ParserState} : s.kind = .kwBegin → ReachesItem settings .kwEnd [] s.advance u →
      ReachesWithin settings u s' → ReachesStatement settings s s'
  | bare {u : ParserState} : s.kind ≠ .kwBegin → ReachesItem settings .endOfFile [] s u →
      ReachesWithin settings u s' → ReachesStatement settings s s'

/-! ## A part takes fewer tokens -/

/-- A parser that takes a token when it does not start at the end. -/
class Takes (p : Parser α) : Prop where
  left_lt : ∀ s a s', s.cursor.atEnd = false → p s = .ok a s' → s'.left < s.left

instance {f : Unit → Parser α} [∀ u, Stepwise (f u)] : Takes (advance >>= f) :=
  ⟨fun _ _ _ hend h => left_lt_of_advance hend h⟩

instance {p : Parser α} {f : α → Parser β} [hp : Takes p] [∀ a, Stepwise (f a)] :
    Takes (p >>= f) where
  left_lt s b s' hend h := by
    obtain ⟨a, s₁, ha, hb⟩ := bind_eq_ok.mp h
    have := hp.left_lt s a s₁ hend ha
    have := (Stepwise.ok hb).before.left_le
    omega

section

variable {settings : Settings} {s s' : ParserState}

instance : Takes thenHeader := by unfold thenHeader; infer_instance

instance : Takes (elseHeader settings) := by unfold elseHeader; infer_instance

instance : Takes whileHeader := by unfold whileHeader; infer_instance

instance : Takes countingHeader := by unfold countingHeader; infer_instance

instance : Takes (negativeHeader settings) := by unfold negativeHeader; infer_instance

instance : Takes (zeroHeader settings) := by unfold zeroHeader; infer_instance

instance : Takes (positiveHeader settings) := by unfold positiveHeader; infer_instance

instance : Stepwise thenHeader := by unfold thenHeader; infer_instance

instance : Stepwise (elseHeader settings) := by unfold elseHeader; infer_instance

instance : Stepwise whileHeader := by unfold whileHeader; infer_instance

instance : Stepwise countingHeader := by unfold countingHeader; infer_instance

instance : Stepwise (negativeHeader settings) := by unfold negativeHeader; infer_instance

instance : Stepwise (zeroHeader settings) := by unfold zeroHeader; infer_instance

instance : Stepwise (positiveHeader settings) := by unfold positiveHeader; infer_instance

theorem spec_of_mem_headers {k : TokenKind} {header : Parser Bool}
    (h : header ∈ headers settings k) : Stepwise header ∧ Takes header := by
  cases k <;> simp only [headers, List.mem_cons, List.not_mem_nil, or_false] at h
  case kwIf => rcases h with rfl | rfl <;> exact ⟨inferInstance, inferInstance⟩
  case kwWhile =>
    rw [h]
    exact ⟨inferInstance, inferInstance⟩
  case kwLoop =>
    rw [h]
    exact ⟨inferInstance, inferInstance⟩
  case kwWhen => rcases h with rfl | rfl | rfl <;> exact ⟨inferInstance, inferInstance⟩

theorem ReachesItem.left_le {closer : TokenKind} {nodes : List Node}
    (h : ReachesItem settings closer nodes s s') : s'.left ≤ s.left := by
  induction h with
  | here => exact Nat.le_refl _
  | later hturn _ ih => exact Nat.le_trans ih (Stepwise.ok hturn).before.left_le

theorem ReachesPart.left_lt (h : ReachesPart settings s s') : s'.left < s.left := by
  cases h with
  | header hmem hrun =>
    have hend : s.kind ≠ .endOfFile := by
      intro hk
      rw [hk] at hmem
      cases hmem
    exact (spec_of_mem_headers hmem).2.left_lt s true s' (atEnd_of_kind rfl hend) hrun
  | item hcloser hitem =>
    have hend : s.kind ≠ .endOfFile := by
      intro hk
      rw [hk] at hcloser
      cases hcloser
    have := left_advance (atEnd_of_kind rfl hend)
    have := hitem.left_le
    omega

end

/-! ## The run of a part lies in the run of the whole -/

/-- Where a header says that a statement is there, the parser reads it and goes on. -/
class Leads (settings : Settings) (header : Parser Bool) (p : Parser α) : Prop where
  steps : ∀ s s', header s = .ok true s' →
    (stateBehind (statement settings s')).Steps (stateBehind (p s))

section

variable {settings : Settings} {header : Parser Bool} {p q : Parser α} {f : α → Parser β}
  {g : α → Parser Bool} {s s' : ParserState}

instance [h : ∀ a, Leads settings (g a) (f a)] : Leads settings (p >>= g) (p >>= f) where
  steps s s' hrun := by
    obtain ⟨a, s₁, ha, hg⟩ := bind_eq_ok.mp hrun
    rw [bind_apply, ha]
    exact (h a).steps s₁ s' hg

instance {r : Parser β} {t : Parser Bool} [Leads settings t r] :
    Leads settings (p >>= fun _ => t) (p >>= fun _ => r) :=
  inferInstance

instance {f : Node → Parser β} [∀ n, Stepwise (f n)] :
    Leads settings (pure true) (statement settings >>= f) where
  steps s s' hrun := by
    cases hrun
    exact stateBehind_bind

instance {k : TokenKind} {f : Node → Parser β} {q : Parser β} [∀ n, Stepwise (f n)] :
    Leads settings (accept k)
      (accept k >>= fun there => if there then statement settings >>= f else q) where
  steps s s' hrun := by
    rw [bind_apply, hrun]
    exact stateBehind_bind

/-- A look at the line takes nothing. -/
instance (priority := low) {f : Nat → Parser β} [h : ∀ l, Leads settings header (f l)] :
    Leads settings header (line >>= f) :=
  ⟨fun s s' hrun => (h s.line).steps s s' hrun⟩

theorem leads_ifStatement (h : header ∈ headers settings .kwIf) :
    Leads settings header (ifStatement (statement settings)) := by
  simp only [headers, List.mem_cons, List.not_mem_nil, or_false] at h
  unfold ifStatement
  rcases h with rfl | rfl
  · unfold thenHeader
    infer_instance
  · unfold elseHeader thenHeader
    simp only [bind_assoc, pure_bind]
    infer_instance

theorem leads_whileStatement (h : header ∈ headers settings .kwWhile) :
    Leads settings header (whileStatement (statement settings)) := by
  simp only [headers, List.mem_cons, List.not_mem_nil, or_false] at h
  subst h
  unfold whileHeader whileStatement
  infer_instance

theorem leads_loopStatement (h : header ∈ headers settings .kwLoop) :
    Leads settings header (loopStatement (statement settings)) := by
  simp only [headers, List.mem_cons, List.not_mem_nil, or_false] at h
  subst h
  unfold countingHeader loopStatement
  infer_instance

theorem leads_whenStatement (h : header ∈ headers settings .kwWhen) :
    Leads settings header (whenStatement settings (statement settings)) := by
  simp only [headers, List.mem_cons, List.not_mem_nil, or_false] at h
  unfold whenStatement
  rcases h with rfl | rfl | rfl
  · unfold negativeHeader
    infer_instance
  · unfold zeroHeader negativeHeader
    simp only [bind_assoc, pure_bind]
    infer_instance
  · unfold positiveHeader zeroHeader negativeHeader
    simp only [bind_assoc, pure_bind]
    infer_instance

/-- What is read of a list goes on behind each of its statements. -/
theorem ReachesItem.steps {closer : TokenKind} {nodes : List Node}
    (h : ReachesItem settings closer nodes s s') :
    (stateBehind (statement settings s')).Steps
      (stateBehind (loop (listTurn settings (statement settings) closer) nodes s)) := by
  have hunroll := loop_unrolls
    (listTurn_progressive settings (statement_isStatementParser settings) closer)
  induction h with
  | @here nodes s hcloser hend =>
    rw [hunroll nodes]
    have hturn : (stateBehind (statement settings s)).Steps
        (stateBehind (listTurn settings (statement settings) closer nodes s)) := by
      unfold listTurn
      dsimp only
      rw [kind_bind, if_neg (by simp [hcloser, hend])]
      exact stateBehind_bind
    have := stepwise_option (pure nodes)
      (loop (listTurn settings (statement settings) closer))
    exact hturn.trans stateBehind_bind
  | @later nodes nodes' s s₁ s' hturn _ ih =>
    rw [hunroll nodes, bind_apply, hturn]
    exact ih

theorem ReachesItem.steps_statementList {closer : TokenKind}
    (h : ReachesItem settings closer [] s s') (missing : Cause) :
    (stateBehind (statement settings s')).Steps
      (stateBehind (statementList settings (statement settings) closer missing s)) :=
  h.steps.trans stateBehind_bind

theorem ReachesItem.steps_compound (h : ReachesItem settings .kwEnd [] s.advance s') :
    (stateBehind (statement settings s')).Steps
      (stateBehind (compound settings (statement settings) s)) := by
  unfold compound
  rw [line_bind, advance_bind]
  exact (h.steps_statementList _).trans stateBehind_bind

theorem ReachesPart.steps (h : ReachesPart settings s s') :
    (stateBehind (statement settings s')).Steps (stateBehind (statement settings s)) := by
  have heq : statement settings s = statementLevel settings (statement settings) s :=
    congrFun (statement_eq settings) s
  rw [heq]
  unfold statementLevel
  rw [kind_bind]
  cases h with
  | header hmem hrun =>
    generalize s.kind = k at hmem
    cases k
    case kwIf => exact (leads_ifStatement hmem).steps s s' hrun
    case kwWhile => exact (leads_whileStatement hmem).steps s s' hrun
    case kwLoop => exact (leads_loopStatement hmem).steps s s' hrun
    case kwWhen => exact (leads_whenStatement hmem).steps s s' hrun
    all_goals cases hmem
  | item hcloser hitem =>
    generalize s.kind = k at hcloser
    cases k
    case kwBegin =>
      cases hcloser
      exact hitem.steps_compound
    case kwRepeat =>
      cases hcloser
      dsimp only
      unfold repeatStatement
      rw [line_bind, advance_bind]
      exact (hitem.steps_statementList _).trans stateBehind_bind
    all_goals cases hcloser

theorem ReachesWithin.steps (h : ReachesWithin settings s s') :
    (stateBehind (statement settings s')).Steps (stateBehind (statement settings s)) := by
  induction h with
  | refl => exact Steps.refl _
  | tail _ hpart ih => exact hpart.steps.trans ih

/-- Whatever a run reads, it goes on behind each statement. -/
theorem ReachesStatement.steps (h : ReachesStatement settings s s') :
    (stateBehind (statement settings s')).Steps (stateBehind (program settings s)) := by
  unfold program
  rw [kind_bind]
  cases h with
  | block hk hitem hwithin =>
    rw [if_pos hk]
    exact hwithin.steps.trans (hitem.steps_compound.trans stateBehind_bind)
  | bare hk hitem hwithin =>
    rw [if_neg hk, line_bind]
    exact hwithin.steps.trans ((hitem.steps_statementList _).trans stateBehind_bind)

end

end PascalFront.Parser
