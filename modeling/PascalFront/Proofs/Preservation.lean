-- A program and its tree do the same. They run on machines that differ in the
-- hidden variables only, and no test of a hidden variable is ever made behind a
-- statement that could have stored to it: the two tests of a WHEN statement
-- stand right behind its own assignment.
import PascalFront.Proofs.Meaning
import PascalFront.Proofs.Steps

namespace PascalFront

/-! ## Machines that look alike -/

/-- Machines with the same events and the same values of all variables but the hidden ones. -/
structure Machine.Alike (m m' : Machine) : Prop where
  events : m.events = m'.events
  budget : m.budget = m'.budget
  store : ∀ name, isHidden name = false → m.store name = m'.store name

theorem Machine.Alike.note {m m' : Machine} (h : m.Alike m') (e : Event) :
    (m.note e).Alike (m'.note e) := by
  unfold Machine.note
  rw [h.budget, h.events]
  split
  · exact ⟨h.events, h.budget, h.store⟩
  · exact ⟨rfl, rfl, h.store⟩

theorem Machine.Alike.set {m m' : Machine} (h : m.Alike m') (name : String) (value : Int) :
    (m.set name value).Alike (m'.set name value) := by
  refine ⟨h.events, h.budget, fun n hn => ?_⟩
  simp only [Machine.set]
  split
  · rfl
  · exact h.store n hn

/-- A hidden variable may change on one side alone. -/
theorem Machine.Alike.set_hidden {m m' : Machine} (h : m.Alike m') {name : String}
    (hidden : isHidden name = true) (value : Int) : m.Alike (m'.set name value) := by
  refine ⟨h.events, h.budget, fun n hn => ?_⟩
  have hne : n ≠ name := by
    intro heq
    rw [heq, hidden] at hn
    cases hn
  simpa [Machine.set, hne] using h.store n hn

namespace Run

/-- Runs that give the same on machines that look alike, and leave them so. -/
def Same (p q : Run α) : Prop :=
  ∀ m m' : Machine, m.Alike m' → (p m).1 = (q m').1 ∧ (p m).2.Alike (q m').2

theorem Same.pure (a : α) : Same (pure a) (pure a) := fun _ _ h => ⟨rfl, h⟩

theorem Same.bind {p q : Run α} {f g : α → Run β} (hp : Same p q) (hf : ∀ a, Same (f a) (g a)) :
    Same (p >>= f) (q >>= g) := by
  intro m m' h
  obtain ⟨heq, halike⟩ := hp m m' h
  have hrest := hf (p m).1 _ _ halike
  change (f (p m).1 (p m).2).1 = (g (q m').1 (q m').2).1 ∧
    (f (p m).1 (p m).2).2.Alike (g (q m').1 (q m').2).2
  rw [← heq]
  exact hrest

theorem Same.ite {c : Prop} [Decidable c] {p q p' q' : Run α} (hp : Same p q) (hp' : Same p' q') :
    Same (if c then p else p') (if c then q else q') := by
  split
  · exact hp
  · exact hp'

theorem Same.note (e : Event) : Same (note e) (note e) := fun _ _ h => ⟨rfl, h.note e⟩

theorem Same.read {name : String} (hv : isHidden name = false) : Same (read name) (read name) := by
  intro m m' h
  unfold Run.read
  rw [hv, h.store name hv]
  exact ⟨rfl, h.note _⟩

theorem Same.write {name : String} (hv : isHidden name = false) (value : Int) :
    Same (write name value) (write name value) := by
  intro m m' h
  unfold Run.write
  rw [hv, h.budget, if_neg Bool.false_ne_true, if_neg Bool.false_ne_true]
  by_cases hspent : m'.budget = 0
  · rw [if_pos hspent, if_pos hspent]
    exact ⟨rfl, h⟩
  · rw [if_neg hspent, if_neg hspent]
    exact ⟨rfl, (h.note _).set name value⟩

theorem Same.spent : Same spent spent := by
  intro m m' h
  unfold Run.spent
  rw [h.budget]
  exact ⟨rfl, h⟩

theorem Same.turns {turn turn' : Run Bool} (h : Same turn turn') (n : Nat) :
    Same (turns turn n) (turns turn' n) := by
  induction n with
  | zero => exact Same.pure ()
  | succ n ih =>
    refine Same.spent.bind fun b => Same.ite ?_ (Same.pure ())
    refine (Same.note .turn).bind fun _ => h.bind fun more => ?_
    exact Same.ite ih (Same.pure ())

theorem Same.loop {turn turn' : Run Bool} (h : Same turn turn') :
    Same (loop turn) (loop turn') := by
  intro m m' hm
  unfold Run.loop
  rw [hm.budget]
  exact h.turns m'.budget m m' hm

end Run

/-! ## Names in later tables -/

/-- Lowerings that enter names and forget none. -/
class Grows (p : StateM SymbolTable α) : Prop where
  names : ∀ t : SymbolTable, t.names <+: (p t).2.names

instance (a : α) : Grows (pure a) := ⟨fun t => List.prefix_refl t.names⟩

instance {p : StateM SymbolTable α} {f : α → StateM SymbolTable β} [hp : Grows p]
    [hf : ∀ a, Grows (f a)] : Grows (p >>= f) :=
  ⟨fun t => (hp.names t).trans ((hf (p t).1).names (p t).2)⟩

instance {c : Prop} [Decidable c] {p q : StateM SymbolTable α} [Grows p] [Grows q] :
    Grows (if c then p else q) := by
  split <;> infer_instance

instance (name : String) (line : Nat) : Grows (SymbolTable.mentioned name line) :=
  ⟨fun t => (t.enterAt_spec name line).2⟩

instance (n : Name) : Grows n.enter := by unfold Name.enter; infer_instance

instance (e : Expr) : Grows e.lower := by
  induction e <;> unfold Expr.lower <;> infer_instance

instance (es : List Expr) : Grows (es.mapM Expr.lower) := by
  induction es with
  | nil => rw [List.mapM_nil]; infer_instance
  | cons e es ih => rw [List.mapM_cons]; infer_instance

instance (line : Nat) (target : Name) (value : Expr) : Grows (value.lowerAssign line target) := by
  unfold Expr.lowerAssign; infer_instance

mutual
theorem grows_lower (settings : Settings) : ∀ x : Stmt, Grows (x.lower settings)
  | .empty _ => by unfold Stmt.lower; infer_instance
  | .block _ body => by
    have := grows_lowerAll settings body
    unfold Stmt.lower; infer_instance
  | .assign _ _ => by unfold Stmt.lower; infer_instance
  | .call _ none => by unfold Stmt.lower; infer_instance
  | .call _ (some _) => by unfold Stmt.lower; infer_instance
  | .ifThen _ _ yes => by
    have := grows_lower settings yes
    unfold Stmt.lower; infer_instance
  | .ifElse _ _ yes no => by
    have := grows_lower settings yes
    have := grows_lower settings no
    unfold Stmt.lower; infer_instance
  | .whileDo _ _ body => by
    have := grows_lower settings body
    unfold Stmt.lower; infer_instance
  | .repeatUntil _ body _ _ => by
    have := grows_lowerAll settings body
    unfold Stmt.lower; infer_instance
  | .loop _ _ _ _ _ body => by
    have := grows_lower settings body
    unfold Stmt.lower; infer_instance
  | .when _ _ _ negative _ zero positive => by
    have := grows_lower settings negative
    have := grows_lower settings zero
    have := grows_lower settings positive
    unfold Stmt.lower; infer_instance

theorem grows_lowerAll (settings : Settings) : ∀ xs : List Stmt, Grows (Stmt.lowerAll settings xs)
  | [] => by unfold Stmt.lowerAll; infer_instance
  | x :: xs => by
    have := grows_lower settings x
    have := grows_lowerAll settings xs
    unfold Stmt.lowerAll; infer_instance
end

/-- A number keeps its name in every later table. -/
theorem nameOf_mentioned {name : String} {line : Nat} {t final : SymbolTable}
    (h : (SymbolTable.mentioned name line t).2.names <+: final.names) :
    final.nameOf (SymbolTable.mentioned name line t).1 = name := by
  have hname : (SymbolTable.mentioned name line t).2.names[
      (SymbolTable.mentioned name line t).1.number]? = some name := (t.enterAt_spec name line).1
  obtain ⟨more, hmore⟩ := h
  have hlt := (List.getElem?_eq_some_iff.mp hname).1
  rw [SymbolTable.nameOf_eq, ← hmore, List.getElem?_append_left hlt, hname]
  rfl

/-! ## Visible names -/

/-- A name that no hidden variable has. -/
def Name.Visible (n : Name) : Prop := isHidden n.folded = false

def Expr.Visible : Expr → Prop
  | name n => n.Visible
  | literal _ => True
  | not e | negate e => e.Visible
  | binary _ left right => left.Visible ∧ right.Visible

mutual
/-- All names in a statement are visible. -/
def Stmt.Visible : Stmt → Prop
  | empty _ => True
  | block _ body => AllVisible body
  | assign target value => target.Visible ∧ value.Visible
  | call procedure args => procedure.Visible ∧ ∀ es, args = some es → ∀ e ∈ es, e.Visible
  | ifThen _ condition yes => condition.Visible ∧ yes.Visible
  | ifElse _ condition yes no => condition.Visible ∧ yes.Visible ∧ no.Visible
  | whileDo _ condition body => condition.Visible ∧ body.Visible
  | repeatUntil _ body _ condition => AllVisible body ∧ condition.Visible
  | loop counter first condition target next body =>
    (counter.Visible ∧ first.Visible) ∧ condition.Visible ∧
      (target.Visible ∧ next.Visible) ∧ body.Visible
  | when _ _ value negative _ zero positive =>
    value.Visible ∧ negative.Visible ∧ zero.Visible ∧ positive.Visible

def Stmt.AllVisible : List Stmt → Prop
  | [] => True
  | s :: rest => s.Visible ∧ AllVisible rest
end

/-! ## Expressions -/

section

variable (I : Interpretation) (final : SymbolTable)

theorem eval_var (id : SymbolId) : (Node.var id).eval I final = Run.read (final.nameOf id) := rfl

theorem eval_constant (v : Value) : v.node.eval I final = pure (I.constant v) := by
  cases v <;> rfl

theorem eval_binary (op : Operator) (left right : Node) :
    (Node.binary op.node left right).eval I final =
      (do return I.binary op (← left.eval I final) (← right.eval I final)) := by
  cases op <;> rfl

variable {final}

open Run

theorem read_enter {n : Name} (hv : n.Visible) {t : SymbolTable}
    (h : (n.enter t).2.names <+: final.names) :
    Same (read n.folded) ((Node.var (n.enter t).1).eval I final) := by
  have hname : final.nameOf (n.enter t).1 = n.folded := nameOf_mentioned h
  rw [eval_var, hname]
  exact Same.read hv

theorem eval_lower (e : Expr) (hv : e.Visible) (t : SymbolTable)
    (h : (e.lower t).2.names <+: final.names) :
    Same (e.eval I) ((e.lower t).1.eval I final) := by
  induction e generalizing t with
  | name n => exact read_enter I hv h
  | literal v =>
    change Same _ (v.node.eval I final)
    rw [eval_constant]
    exact Same.pure _
  | not e ih => exact (ih hv t h).bind fun a => Same.pure _
  | negate e ih => exact (ih hv t h).bind fun a => Same.pure _
  | binary op left right ihl ihr =>
    have hleft := ((inferInstance : Grows right.lower).names (left.lower t).2).trans h
    change Same _ ((Node.binary op.node _ _).eval I final)
    rw [eval_binary]
    refine (ihl hv.1 t hleft).bind fun a => ?_
    exact (ihr hv.2 _ h).bind fun b => Same.pure _

theorem eval_arguments (es : List Expr) (hv : ∀ e ∈ es, e.Visible) (t : SymbolTable)
    (h : (es.mapM Expr.lower t).2.names <+: final.names) :
    Same (es.mapM (Expr.eval I)) (Node.values I final (es.mapM Expr.lower t).1) := by
  unfold Node.values
  induction es generalizing t with
  | nil => exact Same.pure []
  | cons e es ih =>
    rw [List.mapM_cons] at h
    have hrest : (es.mapM Expr.lower (e.lower t).2).2.names <+: final.names := h
    have hfirst := ((inferInstance : Grows (es.mapM Expr.lower)).names (e.lower t).2).trans hrest
    have hnodes : ((e :: es).mapM Expr.lower t).1 =
        (e.lower t).1 :: (es.mapM Expr.lower (e.lower t).2).1 := by
      rw [List.mapM_cons]
      rfl
    rw [hnodes, List.mapM_cons, List.mapM_cons]
    refine (eval_lower I e (hv e List.mem_cons_self) t hfirst).bind fun a => ?_
    refine (ih (fun e he => hv e (List.mem_cons_of_mem _ he)) _ hrest).bind fun as => ?_
    exact Same.pure _

theorem assign_lower {line : Nat} {target : Name} {value : Expr} (ht : target.Visible)
    (hv : value.Visible) (t : SymbolTable)
    (h : (value.lowerAssign line target t).2.names <+: final.names) :
    Same (value.assignTo I target) ((value.lowerAssign line target t).1.run I final) := by
  have hname : final.nameOf (target.enter t).1 = target.folded :=
    nameOf_mentioned (((inferInstance : Grows value.lower).names (target.enter t).2).trans h)
  have hrun : (value.lowerAssign line target t).1.run I final = (do
      let v ← (value.lower (target.enter t).2).1.eval I final
      write (final.nameOf (target.enter t).1) v) := rfl
  rw [hrun, hname]
  exact (eval_lower I value hv _ h).bind fun v => Same.write ht v

/-! ## Statements -/

variable (final)

/-- A statement and its tree do the same, whatever names are known in front of it. -/
def Preserved (x : Stmt) : Prop :=
  x.Visible → ∀ t, (x.lower {} t).2.names <+: final.names →
    Same (x.run I) ((x.lower {} t).1.run I final)

def AllPreserved (xs : List Stmt) : Prop :=
  Stmt.AllVisible xs → ∀ t, (Stmt.lowerAll {} xs t).2.names <+: final.names →
    Same (Stmt.runAll I xs) (Node.runAll I final (Stmt.lowerAll {} xs t).1)

variable {I final} {line : Nat} {c : Expr} {x y z : Stmt} {xs : List Stmt}

theorem preserved_assign {target : Name} {value : Expr} :
    Preserved I final (.assign target value) :=
  fun hv t h => assign_lower I hv.1 hv.2 t h

theorem preserved_block (hb : AllPreserved I final xs) : Preserved I final (.block line xs) :=
  fun hv t h => hb hv t h

theorem preserved_call {procedure : Name} {args : Option (List Expr)} :
    Preserved I final (.call procedure args) := by
  intro hv t h
  cases args with
  | none =>
    have hname : final.nameOf (procedure.enter t).1 = procedure.folded := nameOf_mentioned h
    change Same (note (.call procedure.folded []))
      (note (.call (final.nameOf (procedure.enter t).1) []))
    rw [hname]
    exact Same.note _
  | some es =>
    have hgrows := (inferInstance : Grows (es.mapM Expr.lower)).names (procedure.enter t).2
    have hname : final.nameOf (procedure.enter t).1 = procedure.folded :=
      nameOf_mentioned (hgrows.trans h)
    have hchildren : ∀ ns : List Node, [Node.statement .parameters procedure.line ns].flatMap
        Node.children = ns := by
      intro ns
      simp [Node.statement]
    change Same (do
        let values ← es.mapM (Expr.eval I)
        note (.call procedure.folded values))
      (do
        let values ← Node.values I final ([Node.statement .parameters procedure.line
          (es.mapM Expr.lower (procedure.enter t).2).1].flatMap Node.children)
        note (.call (final.nameOf (procedure.enter t).1) values))
    rw [hname, hchildren]
    exact (eval_arguments I es (hv.2 es rfl) _ h).bind fun values => Same.note _

theorem preserved_ifThen (hx : Preserved I final x) : Preserved I final (.ifThen line c x) := by
  intro hv t h
  have hc := eval_lower I c hv.1 t (((grows_lower {} x).names (c.lower t).2).trans h)
  change Same (c.eval I >>= fun v => if I.truth v then x.run I else pure ())
    ((c.lower t).1.eval I final >>= fun v =>
      if I.truth v then (x.lower {} (c.lower t).2).1.run I final else pure ())
  exact hc.bind fun v => Same.ite (hx hv.2 _ h) (Same.pure ())

theorem preserved_ifElse (hx : Preserved I final x) (hy : Preserved I final y) :
    Preserved I final (.ifElse line c x y) := by
  intro ⟨hcv, hxv, hyv⟩ t h
  have hbehindX := ((grows_lower {} y).names (x.lower {} (c.lower t).2).2).trans h
  have hbehindC := ((grows_lower {} x).names (c.lower t).2).trans hbehindX
  change Same (c.eval I >>= fun v => if I.truth v then x.run I else y.run I)
    ((c.lower t).1.eval I final >>= fun v =>
      if I.truth v then (x.lower {} (c.lower t).2).1.run I final
      else (y.lower {} (x.lower {} (c.lower t).2).2).1.run I final)
  exact (eval_lower I c hcv t hbehindC).bind fun v => Same.ite (hx hxv _ hbehindX) (hy hyv _ h)

/-! ## Loops -/

theorem runTurn_test (e : Node) (rest : List Node) :
    Node.runTurn I final (.statement .test line [e] :: rest) =
      (e.eval I final >>= fun v =>
        if I.truth v then Node.runTurn I final rest else pure false) := rfl

theorem runTurn_statement {n : Node} (hn : n.kind ≠ .test) (rest : List Node) :
    Node.runTurn I final (n :: rest) = (n.run I final >>= fun _ => Node.runTurn I final rest) := by
  rw [Node.runTurn, if_neg hn]

theorem runTurn_append {ns : List Node} (hns : ∀ n ∈ ns, n.kind ≠ .test) (rest : List Node) :
    Node.runTurn I final (ns ++ rest) =
      (Node.runAll I final ns >>= fun _ => Node.runTurn I final rest) := by
  induction ns with
  | nil => rfl
  | cons n ns ih =>
    have hrest := ih fun m hm => hns m (List.mem_cons_of_mem n hm)
    rw [List.cons_append, runTurn_statement (hns n List.mem_cons_self), hrest]
    rfl

theorem lower_kind_ne_test (settings : Settings) (x : Stmt) (t : SymbolTable) :
    (x.lower settings t).1.kind ≠ .test := by
  cases x with
  | call _ args => cases args <;> exact NodeKind.noConfusion
  | _ => exact NodeKind.noConfusion

/-- The last statement of a list may be left out when it is empty. -/
theorem last_empty_or_kept (x : Stmt) (xs : List Stmt) :
    (xs = [] ∧ x.isEmpty = true) ∨ (xs ≠ [] ∨ x.isEmpty = false) := by
  cases xs with
  | nil => cases x.isEmpty <;> simp
  | cons => simp

theorem lowerAll_kind_ne_test (settings : Settings) (xs : List Stmt) (t : SymbolTable) :
    ∀ n ∈ (Stmt.lowerAll settings xs t).1, n.kind ≠ .test := by
  induction xs generalizing t with
  | nil => exact fun n hn => absurd hn List.not_mem_nil
  | cons x xs ih =>
    rcases last_empty_or_kept x xs with ⟨rfl, hempty⟩ | hkept
    · rw [Stmt.lowerAll_last_empty hempty]
      exact fun n hn => absurd hn List.not_mem_nil
    · rw [Stmt.lowerAll_cons hkept]
      intro n hn
      rcases List.mem_cons.mp hn with rfl | hn
      · exact lower_kind_ne_test settings x t
      · exact ih _ n hn

theorem preserved_whileDo (hx : Preserved I final x) : Preserved I final (.whileDo line c x) := by
  intro hv t h
  have hc := eval_lower I c hv.1 t (((grows_lower {} x).names (c.lower t).2).trans h)
  have hturn : Same (do if I.truth (← c.eval I) then x.run I; return true else return false)
      (Node.runTurn I final
        [.statement .test line [(c.lower t).1], (x.lower {} (c.lower t).2).1]) := by
    rw [runTurn_test, runTurn_statement (lower_kind_ne_test {} x _)]
    refine hc.bind fun v => Same.ite ?_ (Same.pure false)
    exact (hx hv.2 _ h).bind fun _ => Same.pure true
  exact hturn.loop

theorem preserved_repeatUntil {testLine : Nat} (hxs : AllPreserved I final xs) :
    Preserved I final (.repeatUntil line xs testLine c) := by
  intro hv t h
  have hgrows := (inferInstance : Grows c.lower).names (Stmt.lowerAll {} xs t).2
  have hbody := hxs hv.1 t (hgrows.trans h)
  have hc := eval_lower I c hv.2 (Stmt.lowerAll {} xs t).2 h
  have hturn : Same (do Stmt.runAll I xs; return !I.truth (← c.eval I))
      (Node.runTurn I final ((Stmt.lowerAll {} xs t).1 ++ [.statement .test testLine
        [.operator .not [(c.lower (Stmt.lowerAll {} xs t).2).1]]])) := by
    rw [runTurn_append (lowerAll_kind_ne_test {} xs t), runTurn_test]
    refine hbody.bind fun _ => ?_
    change Same (c.eval I >>= fun v => pure (!I.truth v))
      ((c.lower (Stmt.lowerAll {} xs t).2).1.eval I final >>= fun v =>
        if I.truth (I.not v) then pure true else pure false)
    refine hc.bind fun v => ?_
    rw [I.truth_not]
    cases I.truth v <;> exact Same.pure _
  exact hturn.loop

theorem preserved_loop {counter target : Name} {first next : Expr} (hx : Preserved I final x) :
    Preserved I final (.loop counter first c target next x) := by
  intro ⟨⟨hcounter, hfirst⟩, hcv, ⟨htarget, hnext⟩, hxv⟩ t h
  let t₁ := (first.lowerAssign counter.line counter t).2
  let t₂ := (c.lower t₁).2
  let t₃ := (next.lowerAssign counter.line target t₂).2
  have h₃ : t₃.names <+: final.names := ((grows_lower {} x).names t₃).trans h
  have h₂ : t₂.names <+: final.names :=
    ((inferInstance : Grows (next.lowerAssign counter.line target)).names t₂).trans h₃
  have h₁ : t₁.names <+: final.names := ((inferInstance : Grows c.lower).names t₁).trans h₂
  have hturn : Same (do
        if I.truth (← c.eval I) then x.run I; next.assignTo I target; return true
        else return false)
      (Node.runTurn I final [.statement .test counter.line [(c.lower t₁).1], (x.lower {} t₃).1,
        (next.lowerAssign counter.line target t₂).1]) := by
    rw [runTurn_test, runTurn_statement (lower_kind_ne_test {} x _),
      runTurn_statement NodeKind.noConfusion]
    refine (eval_lower I c hcv t₁ h₂).bind fun v => Same.ite ?_ (Same.pure false)
    refine (hx hxv t₃ h).bind fun _ => ?_
    exact (assign_lower I htarget hnext t₂ h₃).bind fun _ => Same.pure true
  exact (assign_lower I hcounter hfirst t h₁).bind fun _ => hturn.loop.bind fun _ => Same.pure ()

/-! ## WHEN statements -/

theorem isHidden_whenName (line : Nat) : isHidden (({} : Settings).whenName line) = true := by
  unfold isHidden Settings.whenName
  rw [String.toList_append, List.isPrefixOf_iff_prefix]
  exact List.prefix_append _ _

theorem eval_signTest {op : Operator} {hidden : SymbolId}
    (hname : isHidden (final.nameOf hidden) = true) (m : Machine) :
    (Node.signTest op hidden).eval I final m =
      (I.binary op (m.store (final.nameOf hidden)) 0, m) := by
  have hread : (Node.var hidden).eval I final m = (m.store (final.nameOf hidden), m) := by
    rw [eval_var]
    unfold Run.read
    rw [if_pos hname]
  have hzero : (Node.integer 0).eval I final m = (0, m) := by
    change (I.constant (.integer 0), m) = _
    rw [I.constant_zero]
  unfold Node.signTest
  rw [eval_binary]
  change (I.binary op ((Node.var hidden).eval I final m).1 ((Node.integer 0).eval I final
    ((Node.var hidden).eval I final m).2).1, ((Node.integer 0).eval I final
    ((Node.var hidden).eval I final m).2).2) = _
  rw [hread, hzero]

theorem test_signTest {op : Operator} {hidden : SymbolId} {rest : List Node}
    (hname : isHidden (final.nameOf hidden) = true) (m : Machine) :
    Node.test I final (.signTest op hidden :: rest) m =
      (I.truth (I.binary op (m.store (final.nameOf hidden)) 0), m) := by
  change (I.truth ((Node.signTest op hidden).eval I final m).1,
    ((Node.signTest op hidden).eval I final m).2) = _
  rw [eval_signTest hname]

theorem run_branch_of_test {e yes no : Node} {m m₁ : Machine} {b : Bool}
    (h : Node.test I final [e, yes, no] m = (b, m₁)) :
    (Node.statement .branch line [e, yes, no]).run I final m =
      (if b then yes.run I final else no.run I final) m₁ := by
  change (if (Node.test I final [e, yes, no] m).1 then yes.run I final else no.run I final)
    (Node.test I final [e, yes, no] m).2 = _
  rw [h]

/-- The branches of a WHEN statement, as they hang in its tree. -/
def signBranch (line zeroLine : Nat) (hidden : SymbolId) (n₁ n₂ n₃ : Node) : Node :=
  .statement .branch line [.signTest .less hidden, n₁,
    .statement .branch zeroLine [.signTest .equal hidden, n₂, n₃]]

/-- Both tests of a WHEN statement see the value that is stored right in front of them, since no
statement runs in between. What runs behind them may store another one. -/
theorem choose_by_sign {p q r : Run Unit} {n₁ n₂ n₃ : Node} {hidden : SymbolId} {zeroLine : Nat}
    (hname : isHidden (final.nameOf hidden) = true) (hp : Same p (n₁.run I final))
    (hq : Same q (n₂.run I final)) (hr : Same r (n₃.run I final)) (v : Int) :
    Same (if v < 0 then p else if v = 0 then q else r) (do
      write (final.nameOf hidden) v
      (signBranch line zeroLine hidden n₁ n₂ n₃).run I final) := by
  intro m m' h
  let m₁ := m'.set (final.nameOf hidden) v
  have halike : m.Alike m₁ := h.set_hidden hname v
  have hstore : m₁.store (final.nameOf hidden) = v := by simp [m₁, Machine.set]
  have hwrite : write (final.nameOf hidden) v m' = ((), m₁) := by
    unfold Run.write
    rw [if_pos hname]
  have hless : ∀ rest, Node.test I final (.signTest .less hidden :: rest) m₁ =
      (decide (v < 0), m₁) := by
    intro rest
    rw [test_signTest hname, hstore, I.truth_less_zero]
  have hequal : ∀ rest, Node.test I final (.signTest .equal hidden :: rest) m₁ =
      (decide (v = 0), m₁) := by
    intro rest
    rw [test_signTest hname, hstore, I.truth_equal_zero]
  have htree : (signBranch line zeroLine hidden n₁ n₂ n₃).run I final m₁ =
      (if v < 0 then n₁.run I final else if v = 0 then n₂.run I final else n₃.run I final) m₁ := by
    unfold signBranch
    rw [run_branch_of_test (hless _)]
    by_cases hneg : v < 0
    · simp only [hneg, decide_true, if_true]
    · simp only [hneg, decide_false, Bool.false_eq_true, if_false]
      rw [run_branch_of_test (hequal _)]
      simp only [decide_eq_true_eq]
  change _ = ((signBranch line zeroLine hidden n₁ n₂ n₃).run I final
    (write (final.nameOf hidden) v m').2).1 ∧ Machine.Alike _ ((signBranch line zeroLine hidden
    n₁ n₂ n₃).run I final (write (final.nameOf hidden) v m').2).2
  rw [hwrite, htree]
  exact Same.ite hp (Same.ite hq hr) m m₁ halike

theorem preserved_when {valueLine zeroLine : Nat} (hx : Preserved I final x)
    (hy : Preserved I final y) (hz : Preserved I final z) :
    Preserved I final (.when line valueLine c x zeroLine y z) := by
  intro ⟨hcv, hxv, hyv, hzv⟩ t h
  let name := ({} : Settings).whenName valueLine
  let t₁ := (SymbolTable.mentioned name valueLine (c.lower t).2).2
  let t₂ := (x.lower {} t₁).2
  let t₃ := (y.lower {} t₂).2
  have h₃ : t₃.names <+: final.names := ((grows_lower {} z).names t₃).trans h
  have h₂ : t₂.names <+: final.names := ((grows_lower {} y).names t₂).trans h₃
  have h₁ : t₁.names <+: final.names := ((grows_lower {} x).names t₁).trans h₂
  have h₀ : (c.lower t).2.names <+: final.names :=
    ((inferInstance : Grows (SymbolTable.mentioned name valueLine)).names _).trans h₁
  have hname : final.nameOf (SymbolTable.mentioned name valueLine (c.lower t).2).1 = name :=
    nameOf_mentioned h₁
  have hhidden : isHidden (final.nameOf (SymbolTable.mentioned name valueLine (c.lower t).2).1) =
      true := by
    rw [hname]
    exact isHidden_whenName valueLine
  change Same (c.eval I >>= fun v =>
      if v < 0 then x.run I else if v = 0 then y.run I else z.run I)
    ((c.lower t).1.eval I final >>= fun v => do
      write (final.nameOf (SymbolTable.mentioned name valueLine (c.lower t).2).1) v
      (signBranch line zeroLine (SymbolTable.mentioned name valueLine (c.lower t).2).1
        (x.lower {} t₁).1 (y.lower {} t₂).1 (z.lower {} t₃).1).run I final)
  refine (eval_lower I c hcv t h₀).bind fun v => ?_
  exact choose_by_sign hhidden (hx hxv t₁ h₂) (hy hyv t₂ h₃) (hz hzv t₃ h) v

/-! ## All statements -/

theorem allPreserved_cons (hx : Preserved I final x) (hxs : AllPreserved I final xs) :
    AllPreserved I final (x :: xs) := by
  intro hv t h
  rcases last_empty_or_kept x xs with ⟨rfl, hempty⟩ | hkept
  · rw [Stmt.lowerAll_last_empty hempty]
    cases x with
    | empty => exact Same.pure ()
    | _ => cases hempty
  · rw [Stmt.lowerAll_cons hkept] at h ⊢
    have hbehind := ((grows_lowerAll {} xs).names (x.lower {} t).2).trans h
    exact (hx hv.1 t hbehind).bind fun _ => hxs hv.2 _ h

variable (I final)

mutual
theorem preserved : ∀ x : Stmt, Preserved I final x
  | .empty _ => fun _ _ _ => Same.pure ()
  | .block _ body => preserved_block (allPreserved body)
  | .assign _ _ => preserved_assign
  | .call _ _ => preserved_call
  | .ifThen _ _ yes => preserved_ifThen (preserved yes)
  | .ifElse _ _ yes no => preserved_ifElse (preserved yes) (preserved no)
  | .whileDo _ _ body => preserved_whileDo (preserved body)
  | .repeatUntil _ body _ _ => preserved_repeatUntil (allPreserved body)
  | .loop _ _ _ _ _ body => preserved_loop (preserved body)
  | .when _ _ _ negative _ zero positive =>
    preserved_when (preserved negative) (preserved zero) (preserved positive)

theorem allPreserved : ∀ xs : List Stmt, AllPreserved I final xs
  | [] => fun _ _ _ => Same.pure ()
  | x :: xs => allPreserved_cons (preserved x) (allPreserved xs)
end

end

end PascalFront
