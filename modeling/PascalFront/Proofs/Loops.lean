-- The loops of source programs by their equations, without a bound. No run gives
-- back any of its budget, so the budget is always a bound for the turns to come.
import PascalFront.Proofs.Meaning

namespace PascalFront

namespace Run

/-! ## Runs and their budget -/

/-- A run that gives back none of its budget. -/
class Thrifty (r : Run α) : Prop where
  budget_le : ∀ m, (r m).2.budget ≤ m.budget

theorem budget_note (m : Machine) (e : Event) : (m.note e).budget = m.budget - 1 := by
  unfold Machine.note
  by_cases h : m.budget = 0
  · simp [h]
  · simp [h]

instance (a : α) : Thrifty (pure a : Run α) := ⟨fun _ => Nat.le_refl _⟩

instance {r : Run α} {f : α → Run β} [hr : Thrifty r] [hf : ∀ a, Thrifty (f a)] :
    Thrifty (r >>= f) :=
  ⟨fun m => Nat.le_trans ((hf (r m).1).budget_le (r m).2) (hr.budget_le m)⟩

instance {c : Prop} [Decidable c] {r r' : Run α} [Thrifty r] [Thrifty r'] :
    Thrifty (if c then r else r') := by
  split <;> infer_instance

instance : Thrifty spent := ⟨fun _ => Nat.le_refl _⟩

instance (e : Event) : Thrifty (note e) := by
  constructor
  intro m
  have := budget_note m e
  simp only [note]
  omega

instance (name : String) : Thrifty (read name) := by
  constructor
  intro m
  have := budget_note m (.read name (m.store name))
  simp only [read]
  split
  · exact Nat.le_refl _
  · omega

instance (name : String) (value : Int) : Thrifty (write name value) := by
  constructor
  intro m
  have := budget_note m (.write name value)
  simp only [write]
  split
  · exact Nat.le_refl _
  · split
    · exact Nat.le_refl _
    · simp only [Machine.set]
      omega

theorem thrifty_mapM (f : α → Run β) [∀ a, Thrifty (f a)] (as : List α) :
    Thrifty (as.mapM f) := by
  induction as with
  | nil =>
    rw [List.mapM_nil]
    infer_instance
  | cons a as ih =>
    rw [List.mapM_cons]
    infer_instance

/-! ## The equation of a loop -/

section

/-- A turn, and `rest` behind it if the turn asks for another one. -/
def once (turn : Run Bool) (rest : Run Unit) : Run Unit := do
  if !(← spent) then
    note .turn
    if ← turn then rest

variable {turn : Run Bool} [ht : Thrifty turn]

instance {rest : Run Unit} [Thrifty rest] : Thrifty (once turn rest) := by
  unfold once
  infer_instance

/-- What comes behind a turn starts with less of the budget. -/
theorem once_congr {rest rest' : Run Unit} {m : Machine}
    (h : ∀ m' : Machine, m'.budget < m.budget → rest m' = rest' m') :
    once turn rest m = once turn rest' m := by
  by_cases hspent : m.budget = 0
  · simp [once, spent, hspent, bind, StateT.bind]
  · have hlt : (turn (m.note .turn)).2.budget < m.budget := by
      have := ht.budget_le (m.note .turn)
      rw [budget_note] at this
      omega
    have hrest := h _ hlt
    rcases hturn : turn (m.note .turn) with ⟨again, m'⟩
    rw [hturn] at hrest
    cases again with
    | true => simp [once, spent, note, hspent, hturn, hrest, bind, StateT.bind]
    | false => simp [once, spent, note, hspent, hturn, bind, StateT.bind]

instance (n : Nat) : Thrifty (turns turn n) := by
  induction n with
  | zero => exact inferInstanceAs (Thrifty (pure ()))
  | succ n ih => exact inferInstanceAs (Thrifty (once turn (turns turn n)))

instance : Thrifty (loop turn) := ⟨fun m => Thrifty.budget_le (r := turns turn m.budget) m⟩

/-- A bound that covers the budget is as good as any other. -/
theorem turns_congr (n n' : Nat) (m : Machine) (h : m.budget ≤ n) (h' : m.budget ≤ n') :
    turns turn n m = turns turn n' m := by
  have hdone (n : Nat) (m : Machine) (h : m.budget = 0) : turns turn n m = ((), m) := by
    cases n with
    | zero => rfl
    | succ n =>
      simp [turns, spent, h, bind, StateT.bind]
      rfl
  induction n generalizing n' m with
  | zero => rw [hdone 0 m (Nat.le_zero.mp h), hdone n' m (Nat.le_zero.mp h)]
  | succ n ih =>
    cases n' with
    | zero => rw [hdone (n + 1) m (Nat.le_zero.mp h'), hdone 0 m (Nat.le_zero.mp h')]
    | succ n' =>
      refine once_congr fun m' hlt => ?_
      exact ih n' m' (by omega) (by omega)

/-- A loop takes a turn and starts again as long as the turn asks for it. -/
theorem loop_eq : loop turn = once turn (loop turn) := by
  funext m
  have hunfold : loop turn m = turns turn (m.budget + 1) m :=
    turns_congr _ _ _ (Nat.le_refl _) (Nat.le_succ _)
  rw [hunfold]
  refine once_congr fun m' hlt => ?_
  exact turns_congr _ _ _ (Nat.le_of_lt hlt) (Nat.le_refl _)

end

end Run

/-! ## Every run is thrifty -/

section

variable (I : Interpretation)

instance (e : Expr) : Run.Thrifty (e.eval I) := by
  induction e <;> unfold Expr.eval <;> infer_instance

instance (target : Name) (value : Expr) : Run.Thrifty (value.assignTo I target) := by
  unfold Expr.assignTo
  infer_instance

mutual
theorem Stmt.thrifty_run : ∀ x : Stmt, Run.Thrifty (x.run I)
  | .empty _ => by
    unfold Stmt.run
    infer_instance
  | .block _ body => by
    unfold Stmt.run
    exact Stmt.thrifty_runAll body
  | .assign _ _ => by
    unfold Stmt.run
    infer_instance
  | .call _ args => by
    have := Run.thrifty_mapM (Expr.eval I) (args.getD [])
    unfold Stmt.run
    infer_instance
  | .ifThen _ _ yes => by
    have := Stmt.thrifty_run yes
    unfold Stmt.run
    infer_instance
  | .ifElse _ _ yes no => by
    have := Stmt.thrifty_run yes
    have := Stmt.thrifty_run no
    unfold Stmt.run
    infer_instance
  | .whileDo _ _ body => by
    have := Stmt.thrifty_run body
    unfold Stmt.run
    infer_instance
  | .repeatUntil _ body _ _ => by
    have := Stmt.thrifty_runAll body
    unfold Stmt.run
    infer_instance
  | .loop _ _ _ _ _ body => by
    have := Stmt.thrifty_run body
    unfold Stmt.run
    infer_instance
  | .when _ _ _ negative _ zero positive => by
    have := Stmt.thrifty_run negative
    have := Stmt.thrifty_run zero
    have := Stmt.thrifty_run positive
    unfold Stmt.run
    infer_instance

theorem Stmt.thrifty_runAll : ∀ xs : List Stmt, Run.Thrifty (Stmt.runAll I xs)
  | [] => by
    unfold Stmt.runAll
    infer_instance
  | x :: rest => by
    have := Stmt.thrifty_run x
    have := Stmt.thrifty_runAll rest
    unfold Stmt.runAll
    infer_instance
end

/-! ## The loops of the language -/

namespace Stmt

/-- WHILE tests before each turn. -/
theorem run_whileDo (line : Nat) (condition : Expr) (body : Stmt) :
    run I (whileDo line condition body) = (do
      if !(← Run.spent) then
        Run.note .turn
        if I.truth (← condition.eval I) then
          run I body
          run I (whileDo line condition body)) := by
  have := thrifty_run I body
  have hloop : run I (whileDo line condition body) = Run.loop (do
      if I.truth (← condition.eval I) then
        run I body
        return true
      else return false) := by rw [run]
  refine hloop.trans (Run.loop_eq.trans ?_)
  rw [← hloop, Run.once]
  refine congrArg (Run.spent >>= ·) (funext fun spent => ?_)
  cases spent with
  | true => rfl
  | false =>
    simp only [Bool.not_false, if_true, bind_assoc]
    refine congrArg (Run.note .turn >>= ·) (funext fun _ => ?_)
    refine congrArg (condition.eval I >>= ·) (funext fun value => ?_)
    by_cases h : I.truth value = true
    · simp [h]
    · simp [h]

/-- REPEAT tests behind each turn. -/
theorem run_repeatUntil (line testLine : Nat) (body : List Stmt) (condition : Expr) :
    run I (repeatUntil line body testLine condition) = (do
      if !(← Run.spent) then
        Run.note .turn
        runAll I body
        if !I.truth (← condition.eval I) then
          run I (repeatUntil line body testLine condition)) := by
  have := thrifty_runAll I body
  have hloop : run I (repeatUntil line body testLine condition) = Run.loop (do
      runAll I body
      return !I.truth (← condition.eval I)) := by rw [run]
  refine hloop.trans (Run.loop_eq.trans ?_)
  rw [← hloop, Run.once]
  simp only [bind_assoc, pure_bind]

/-- LOOP is a WHILE behind its first assignment, with its second one at the end of each turn. -/
theorem run_loop (counter target : Name) (first condition next : Expr) (body : Stmt)
    (line line' : Nat) :
    run I (loop counter first condition target next body) =
      runAll I [assign counter first,
        whileDo line condition (block line' [body, assign target next])] := by
  simp only [run, runAll, bind_assoc, bind_pure_unit]

end Stmt

end

end PascalFront
