-- The recursions and the loops of the parsers. Both are defined with the tokens
-- ahead as a bound. Here the bound goes away: a loop whose turns take tokens is
-- the one solution of its equation, and so is a parser that takes a token
-- before it calls itself.
import PascalFront.Proofs.Steps

namespace PascalFront.Parser

open ParserState

/-! ## Loops -/

/-- Every turn that asks for another one takes a token. -/
def Progressive (turn : β → Parser (Option β)) : Prop :=
  ∀ b s b' s', turn b s = .ok (some b') s' → s'.left < s.left

/-- The equation of a loop, without any bound. -/
def Unrolls (turn : β → Parser (Option β)) (q : β → Parser β) : Prop :=
  ∀ b, q b = turn b >>= fun o => match o with
    | none => pure b
    | some b' => q b'

section

variable {turn : β → Parser (Option β)}

/-- What every turn keeps, the loop keeps. -/
theorem loop_invariant {I : β → ParserState → Prop}
    (hturn : ∀ b s o s', I b s → turn b s = .ok o s' → I (o.getD b) s') {b b' : β}
    {s s' : ParserState} (hb : I b s) (h : loop turn b s = .ok b' s') : I b' s' := by
  unfold loop at h
  generalize s.cursor.ahead = bound at h
  induction bound generalizing b s with
  | nil =>
    unfold loopWithin at h
    obtain ⟨o, s₁, ho, h⟩ := bind_eq_ok.mp h
    cases h
    exact hturn b s o s' hb ho
  | cons t bound ih =>
    unfold loopWithin at h
    obtain ⟨o, s₁, ho, h⟩ := bind_eq_ok.mp h
    have hI := hturn b s o s₁ hb ho
    cases o with
    | none =>
      cases h
      exact hI
    | some b₁ => exact ih hI h

/-- A bound that covers the tokens left is as good as any other. -/
theorem loopWithin_congr (ht : Progressive turn) (bound bound' : List Token) (b : β)
    (s : ParserState) (h : s.left ≤ bound.length) (h' : s.left ≤ bound'.length) :
    loopWithin turn bound b s = loopWithin turn bound' b s := by
  induction bound generalizing bound' b s with
  | nil =>
    cases bound' with
    | nil => rfl
    | cons t bound' =>
      simp only [loopWithin, bind_apply]
      rcases hr : turn b s with ⟨o, s₁⟩ | ⟨e, s₁⟩
      · cases o with
        | none => rfl
        | some b₁ =>
          have := ht b s b₁ s₁ hr
          simp only [List.length_nil] at h
          omega
      · rfl
  | cons t bound ih =>
    simp only [loopWithin, bind_apply]
    rcases hr : turn b s with ⟨o, s₁⟩ | ⟨e, s₁⟩
    · cases o with
      | none => cases bound' <;> simp [loopWithin, bind_apply, hr]
      | some b₁ =>
        have hlt := ht b s b₁ s₁ hr
        simp only [List.length_cons] at h
        cases bound' with
        | nil =>
          simp only [List.length_nil] at h'
          omega
        | cons t' bound' =>
          simp only [List.length_cons] at h'
          simp only [loopWithin, bind_apply, hr]
          exact ih bound' b₁ s₁ (by omega) (by omega)
    · cases bound' <;> simp [loopWithin, bind_apply, hr]

theorem loop_unrolls (ht : Progressive turn) : Unrolls turn (loop turn) := by
  intro b
  funext s
  rw [bind_apply]
  unfold loop
  rcases ha : s.cursor.ahead with _ | ⟨t, rest⟩
  · simp only [loopWithin, bind_apply]
    rcases hr : turn b s with ⟨o, s₁⟩ | ⟨e, s₁⟩
    · cases o with
      | none => rfl
      | some b₁ =>
        have := ht b s b₁ s₁ hr
        simp [left, ha] at this
    · rfl
  · simp only [loopWithin, bind_apply]
    rcases hr : turn b s with ⟨o, s₁⟩ | ⟨e, s₁⟩
    · cases o with
      | none => rfl
      | some b₁ =>
        have hlt := ht b s b₁ s₁ hr
        simp only [left, ha, List.length_cons] at hlt
        exact loopWithin_congr ht rest s₁.cursor.ahead b₁ s₁ (by unfold left; omega) (Nat.le_refl _)
    · rfl

/-- A run of a loop, turn by turn: what holds of the last turn, and in front of a run when it holds
of the run, holds of all runs. -/
theorem loop_induction {R : β → ParserState → β → ParserState → Prop} (ht : Progressive turn)
    (hdone : ∀ b s s', turn b s = .ok none s' → R b s b s')
    (hagain : ∀ b s b₁ s₁ b' s', turn b s = .ok (some b₁) s₁ → loop turn b₁ s₁ = .ok b' s' →
      R b₁ s₁ b' s' → R b s b' s')
    {b b' : β} {s s' : ParserState} (h : loop turn b s = .ok b' s') : R b s b' s' := by
  generalize hn : s.left = n
  induction n using Nat.strongRecOn generalizing b s with
  | ind n ih =>
    subst hn
    rw [loop_unrolls ht b] at h
    obtain ⟨o, s₁, ho, h⟩ := bind_eq_ok.mp h
    cases o with
    | none =>
      cases h
      exact hdone _ _ _ ho
    | some b₁ => exact hagain b s b₁ s₁ b' s' ho h (ih s₁.left (ht b s b₁ s₁ ho) h rfl)

/-- A loop that makes progress is all that its equation allows. -/
theorem Unrolls.eq_loop (ht : Progressive turn) {q : β → Parser β} (hq : Unrolls turn q) :
    q = loop turn := by
  suffices h : ∀ n s b, s.left < n → q b s = loop turn b s by
    funext b s
    exact h (s.left + 1) s b (Nat.lt_succ_self _)
  intro n
  induction n with
  | zero => intro s b hs; omega
  | succ n ih =>
    intro s b hs
    rw [hq b, loop_unrolls ht b, bind_apply, bind_apply]
    rcases hr : turn b s with ⟨o, s₁⟩ | ⟨e, s₁⟩
    · cases o with
      | none => rfl
      | some b₁ =>
        have := ht b s b₁ s₁ hr
        exact ih s₁ b₁ (by omega)
    · rfl

theorem unrolls_iff (ht : Progressive turn) (q : β → Parser β) :
    Unrolls turn q ↔ q = loop turn :=
  ⟨Unrolls.eq_loop ht, fun h => h ▸ loop_unrolls ht⟩

end

/-! ## Parsers that agree while few tokens are left -/

/-- Two parsers do the same in every state with fewer than `n` tokens left. -/
class AgreeBelow (n : Nat) (p q : Parser α) : Prop where
  eq : ∀ s : ParserState, s.left < n → p s = q s

section

variable {n : Nat}

instance (p : Parser α) : AgreeBelow n p p := ⟨fun _ _ => rfl⟩

instance {p q : Parser α} {f g : α → Parser β} [hp : AgreeBelow n p q] [Stepwise q]
    [hf : ∀ a, AgreeBelow n (f a) (g a)] : AgreeBelow n (p >>= f) (q >>= g) := by
  constructor
  intro s hs
  rw [bind_apply, bind_apply, hp.eq s hs]
  rcases h : q s with ⟨a, s₁⟩ | ⟨e, s₁⟩
  · have := (Stepwise.ok h).before.left_le
    exact (hf a).eq s₁ (by omega)
  · rfl

instance {p q : Parser α} {r r' : Parser β} [AgreeBelow n p q] [Stepwise q] [AgreeBelow n r r'] :
    AgreeBelow n (p >>= fun _ => r) (q >>= fun _ => r') :=
  inferInstance

instance {c : Prop} [Decidable c] {p q p' q' : Parser α} [AgreeBelow n p q]
    [AgreeBelow n p' q'] : AgreeBelow n (if c then p else p') (if c then q else q') := by
  split <;> assumption

instance {turn turn' : β → Parser (Option β)} [ht : ∀ b, AgreeBelow n (turn b) (turn' b)]
    [∀ b, Stepwise (turn' b)] (b : β) : AgreeBelow n (loop turn b) (loop turn' b) := by
  have h : ∀ (bound : List Token) b, AgreeBelow n (loopWithin turn bound b)
      (loopWithin turn' bound b) := by
    intro bound
    induction bound with
    | nil =>
      intro b
      unfold loopWithin
      infer_instance
    | cons t bound ih =>
      intro b
      have hcont : ∀ o : Option β, AgreeBelow n
          (match o with
            | none => pure b
            | some b => loopWithin turn bound b)
          (match o with
            | none => pure b
            | some b => loopWithin turn' bound b) := by
        intro o
        cases o with
        | none => infer_instance
        | some b => exact ih b
      unfold loopWithin
      infer_instance
  exact ⟨fun s hs => (h s.cursor.ahead b).eq s hs⟩

theorem left_advance {s : ParserState} (h : s.cursor.atEnd = false) :
    s.advance.left + 1 = s.left := by
  obtain ⟨t, rest, ha, -, hadv⟩ := Cursor.exists_ahead h
  simp [left, ParserState.advance, hadv, ha]

theorem atEnd_eq (s : ParserState) : s.cursor.atEnd = (s.kind == .endOfFile) := rfl

theorem atEnd_of_kind {s : ParserState} {k : TokenKind} (h : s.kind = k)
    (hk : k ≠ .endOfFile) : s.cursor.atEnd = false := by
  rw [atEnd_eq, h]
  simpa using hk

/-- Behind one token more there is one token less left. -/
theorem advance_agrees {s : ParserState} (hs : s.left < n + 1) (hend : s.cursor.atEnd = false)
    {f g : Unit → Parser α} [h : AgreeBelow n (f ()) (g ())] :
    (advance >>= f) s = (advance >>= g) s := by
  have := left_advance hend
  exact h.eq s.advance (by omega)

end

/-! ## Recursion -/

/-- A parser of itself that takes a token before it calls itself: what it does depends only on
what the inner parser does with fewer tokens left. -/
def Guarded (level : Parser α → Parser α) : Prop :=
  ∀ n p q, Stepwise q → AgreeBelow n p q → AgreeBelow (n + 1) (level p) (level q)

section

variable {last : Parser α} {level : Parser α → Parser α}

/-- A bound that covers the tokens left is as good as any other, and the parser at the bottom is
never asked. -/
theorem nestWithin_agrees {last' : Parser α} [Stepwise last'] (hg : Guarded level)
    (hlevel : ∀ p, Stepwise p → Stepwise (level p)) (n : Nat) (bound bound' : List Token)
    (h : n ≤ bound.length) (h' : n ≤ bound'.length) :
    AgreeBelow (n + 1) (nestWithin last level bound) (nestWithin last' level bound') := by
  have below (bound : List Token) : ∃ p, Stepwise p ∧ nestWithin last' level bound = level p := by
    cases bound with
    | nil => exact ⟨last', inferInstance, rfl⟩
    | cons t bound => exact ⟨nestWithin last' level bound, steps_nestWithin hlevel bound, rfl⟩
  induction n generalizing bound bound' with
  | zero =>
    obtain ⟨q, hq, heq⟩ := below bound'
    obtain ⟨p, hp⟩ : ∃ p, nestWithin last level bound = level p := by
      cases bound with
      | nil => exact ⟨last, rfl⟩
      | cons t bound => exact ⟨nestWithin last level bound, rfl⟩
    rw [heq, hp]
    exact hg 0 p q hq ⟨fun s hs => absurd hs (Nat.not_lt_zero _)⟩
  | succ n ih =>
    obtain ⟨t, bound, rfl⟩ := List.exists_cons_of_length_pos (Nat.lt_of_lt_of_le (by omega) h)
    obtain ⟨t', bound', rfl⟩ := List.exists_cons_of_length_pos (Nat.lt_of_lt_of_le (by omega) h')
    simp only [List.length_cons] at h h'
    exact hg (n + 1) _ _ (steps_nestWithin hlevel bound') (ih bound bound' (by omega) (by omega))

/-- A recursion is bounded by any row that covers the tokens left. -/
theorem nest_eq_nestWithin {last' : Parser α} [Stepwise last'] (hg : Guarded level)
    (hlevel : ∀ p, Stepwise p → Stepwise (level p)) {bound : List Token} {s : ParserState}
    (h : s.left ≤ bound.length) : nest last level s = nestWithin last' level bound s :=
  (nestWithin_agrees hg hlevel s.left s.cursor.ahead bound (Nat.le_refl _) h).eq s
    (Nat.lt_succ_self _)

variable [Stepwise last] (hg : Guarded level) (hlevel : ∀ p, Stepwise p → Stepwise (level p))

include hg hlevel

/-- The equation of a recursion, without any bound. -/
theorem nest_eq : nest last level = level (nest last level) := by
  funext s
  have hstep : Stepwise (nest last level) := steps_nest hlevel
  rcases ha : s.cursor.ahead with _ | ⟨t, rest⟩
  · have h := hg 0 last (nest last level) hstep ⟨fun s hs => absurd hs (Nat.not_lt_zero _)⟩
    simpa [nest, nestWithin, ha] using h.eq s (by simp [left, ha])
  · have hin : AgreeBelow (rest.length + 1) (nestWithin last level rest) (nest last level) :=
      ⟨fun s' hs' => (nestWithin_agrees hg hlevel s'.left rest s'.cursor.ahead (by omega)
        (Nat.le_refl _)).eq s' (Nat.lt_succ_self _)⟩
    have h := hg (rest.length + 1) _ _ hstep hin
    simpa [nest, nestWithin, ha] using h.eq s (by simp [left, ha])

/-- A guarded recursion is all that its equation allows. -/
theorem eq_nest_iff (p : Parser α) : p = level p ↔ p = nest last level := by
  constructor
  · intro hp
    have hstep : Stepwise (nest last level) := steps_nest hlevel
    have h : ∀ n, AgreeBelow n p (nest last level) := by
      intro n
      induction n with
      | zero => exact ⟨fun s hs => absurd hs (Nat.not_lt_zero _)⟩
      | succ n ih =>
        rw [hp, nest_eq hg hlevel]
        exact hg n _ _ hstep ih
    funext s
    exact (h (s.left + 1)).eq s (Nat.lt_succ_self _)
  · rintro rfl
    exact nest_eq hg hlevel

omit [Stepwise last] in
/-- What holds of a failure at the end, and of a level when it holds of the levels below, holds of
every run of a guarded recursion. -/
theorem nest_induction {R : ParserState → EStateM.Result Failure ParserState α → Prop}
    (hfail : ∀ s, R s (endedEarly s))
    (hstep : ∀ p, Stepwise p → (∀ s, R s (p s)) → ∀ s, R s (level p s)) (s : ParserState) :
    R s (nest last level s) := by
  have h : ∀ (bound : List Token) s, R s (nestWithin endedEarly level bound s) := by
    intro bound
    induction bound with
    | nil => exact hstep endedEarly inferInstance hfail
    | cons t bound ih => exact hstep _ (steps_nestWithin hlevel bound) ih
  have heq : nest last level s = nestWithin endedEarly level s.cursor.ahead s :=
    nest_eq_nestWithin hg hlevel (Nat.le_refl _)
  rw [heq]
  exact h s.cursor.ahead s

end

end PascalFront.Parser
