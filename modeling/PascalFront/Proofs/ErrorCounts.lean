-- How many errors a parse notes. The limit is looked at behind each statement of
-- a list, so an outermost list ends with at most one error above the limit. What
-- follows such a list can add a few more, but none of that is ever repeated.
import PascalFront.Proofs.Failures

namespace PascalFront

namespace ParserState

variable (s : ParserState)

@[simp]
theorem errorCount_advance : s.advance.errorCount = s.errorCount := rfl

@[simp]
theorem errorCount_flag (cause : Cause) : (s.flag cause).errorCount = s.errorCount + 1 := by
  simp [flag, note, errorCount]

end ParserState

namespace Parser

open ParserState

/-! ## Behind a list -/

section

variable {settings : Settings} {inner : Parser Node} {closer : TokenKind} {s s' : ParserState}

/-- A turn that passes the check notes one more error at the most. -/
theorem errorCount_of_listTurn {nodes nodes' : List Node}
    (h : listTurn settings inner closer nodes s = .ok (some nodes') s') :
    s'.errorCount ≤ settings.maxErrors + 1 := by
  obtain ⟨-, -, node, s₁, -, -, hle, hcase⟩ := listTurn_eq_some settings h
  rcases hcase with ⟨-, rfl⟩ | ⟨-, rfl⟩ | ⟨-, -, rfl⟩ | ⟨-, -, -, rfl⟩
  · simp [Nat.le_succ_of_le hle]
  · simp [hle]
  · exact Nat.le_succ_of_le hle
  · simp [hle]

theorem errorCount_of_listLoop {nodes nodes' : List Node}
    (hs : s.errorCount ≤ settings.maxErrors + 1)
    (h : loop (listTurn settings inner closer) nodes s = .ok nodes' s') :
    s'.errorCount ≤ settings.maxErrors + 1 := by
  refine loop_invariant (I := fun _ s => s.errorCount ≤ settings.maxErrors + 1) ?_ hs h
  intro nodes s o s₁ hs hturn
  cases o with
  | none =>
    obtain ⟨-, rfl⟩ := listTurn_eq_none settings hturn
    exact hs
  | some nodes' => exact errorCount_of_listTurn hturn

/-- The closer of a list can be missing only where the text has ended. -/
theorem errorCount_of_statementList (hi : IsStatementParser inner) {missing : Cause}
    {nodes : List Node} (hs : s.errorCount ≤ settings.maxErrors + 1)
    (h : statementList settings inner closer missing s = .ok nodes s') :
    s'.errorCount ≤ settings.maxErrors + 1 ∨
      closer ≠ .endOfFile ∧ s'.kind = .endOfFile ∧ s'.errorCount ≤ settings.maxErrors + 2 := by
  unfold statementList at h
  obtain ⟨nodes, s₁, hloop, h⟩ := bind_eq_ok.mp h
  obtain ⟨_, s₂, hcloser, h⟩ := bind_eq_ok.mp h
  cases h
  have hle := errorCount_of_listLoop hs hloop
  rcases expect_eq_ok hcloser with ⟨-, rfl⟩ | ⟨hk, rfl⟩
  · exact .inl hle
  · have hend : s₁.kind = .endOfFile := (listLoop_closes settings hi hloop).resolve_left hk
    refine .inr ⟨fun hcloser => hk (hend.trans hcloser.symm), hend, ?_⟩
    rw [errorCount_flag]
    omega

end

/-! ## Behind a program -/

section

variable {settings : Settings} {s s' : ParserState} {tree : Node}

/-- Behind the last END come the period and the end of the text. Where the END is missing, the
text has ended, and nothing can follow. -/
theorem errorCount_of_block (hs : s.errorCount ≤ settings.maxErrors + 1) (hk : s.kind = .kwBegin)
    (h : program settings s = .ok tree s') : s'.errorCount ≤ settings.maxErrors + 3 := by
  unfold program at h
  rw [kind_bind, if_pos hk] at h
  obtain ⟨root, s₁, hroot, h⟩ := bind_eq_ok.mp h
  obtain ⟨_, s₂, hdot, h⟩ := bind_eq_ok.mp h
  rw [kind_bind] at h
  unfold compound at hroot
  rw [line_bind, advance_bind] at hroot
  obtain ⟨nodes, s₁, hlist, hroot⟩ := bind_eq_ok.mp hroot
  cases hroot
  have hbegin : s.advance.errorCount ≤ settings.maxErrors + 1 := hs
  have hlist := errorCount_of_statementList (statement_isStatementParser settings) hbegin hlist
  have hlast : s'.errorCount = s₂.errorCount ∨
      s₂.kind ≠ .endOfFile ∧ s'.errorCount = s₂.errorCount + 1 := by
    split at h
    · rename_i hopen
      cases h
      exact .inr ⟨hopen, errorCount_flag _ _⟩
    · cases h
      exact .inl rfl
  rcases expect_eq_ok hdot with ⟨hperiod, rfl⟩ | ⟨-, rfl⟩
  · rcases hlist with hle | ⟨-, hend, -⟩
    · simp only [errorCount_advance] at hlast
      omega
    · rw [hend] at hperiod
      cases hperiod
  · simp only [errorCount_flag] at hlast
    rcases hlist with hle | ⟨-, hend, hle⟩
    · omega
    · rcases hlast with heq | ⟨hopen, -⟩
      · omega
      · exact absurd hend hopen

theorem errorCount_of_wholeText (hs : s.errorCount ≤ settings.maxErrors + 1)
    (hk : s.kind ≠ .kwBegin) (h : program settings s = .ok tree s') :
    s'.errorCount ≤ settings.maxErrors + 1 := by
  unfold program at h
  rw [kind_bind, if_neg hk, line_bind] at h
  obtain ⟨nodes, s₁, hlist, h⟩ := bind_eq_ok.mp h
  cases h
  rcases errorCount_of_statementList (statement_isStatementParser settings) hs hlist with
    hle | ⟨hcloser, -⟩
  · exact hle
  · exact absurd rfl hcloser

end

end Parser

/-! ## The law -/

/-- How many errors there are behind a call on some tokens, by what the call gives. -/
structure KeepsToLimit (settings : Settings) (ts : List Token)
    (outcome : Except Failure Node × ParserState) : Prop where
  crowded : ∀ count, outcome.1 = .error (.tooManyErrors count) →
    count = outcome.2.errorCount ∧ settings.maxErrors < count
  result : ∀ tree, outcome.1 = .ok tree → outcome.2.errorCount ≤ settings.maxErrors + 3
  bare : ∀ tree, outcome.1 = .ok tree →
    ((ts.filter Cursor.isGrammatical).head?.map (·.kind)) ≠ some .kwBegin →
      outcome.2.errorCount ≤ settings.maxErrors + 1

namespace Parser

/-- A parse that fails for too many errors counts all of them, and a parse with a result has few
more than the limit allows. -/
theorem error_limit_is_enforced (settings : Settings) (ts : List Token) (symbols : SymbolTable) :
    KeepsToLimit settings ts ((program settings).runFrom (.start ts symbols)) := by
  have hending : Ending settings (program settings (.start ts symbols)) :=
    Candid.ending _ (ParserState.calm_start ts symbols)
  have hnone : (ParserState.start ts symbols).errorCount ≤ settings.maxErrors + 1 := Nat.zero_le _
  generalize hr : program settings (.start ts symbols) = r at hending
  cases hending with
  | @ok tree s' =>
    rw [runFrom_of_ok hr]
    by_cases hk : (ParserState.start ts symbols).kind = .kwBegin
    · refine ⟨fun _ h => (by cases h), fun _ _ => errorCount_of_block hnone hk hr, ?_⟩
      exact fun _ _ hbare => absurd (ParserState.start_kind hk (by decide)) hbare
    · have hle := errorCount_of_wholeText hnone hk hr
      refine ⟨fun _ h => (by cases h), fun _ _ => ?_, fun _ _ _ => hle⟩
      exact Nat.le_trans hle (Nat.add_le_add_left (by decide) _)
  | early =>
    rw [runFrom_of_error hr]
    exact ⟨fun _ h => (by cases h), fun _ h => (by cases h), fun _ h => (by cases h)⟩
  | crowded _ hlt =>
    rw [runFrom_of_error hr]
    refine ⟨fun count h => ?_, fun _ h => (by cases h), fun _ h => (by cases h)⟩
    cases h
    exact ⟨rfl, hlt⟩

/-- Both bounds are reached: a block without its END and its period, and a text without BEGIN. -/
example :
    (parseProgram ⟨0, ""⟩ "BEGIN )").tree.isOk = true ∧
    (parseProgram ⟨0, ""⟩ "BEGIN )").diagnostics.length = 3 ∧
    (parseProgram ⟨0, ""⟩ ")").tree.isOk = true ∧
    (parseProgram ⟨0, ""⟩ ")").diagnostics.length = 1 := by
  decide +kernel

end Parser

end PascalFront
