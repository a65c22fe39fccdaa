-- Two runs side by side. Where two rows of tokens begin with the same kinds,
-- two runs make the same choices and note the same causes at the same places,
-- until both cursors have passed the common part. What they do behind it stays
-- behind it: no parser ever goes back.
import PascalFront.Proofs.Sessions
import Mathlib.Data.List.Forall2

namespace PascalFront

open PascalFront.Parser

namespace ParserState

/-! ## Where the diagnostics stand -/

/-- The diagnostics of a state are these causes, at the tokens with these places in the row. -/
def Written (notes : List (Nat × Cause)) (s : ParserState) : Prop :=
  List.Forall₂ (fun note d => ∃ t, s.cursor.tokens[note.1]? = some t ∧ d = .atToken t note.2)
    notes s.diagnostics.toList

theorem Written.of_eq {notes : List (Nat × Cause)} {s s' : ParserState} (h : Written notes s)
    (ht : s'.cursor.tokens = s.cursor.tokens) (hd : s'.diagnostics = s.diagnostics) :
    Written notes s' := by
  unfold Written
  rw [ht, hd]
  exact h

theorem written_start (ts : List Token) (symbols : SymbolTable) :
    Written [] (start ts symbols) := .nil

theorem Written.exists_token {notes : List (Nat × Cause)} {s : ParserState} (h : Written notes s)
    {note : Nat × Cause} (hn : note ∈ notes) : ∃ t, s.cursor.tokens[note.1]? = some t := by
  unfold Written at h
  generalize s.diagnostics.toList = ds at h
  induction h with
  | nil => cases hn
  | cons hnote _ ih =>
    rcases List.mem_cons.mp hn with rfl | hn
    · obtain ⟨t, ht, -⟩ := hnote
      exact ⟨t, ht⟩
    · exact ih hn

theorem Written.exists_note {notes : List (Nat × Cause)} {s : ParserState} (h : Written notes s)
    {d : Diagnostic} (hd : d ∈ s.diagnostics.toList) :
    ∃ note ∈ notes, ∃ t, s.cursor.tokens[note.1]? = some t ∧ d = .atToken t note.2 := by
  unfold Written at h
  generalize s.diagnostics.toList = ds at h hd
  induction h with
  | nil => cases hd
  | cons hnote _ ih =>
    rcases List.mem_cons.mp hd with rfl | hd
    · exact ⟨_, List.mem_cons_self, hnote⟩
    · obtain ⟨note, hn, ht⟩ := ih hd
      exact ⟨note, List.mem_cons_of_mem _ hn, ht⟩

/-- The first note of a state is its first diagnostic. -/
theorem Written.first {notes : List (Nat × Cause)} {s : ParserState} (h : Written notes s) :
    (notes = [] ∧ s.diagnostics = #[]) ∨ ∃ i cause rest t, notes = (i, cause) :: rest ∧
      s.cursor.tokens[i]? = some t ∧ s.diagnostics[0]? = some (.atToken t cause) := by
  rcases hd : s.diagnostics.toList with _ | ⟨d, ds⟩
  · rw [Written, hd] at h
    cases h
    exact Or.inl ⟨rfl, Array.toList_eq_nil_iff.mp hd⟩
  · rw [Written, hd] at h
    cases h with
    | cons hnote hrest =>
      obtain ⟨t, ht, rfl⟩ := hnote
      refine Or.inr ⟨_, _, _, t, rfl, ht, ?_⟩
      rw [← Array.getElem?_toList, hd]
      rfl

theorem tokens_here (s : ParserState) : s.cursor.tokens[s.cursor.position]? = some s.here := by
  have h := s.tokens_getElem? 0
  rw [Nat.add_zero, ← List.head?_eq_getElem?] at h
  rw [h]
  exact Cursor.head?_upcoming s.cursor

theorem Written.flag {notes : List (Nat × Cause)} {s : ParserState} (h : Written notes s)
    (cause : Cause) : Written (notes ++ [(s.cursor.position, cause)]) (s.flag cause) := by
  unfold Written
  simp only [ParserState.flag, note, Array.toList_push]
  exact List.rel_append h (.cons ⟨_, tokens_here s, rfl⟩ .nil)

/-- What is noted on the way stands between the ends of the way, each note behind the notes
before it. -/
theorem Steps.written_in_order {s s' : ParserState} (h : s.Steps s') {notes : List (Nat × Cause)}
    (hw : Written notes s) :
    ∃ more, Written (notes ++ more) s' ∧
      (∀ note ∈ more, s.cursor.position ≤ note.1 ∧ note.1 ≤ s'.cursor.position) ∧
      more.Pairwise fun note note' => note.1 ≤ note'.1 := by
  induction h with
  | refl => exact ⟨[], by rwa [List.append_nil], by simp, .nil⟩
  | @tail m _ hsteps hstep ih =>
    obtain ⟨more, hmore, hplace, hordered⟩ := ih
    have htokens := hstep.before.tokens_eq
    have hlater := hstep.before.position_le
    have hkept : ∀ note ∈ more, s.cursor.position ≤ note.1 ∧ note.1 ≤ _ :=
      fun note hnote => ⟨(hplace note hnote).1, Nat.le_trans (hplace note hnote).2 hlater⟩
    cases hstep with
    | advance => exact ⟨more, hmore.of_eq htokens rfl, hkept, hordered⟩
    | flag cause =>
      refine ⟨more ++ [(m.cursor.position, cause)], ?_, ?_, ?_⟩
      · rw [← List.append_assoc]
        exact hmore.flag cause
      · intro note hnote
        rcases List.mem_append.mp hnote with hnote | hnote
        · exact hkept note hnote
        · rw [List.mem_singleton.mp hnote]
          exact ⟨(Steps.before hsteps).position_le, Nat.le_refl _⟩
      · refine List.pairwise_append.mpr ⟨hordered, List.pairwise_singleton _ _, ?_⟩
        intro note hnote note' hnote'
        rw [List.mem_singleton.mp hnote']
        exact (hplace note hnote).2
    | enter => exact ⟨more, hmore.of_eq htokens rfl, hkept, hordered⟩

/-- What is noted on the way stands where the way began or behind it. -/
theorem Steps.written {s s' : ParserState} (h : s.Steps s') {notes : List (Nat × Cause)}
    (hw : Written notes s) :
    ∃ more, Written (notes ++ more) s' ∧ ∀ note ∈ more, s.cursor.position ≤ note.1 := by
  obtain ⟨more, hmore, hplace, -⟩ := h.written_in_order hw
  exact ⟨more, hmore, fun note hnote => (hplace note hnote).1⟩

/-! ## Together and apart -/

/-- The first `n` tokens of two rows have the same kinds. -/
def AlikeUpTo (n : Nat) (row row' : List Token) : Prop :=
  ∀ i < n, ∃ t v, row[i]? = some t ∧ row'[i]? = some v ∧ t.kind = v.kind

/-- Two runs within the first `n` tokens of their rows, which have the same kinds. They stand at
the same place and have noted the same. -/
structure Together (n : Nat) (s u : ParserState) : Prop where
  position : s.cursor.position = u.cursor.position
  inside : s.cursor.position < n
  rows : AlikeUpTo n s.cursor.tokens u.cursor.tokens
  notes : ∃ notes, Written notes s ∧ Written notes u

/-- Two runs that have passed the first `n` tokens of their rows. What only one of them has noted
stands behind these tokens. -/
structure Apart (n : Nat) (s u : ParserState) : Prop where
  left : n ≤ s.cursor.position
  right : n ≤ u.cursor.position
  notes : ∃ notes later later', Written (notes ++ later) s ∧ Written (notes ++ later') u ∧
    (∀ note ∈ later, n ≤ note.1) ∧ ∀ note ∈ later', n ≤ note.1

section

variable {n : Nat} {s s' u u' : ParserState}

/-- Runs that are apart stay apart. -/
theorem Apart.steps (h : Apart n s u) (hs : s.Steps s') (hu : u.Steps u') : Apart n s' u' := by
  obtain ⟨hl, hr, notes, later, later', hw, hw', hlater, hlater'⟩ := h
  obtain ⟨more, hmore, hplace⟩ := hs.written hw
  obtain ⟨more', hmore', hplace'⟩ := hu.written hw'
  rw [List.append_assoc] at hmore hmore'
  refine ⟨Nat.le_trans hl hs.before.position_le, Nat.le_trans hr hu.before.position_le,
    notes, _, _, hmore, hmore', ?_, ?_⟩
  · intro note hnote
    rcases List.mem_append.mp hnote with h | h
    · exact hlater note h
    · exact Nat.le_trans hl (hplace note h)
  · intro note hnote
    rcases List.mem_append.mp hnote with h | h
    · exact hlater' note h
    · exact Nat.le_trans hr (hplace' note h)

namespace Together

theorem kind (h : Together n s u) : s.kind = u.kind := by
  obtain ⟨t, v, ht, hv, hk⟩ := h.rows _ h.inside
  rw [tokens_here] at ht
  rw [h.position, tokens_here] at hv
  rw [← Option.some.inj ht, ← Option.some.inj hv] at hk
  exact hk

theorem atEnd (h : Together n s u) : s.cursor.atEnd = u.cursor.atEnd := by
  rw [atEnd_eq, atEnd_eq, h.kind]

theorem errorCount (h : Together n s u) : s.errorCount = u.errorCount := by
  obtain ⟨notes, hs, hu⟩ := h.notes
  have hs := hs.length_eq
  have hu := hu.length_eq
  unfold ParserState.errorCount
  rw [← Array.length_toList, ← Array.length_toList, ← hs, hu]

theorem flag (h : Together n s u) (cause : Cause) : Together n (s.flag cause) (u.flag cause) := by
  obtain ⟨notes, hs, hu⟩ := h.notes
  refine ⟨h.position, h.inside, h.rows, _, hs.flag cause, ?_⟩
  rw [h.position]
  exact hu.flag cause

theorem enter (h : Together n s u) (name name' : String) (line line' : Nat) :
    Together n (s.enter name line).2 (u.enter name' line').2 := by
  obtain ⟨notes, hs, hu⟩ := h.notes
  exact ⟨h.position, h.inside, h.rows, notes, hs.of_eq rfl rfl, hu.of_eq rfl rfl⟩

end Together

theorem position_advance (h : s.cursor.atEnd = false) :
    s.advance.cursor.position = s.cursor.position + 1 := by
  obtain ⟨t, rest, -, -, hadv⟩ := Cursor.exists_ahead h
  simp [ParserState.advance, hadv, Cursor.position]

/-- One token further, two runs are still together, or both have passed the common part. -/
theorem Together.advance (h : Together n s u) (hend : s.cursor.atEnd = false) :
    Together n s.advance u.advance ∨ Apart n s.advance u.advance := by
  have hs := position_advance hend
  have hu := position_advance (h.atEnd ▸ hend)
  have htokens : s.advance.cursor.tokens = s.cursor.tokens := (steps_advance s).before.tokens_eq
  have htokens' : u.advance.cursor.tokens = u.cursor.tokens := (steps_advance u).before.tokens_eq
  have hinside := h.inside
  have hposition := h.position
  obtain ⟨notes, hw, hw'⟩ := h.notes
  by_cases hlt : s.cursor.position + 1 < n
  · refine Or.inl ⟨by omega, by omega, ?_, notes, hw.of_eq htokens rfl, hw'.of_eq htokens' rfl⟩
    rw [htokens, htokens']
    exact h.rows
  · refine Or.inr ⟨by omega, by omega, notes, [], [], ?_, ?_, by simp, by simp⟩
    · rw [List.append_nil]
      exact hw.of_eq htokens rfl
    · rw [List.append_nil]
      exact hw'.of_eq htokens' rfl

theorem Together.skipUntil (p : TokenKind → Bool) (h : Together n s u) :
    Together n { s with cursor := s.cursor.skipUntil p } { u with cursor := u.cursor.skipUntil p } ∨
      Apart n { s with cursor := s.cursor.skipUntil p }
        { u with cursor := u.cursor.skipUntil p } := by
  generalize hm : s.left = m
  induction m using Nat.strongRecOn generalizing s u with
  | ind m ih =>
    have hstop : (p u.cursor.here.kind || u.cursor.atEnd) =
        (p s.cursor.here.kind || s.cursor.atEnd) := by
      rw [h.atEnd]
      exact congrArg (fun k => p k || u.cursor.atEnd) h.kind.symm
    cases hp : p s.cursor.here.kind || s.cursor.atEnd with
    | true =>
      rw [Cursor.skipUntil_of_stops hp, Cursor.skipUntil_of_stops (hstop.trans hp)]
      exact Or.inl h
    | false =>
      have hend : s.cursor.atEnd = false := (Bool.or_eq_false_iff.mp hp).2
      rw [Cursor.skipUntil_of_passes hp, Cursor.skipUntil_of_passes (hstop.trans hp)]
      rcases h.advance hend with hadv | hadv
      · exact ih s.advance.left (by have := left_advance hend; omega) hadv rfl
      · exact Or.inr (hadv.steps (steps_skipUntil p s.advance) (steps_skipUntil p u.advance))

theorem Together.resumeAt (set : KindSet) (h : Together n s u) :
    Together n (s.resumeAt set) (u.resumeAt set) ∨ Apart n (s.resumeAt set) (u.resumeAt set) := by
  unfold ParserState.resumeAt
  rw [← h.kind, ← h.atEnd]
  split
  · exact Or.inl h
  · exact (h.flag .unexpectedToken).skipUntil _

end

end ParserState

/-! ## Parsers that run abreast -/

namespace Parser

open ParserState

/-- The state that a run leaves. -/
def stateBehind : EStateM.Result Failure ParserState α → ParserState
  | .ok _ s => s
  | .error _ s => s

theorem runFrom_state (p : Parser α) (s : ParserState) : (p.runFrom s).2 = stateBehind (p s) := by
  unfold runFrom
  cases p s <;> rfl

theorem eq_ok_of_runFrom {p : Parser α} {s : ParserState} {a : α} (h : (p.runFrom s).1 = .ok a) :
    p s = .ok a (stateBehind (p s)) := by
  unfold runFrom at h
  cases hr : p s with
  | ok b s' =>
    rw [hr] at h
    cases h
    rfl
  | error e s' =>
    rw [hr] at h
    cases h

theorem Stepwise.behind (p : Parser α) [hp : Stepwise p] (s : ParserState) :
    s.Steps (stateBehind (p s)) := by
  rw [← runFrom_state]
  exact hp.steps s

/-- What is read behind a parser goes on from where that parser leaves off. -/
theorem stateBehind_bind {p : Parser α} {f : α → Parser β} {s : ParserState}
    [∀ a, Stepwise (f a)] : (stateBehind (p s)).Steps (stateBehind ((p >>= f) s)) := by
  rw [bind_apply]
  rcases p s with ⟨a, s'⟩ | ⟨e, s'⟩
  · exact Stepwise.behind (f a) s'
  · exact Steps.refl s'

/-- Which results of two runs that are together count as alike: equal ones, where a parser looks at
them, and any two otherwise. -/
class Like (α : Type) where
  like : α → α → Prop

/-- Results that no parser looks at. -/
class Loose (α : Type) [Like α] : Prop where
  like_any : ∀ a b : α, Like.like a b

/-- Results that a parser may look at. -/
class Strict (α : Type) [Like α] : Prop where
  eq_of_like : ∀ {a b : α}, Like.like a b → a = b

instance : Like Unit := ⟨Eq⟩
instance : Like Bool := ⟨Eq⟩
instance : Like TokenKind := ⟨Eq⟩
instance : Like Nat := ⟨fun _ _ => True⟩
instance : Like Token := ⟨fun _ _ => True⟩
instance : Like SymbolId := ⟨fun _ _ => True⟩
instance : Like Node := ⟨fun _ _ => True⟩
instance : Like (List Node) := ⟨fun _ _ => True⟩

instance : Strict Bool := ⟨id⟩
instance : Strict TokenKind := ⟨id⟩
instance : Loose Nat := ⟨fun _ _ => trivial⟩
instance : Loose Token := ⟨fun _ _ => trivial⟩
instance : Loose SymbolId := ⟨fun _ _ => trivial⟩
instance : Loose Node := ⟨fun _ _ => trivial⟩
instance : Loose (List Node) := ⟨fun _ _ => trivial⟩

/-- Of an optional result, a parser sees whether it is there. -/
instance [Like α] : Like (Option α) where
  like
    | none, none => True
    | some a, some b => Like.like a b
    | _, _ => False

/-- How two runs that began together end. -/
inductive SideBySide [Like α] (n : Nat) :
    EStateM.Result Failure ParserState α → EStateM.Result Failure ParserState α → Prop
  | ok {a b : α} {s u : ParserState} : Like.like a b → Together n s u →
      SideBySide n (.ok a s) (.ok b u)
  | error {e f : Failure} {s u : ParserState} : Together n s u →
      SideBySide n (.error e s) (.error f u)
  | apart {r r' : EStateM.Result Failure ParserState α} :
      Apart n (stateBehind r) (stateBehind r') → SideBySide n r r'

/-- Two parsers that do the same as long as they see the same kinds of tokens. -/
class Abreast [Like α] (p q : Parser α) : Prop where
  left : Stepwise p := by infer_instance
  right : Stepwise q := by infer_instance
  run : ∀ {n : Nat} {s u : ParserState}, Together n s u → SideBySide n (p s) (q u)

section

variable [Like α] [Like β]

theorem abreast_bind {p q : Parser α} {f g : α → Parser β} [hp : Abreast p q]
    (hf : ∀ a, Stepwise (f a)) (hg : ∀ a, Stepwise (g a))
    (h : ∀ a b, Like.like a b → Abreast (f a) (g b)) : Abreast (p >>= f) (q >>= g) where
  left := have := hp.left; inferInstance
  right := have := hp.right; inferInstance
  run := by
    intro n s u hsu
    rw [bind_apply, bind_apply]
    generalize hr : p s = r
    generalize hr' : q u = r'
    have hrun := hp.run hsu
    rw [hr, hr'] at hrun
    cases hrun with
    | ok hab h' => exact (h _ _ hab).run h'
    | error h' => exact .error h'
    | apart h' =>
      refine .apart (h'.steps ?_ ?_)
      · cases r with
        | ok a s' => exact Stepwise.behind (f a) s'
        | error e s' => exact Steps.refl s'
      · cases r' with
        | ok a u' => exact Stepwise.behind (g a) u'
        | error e u' => exact Steps.refl u'

instance {p q : Parser α} {f g : α → Parser β} [Strict α] [Abreast p q]
    [h : ∀ a, Abreast (f a) (g a)] : Abreast (p >>= f) (q >>= g) :=
  abreast_bind (fun a => (h a).left) (fun a => (h a).right) fun a _ hab =>
    Strict.eq_of_like hab ▸ h a

instance {p q : Parser α} {f g : α → Parser β} [Loose α] [Abreast p q]
    [h : ∀ a b, Abreast (f a) (g b)] : Abreast (p >>= f) (q >>= g) :=
  abreast_bind (fun a => (h a a).left) (fun a => (h a a).right) fun a b _ => h a b

/-- No parser looks at a result that is not used. -/
instance {p q : Parser α} {r r' : Parser β} [hp : Abreast p q] [hr : Abreast r r'] :
    Abreast (p >>= fun _ => r) (q >>= fun _ => r') :=
  abreast_bind (fun _ => hr.left) (fun _ => hr.right) fun _ _ _ => hr

theorem abreast_pure {a b : α} (h : Like.like a b) : Abreast (pure a) (pure b) where
  run hsu := .ok h hsu

instance : Abreast (pure ()) (pure ()) := abreast_pure rfl

instance [Loose α] (a b : α) : Abreast (pure a) (pure b) := abreast_pure (Loose.like_any a b)

instance [Loose α] (a b : α) : Abreast (pure (some a)) (pure (some b)) :=
  abreast_pure (Loose.like_any a b)

instance : Abreast (pure none : Parser (Option α)) (pure none) := abreast_pure trivial

instance {c : Prop} [Decidable c] {p q p' q' : Parser α} [Abreast p q] [Abreast p' q'] :
    Abreast (if c then p else p') (if c then q else q') := by
  split <;> assumption

end

/-! ## The small parsers -/

instance : Abreast kind kind where run h := .ok h.kind h

instance : Abreast here here where run h := .ok trivial h

instance : Abreast line line where run h := .ok trivial h

instance (cause : Cause) : Abreast (flag cause) (flag cause) where
  run h := .ok rfl (h.flag cause)

instance [Like α] : Abreast (endedEarly : Parser α) endedEarly where
  run h := .error (h.flag .unexpectedEnd)

instance (name name' : String) (line line' : Nat) :
    Abreast (enter name line) (enter name' line') where
  run h := .ok trivial (h.enter name name' line line')

section

variable {n : Nat} {s u : ParserState}

theorem sideBySide_of_or [Like α] {a b : α} (hab : Like.like a b)
    (h : Together n s u ∨ Apart n s u) : SideBySide n (.ok a s) (.ok b u) := by
  rcases h with h | h
  · exact .ok hab h
  · exact .apart h

theorem Together.advance_or (h : Together n s u) :
    Together n s.advance u.advance ∨ Apart n s.advance u.advance := by
  cases hend : s.cursor.atEnd with
  | true =>
    unfold ParserState.advance
    rw [Cursor.advance_of_atEnd hend, Cursor.advance_of_atEnd (h.atEnd ▸ hend)]
    exact Or.inl h
  | false => exact h.advance hend

end

instance : Abreast advance advance where run h := sideBySide_of_or rfl (Together.advance_or h)

instance (k : TokenKind) : Abreast (accept k) (accept k) where
  run h := by
    unfold accept
    rw [← h.kind]
    split
    · exact sideBySide_of_or rfl (Together.advance_or h)
    · exact .ok rfl h

instance (k : TokenKind) (missing : Cause) : Abreast (expect k missing) (expect k missing) where
  run h := by
    unfold expect
    rw [← h.kind]
    split
    · exact sideBySide_of_or rfl (Together.advance_or h)
    · exact .ok rfl (h.flag missing)

instance (set : KindSet) : Abreast (resumeAt set) (resumeAt set) where
  run h := sideBySide_of_or rfl (h.resumeAt set)

/-! ## Loops and recursion -/

theorem loopWithin_abreast [Like β] [Loose β] {turn turn' : β → Parser (Option β)}
    [ht : ∀ b b', Abreast (turn b) (turn' b')] (bound : List Token) (b b' : β) :
    Abreast (loopWithin turn bound b) (loopWithin turn' bound b') := by
  induction bound generalizing b b' with
  | nil =>
    unfold loopWithin
    exact abreast_bind (fun _ => inferInstance) (fun _ => inferInstance) fun o o' _ =>
      inferInstanceAs (Abreast (pure (o.getD b)) (pure (o'.getD b')))
  | cons t bound ih =>
    unfold loopWithin
    refine abreast_bind (fun o => ?_) (fun o => ?_) fun o o' ho => ?_
    · cases o with
      | none => infer_instance
      | some c => exact (ih c b').left
    · cases o with
      | none => infer_instance
      | some c => exact (ih b c).right
    · cases o <;> cases o'
      · infer_instance
      · exact ho.elim
      · exact ho.elim
      · exact ih _ _

/-- Loops run abreast when their turns do. The bounds are the tokens that each of them has left, so
both loops are seen with a common bound first. -/
theorem loop_abreast [Like β] [Loose β] {turn turn' : β → Parser (Option β)}
    [ht : ∀ b b', Abreast (turn b) (turn' b')] (hp : Progressive turn) (hp' : Progressive turn')
    (b b' : β) : Abreast (loop turn b) (loop turn' b') where
  left := have (b : β) : Stepwise (turn b) := (ht b b').left; inferInstance
  right := have (b' : β) : Stepwise (turn' b') := (ht b b').right; inferInstance
  run := by
    intro n s u h
    unfold loop
    rw [loopWithin_congr hp _ (s.cursor.ahead ++ u.cursor.ahead) b s (Nat.le_refl _)
        (by simp [ParserState.left]),
      loopWithin_congr hp' _ (s.cursor.ahead ++ u.cursor.ahead) b' u (Nat.le_refl _)
        (by simp [ParserState.left])]
    exact (loopWithin_abreast _ b b').run h

/-- Recursions run abreast when each level does, for inner parsers of a kind that the levels
keep. -/
theorem nest_abreast [Like α] {last last' : Parser α} {level level' : Parser α → Parser α}
    [Stepwise last] [Stepwise last'] (hg : Guarded level) (hg' : Guarded level')
    (hlevel : ∀ p, Stepwise p → Stepwise (level p))
    (hlevel' : ∀ p, Stepwise p → Stepwise (level' p))
    {K : Parser α → Prop} (hlast : K endedEarly) (hkeep : ∀ p, Stepwise p → K p → K (level p))
    (hkeep' : ∀ p, Stepwise p → K p → K (level' p))
    (h : ∀ p q, Stepwise p → Stepwise q → K p → K q → Abreast p q → Abreast (level p) (level' q)) :
    Abreast (nest last level) (nest last' level') where
  left := steps_nest hlevel
  right := steps_nest hlevel'
  run := by
    have within (bound : List Token) : K (nestWithin endedEarly level bound) ∧
        K (nestWithin endedEarly level' bound) ∧
        Abreast (nestWithin endedEarly level bound) (nestWithin endedEarly level' bound) := by
      induction bound with
      | nil =>
        exact ⟨hkeep _ inferInstance hlast, hkeep' _ inferInstance hlast,
          h _ _ inferInstance inferInstance hlast hlast inferInstance⟩
      | cons t bound ih =>
        obtain ⟨hk, hk', hb⟩ := ih
        exact ⟨hkeep _ hb.left hk, hkeep' _ hb.right hk', h _ _ hb.left hb.right hk hk' hb⟩
    intro n s u hsu
    have hs : nest last level s =
        nestWithin endedEarly level (s.cursor.ahead ++ u.cursor.ahead) s :=
      nest_eq_nestWithin hg hlevel (by simp [ParserState.left])
    have hu : nest last' level' u =
        nestWithin endedEarly level' (s.cursor.ahead ++ u.cursor.ahead) u :=
      nest_eq_nestWithin hg' hlevel' (by simp [ParserState.left])
    rw [hs, hu]
    exact (within _).2.2.run hsu

/-! ## Expressions -/

section

variable {p q : Parser Node} [hpq : Abreast p q]

instance (set : KindSet) (k : TokenKind) (missing : Cause) :
    Abreast (expectIn set k missing) (expectIn set k missing) := by
  unfold expectIn; infer_instance

instance : Abreast takeName takeName := by unfold takeName; infer_instance

instance : Abreast noOperand noOperand := by unfold noOperand; infer_instance

instance (a b : Node) : Abreast (constant a) (constant b) := by unfold constant; infer_instance

theorem operand_abreast {n : Nat} {s u : ParserState} (h : Together n s u) :
    SideBySide n (operand p s) (operand q u) := by
  have hkind : s.here.kind = u.here.kind := h.kind
  unfold operand
  rw [here_bind, here_bind, ← hkind]
  cases s.here.kind
  case identifier =>
    have hname : Abreast (do return Node.var (← takeName)) (do return Node.var (← takeName)) :=
      inferInstance
    exact hname.run h
  case leftParen =>
    have hparens : Abreast
        (do advance; let n ← p; expect .rightParen .missingRightParen; return n)
        (do advance; let n ← q; expect .rightParen .missingRightParen; return n) := inferInstance
    exact hparens.run h
  case endOfFile => exact (inferInstance : Abreast (endedEarly : Parser Node) endedEarly).run h
  case integer => exact (inferInstance : Abreast (constant _) (constant _)).run h
  case real => exact (inferInstance : Abreast (constant _) (constant _)).run h
  case string => exact (inferInstance : Abreast (constant _) (constant _)).run h
  all_goals exact (inferInstance : Abreast noOperand noOperand).run h

instance : Abreast (operand p) (operand q) where
  left := have := hpq.left; inferInstance
  right := have := hpq.right; inferInstance
  run := operand_abreast

instance (k k' : Nat) : Abreast (negationTurn k) (negationTurn k') := by
  unfold negationTurn; infer_instance

instance : Abreast negations negations :=
  loop_abreast negationTurn_progressive negationTurn_progressive 0 0

instance : Abreast (factor p) (factor q) := by unfold factor; infer_instance

instance (operator? : TokenKind → Option NodeKind) (left left' : Node) :
    Abreast (chainTurn operator? p left) (chainTurn operator? q left') where
  left := have := hpq.left; inferInstance
  right := have := hpq.right; inferInstance
  run := by
    intro n s u h
    unfold chainTurn
    rw [kind_bind, kind_bind, ← h.kind]
    cases operator? s.kind with
    | none => exact (inferInstance : Abreast (pure none : Parser (Option Node)) (pure none)).run h
    | some op =>
      have hright : Abreast (do advance; return some (Node.binary op left (← p)))
          (do advance; return some (Node.binary op left' (← q))) := inferInstance
      exact hright.run h

variable [Stepwise p] [Stepwise q]

theorem chain_abreast {operator? : TokenKind → Option NodeKind} (hop : operator? .endOfFile = none)
    (first first' : Node) : Abreast (chain operator? p first) (chain operator? q first') :=
  loop_abreast (chainTurn_progressive hop) (chainTurn_progressive hop) first first'

instance : Abreast (term p) (term q) := by
  have (a b : Node) : Abreast (chain product? (factor p) a) (chain product? (factor q) b) :=
    chain_abreast rfl a b
  unfold term
  infer_instance

instance : Abreast (simpleExpression p) (simpleExpression q) := by
  have (a b : Node) : Abreast (chain sum? (term p) a) (chain sum? (term q) b) :=
    chain_abreast rfl a b
  unfold simpleExpression
  infer_instance

instance : Abreast (expressionLevel p) (expressionLevel q) := by
  have hop (left left' : Node) (k : TokenKind) : Abreast
      (match relation? k with
        | none => pure left
        | some op => do advance; return .binary op left (← simpleExpression p))
      (match relation? k with
        | none => pure left'
        | some op => do advance; return .binary op left' (← simpleExpression q)) := by
    cases relation? k <;> infer_instance
  unfold expressionLevel
  infer_instance

end

instance : Abreast expression expression :=
  nest_abreast (K := fun _ => True) expressionLevel_guarded expressionLevel_guarded
    (fun _ _ => inferInstance) (fun _ _ => inferInstance) trivial (fun _ _ _ => trivial)
    (fun _ _ _ => trivial) fun _ _ _ _ _ _ _ => inferInstance

/-! ## Statements -/

theorem assignment_abreast {n : Nat} {s u : ParserState} (h : Together n s u) :
    SideBySide n (assignment s) (assignment u) := by
  have hkind : s.here.kind = u.here.kind := h.kind
  have hend : s.here.isEnd = u.here.isEnd := h.atEnd
  unfold assignment
  rw [here_bind, here_bind, ← hkind, ← hend]
  split
  · have hvalue : Abreast
        (do
          let target ← takeName
          expectIn ResumePoints.beforeAssign .assign .missingAssign
          let value ← expression
          return Node.statement .assign s.here.position.line [.var target, value])
        (do
          let target ← takeName
          expectIn ResumePoints.beforeAssign .assign .missingAssign
          let value ← expression
          return Node.statement .assign u.here.position.line [.var target, value]) := inferInstance
    exact hvalue.run h
  · split
    · exact (inferInstance : Abreast (endedEarly : Parser Node) endedEarly).run h
    · have hempty : Abreast
          (do flag .missingIdentifier; return Node.statement .noOp s.here.position.line [])
          (do flag .missingIdentifier; return Node.statement .noOp u.here.position.line []) :=
        inferInstance
      exact hempty.run h

instance : Abreast assignment assignment where run := assignment_abreast

instance (args args' : List Node) : Abreast (argumentTurn args) (argumentTurn args') := by
  unfold argumentTurn; infer_instance

instance : Abreast arguments arguments := by
  have (args args' : List Node) : Abreast (loop argumentTurn args) (loop argumentTurn args') :=
    loop_abreast argumentTurn_progressive argumentTurn_progressive args args'
  unfold arguments
  infer_instance

instance : Abreast procedureCall procedureCall := by unfold procedureCall; infer_instance

section

variable {settings settings' : Settings} {p q : Parser Node} [hpq : Abreast p q]

instance : Abreast (ifStatement p) (ifStatement q) := by unfold ifStatement; infer_instance

instance : Abreast (whileStatement p) (whileStatement q) := by
  unfold whileStatement; infer_instance

instance : Abreast (loopStatement p) (loopStatement q) := by unfold loopStatement; infer_instance

instance : Abreast (whenStatement settings p) (whenStatement settings' q) := by
  unfold whenStatement; infer_instance

instance : Abreast emptyStatement emptyStatement := by unfold emptyStatement; infer_instance

/-- What a run needs to know of the settings to be abreast of another one. -/
class SameLimit (settings settings' : Settings) : Prop where
  maxErrors_eq (settings settings') : settings'.maxErrors = settings.maxErrors

instance : SameLimit settings settings := ⟨rfl⟩

variable [SameLimit settings settings']

instance : Abreast (checkLimit settings) (checkLimit settings') where
  run := by
    intro n s u h
    unfold checkLimit
    rw [SameLimit.maxErrors_eq settings settings', ← h.errorCount]
    split
    · exact .error h
    · exact .ok rfl h

instance (closer : TokenKind) :
    Abreast (behindItem settings closer) (behindItem settings' closer) := by
  unfold behindItem; infer_instance

instance (closer : TokenKind) (nodes nodes' : List Node) :
    Abreast (listTurn settings p closer nodes) (listTurn settings' q closer nodes') := by
  rw [listTurn_eq, listTurn_eq]; infer_instance

section

variable (hp : IsStatementParser p) (hq : IsStatementParser q)

include hp hq

theorem statementList_abreast (closer : TokenKind) (missing : Cause) :
    Abreast (statementList settings p closer missing)
      (statementList settings' q closer missing) := by
  have (nodes nodes' : List Node) : Abreast (loop (listTurn settings p closer) nodes)
      (loop (listTurn settings' q closer) nodes') :=
    loop_abreast (listTurn_progressive settings hp closer)
      (listTurn_progressive settings' hq closer) nodes nodes'
  unfold statementList
  infer_instance

theorem compound_abreast : Abreast (compound settings p) (compound settings' q) := by
  have : Abreast (statementList settings p .kwEnd .missingEnd)
      (statementList settings' q .kwEnd .missingEnd) := statementList_abreast hp hq _ _
  unfold compound
  infer_instance

theorem repeatStatement_abreast :
    Abreast (repeatStatement settings p) (repeatStatement settings' q) := by
  have : Abreast (statementList settings p .kwUntil .missingUntil)
      (statementList settings' q .kwUntil .missingUntil) := statementList_abreast hp hq _ _
  unfold repeatStatement
  infer_instance

end

theorem steps_takeName_bind {f : SymbolId → Parser α} [∀ id, Stepwise (f id)] (s : ParserState) :
    s.advance.Steps (stateBehind ((takeName >>= f) s)) := by
  rw [bind_apply, takeName_eq]
  exact (Step.enter s.advance _ _).steps.trans (Stepwise.behind (f _) _)

/-- Whatever is read at an identifier, the identifier is passed first. -/
theorem steps_named {s : ParserState} (hk : s.kind = .identifier) (b : Bool) :
    s.advance.Steps (stateBehind ((if b then procedureCall else assignment) s)) := by
  cases b
  · simp only [Bool.false_eq_true, if_false, assignment, here_bind]
    rw [if_pos (show s.here.kind = .identifier from hk)]
    exact steps_takeName_bind s
  · simp only [if_true, procedureCall, line_bind]
    exact steps_takeName_bind s

/-- Behind an identifier the parser looks one token further. Where that token is not common to the
rows, whatever is read next passes the last common one. -/
theorem named_abreast {n : Nat} {s u : ParserState} (h : Together n s u)
    (hk : s.kind = .identifier) :
    SideBySide n ((do if endsCall (← nextKind) then procedureCall else assignment) s)
      ((do if endsCall (← nextKind) then procedureCall else assignment) u) := by
  have hk' : u.kind = .identifier := h.kind ▸ hk
  have hend := atEnd_of_kind hk (by decide)
  have hend' := atEnd_of_kind hk' (by decide)
  rw [nextKind_bind, nextKind_bind]
  rcases h.advance hend with hadv | hadv
  · have hsecond : s.cursor.second.kind = u.cursor.second.kind := by
      rw [Cursor.second_eq_here_advance hend, Cursor.second_eq_here_advance hend']
      exact hadv.kind
    rw [hsecond]
    have hsame (b : Bool) : Abreast (if b then procedureCall else assignment)
      (if b then procedureCall else assignment) := inferInstance
    exact (hsame _).run h
  · exact .apart (hadv.steps (steps_named hk _) (steps_named hk' _))

theorem statementLevel_abreast (hp : IsStatementParser p) (hq : IsStatementParser q) :
    Abreast (statementLevel settings p) (statementLevel settings' q) where
  left := have := hpq.left; inferInstance
  right := have := hpq.right; inferInstance
  run := by
    intro n s u h
    unfold statementLevel
    rw [kind_bind, kind_bind, ← h.kind]
    cases hk : s.kind
    case kwBegin => exact (compound_abreast hp hq).run h
    case identifier => exact named_abreast h hk
    case kwIf => exact (inferInstance : Abreast (ifStatement p) (ifStatement q)).run h
    case kwWhile => exact (inferInstance : Abreast (whileStatement p) (whileStatement q)).run h
    case kwRepeat => exact (repeatStatement_abreast hp hq).run h
    case kwLoop => exact (inferInstance : Abreast (loopStatement p) (loopStatement q)).run h
    case kwWhen =>
      exact (inferInstance : Abreast (whenStatement settings p) (whenStatement settings' q)).run h
    all_goals exact (inferInstance : Abreast emptyStatement emptyStatement).run h

instance : Abreast (statement settings) (statement settings') :=
  nest_abreast (K := IsStatementParser) (statementLevel_guarded settings)
    (statementLevel_guarded settings') (fun _ _ => inferInstance) (fun _ _ => inferInstance)
    ⟨fun _ _ _ _ h => (by cases h), fun _ _ _ _ h => (by cases h)⟩
    (fun _ _ _ => statementLevel_isStatementParser settings)
    (fun _ _ _ => statementLevel_isStatementParser settings')
    fun _ _ _ _ hp hq _ => statementLevel_abreast hp hq

instance : Abreast (program settings) (program settings') := by
  have hi := statement_isStatementParser settings
  have hi' := statement_isStatementParser settings'
  have : Abreast (compound settings (statement settings))
      (compound settings' (statement settings')) :=
    compound_abreast hi hi'
  have : Abreast (statementList settings (statement settings) .endOfFile .unexpectedEnd)
      (statementList settings' (statement settings') .endOfFile .unexpectedEnd) :=
    statementList_abreast hi hi' _ _
  unfold program
  infer_instance

end

end Parser

end PascalFront
