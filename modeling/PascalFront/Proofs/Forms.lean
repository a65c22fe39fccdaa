-- Forms of phrases, as what stands between a row of tokens and the rest behind
-- it. The rest of a phrase can be replaced by almost any other, and every form
-- has a phrase of its own: that is what completes a program that breaks off.
import PascalFront.Proofs.Grammar

namespace PascalFront

/-- A form of phrases: which rows of tokens start with one, and what is left behind it. -/
def Form := List Token → List Token → Prop

namespace Form

/-! ## The forms of the language -/

def nothing : Form := fun ts rest => ts = rest

def token (k : TokenKind) : Form := fun ts rest => ∃ t : Token, t.kind = k ∧ ts = t :: rest

/-- A token of one of some kinds. -/
def opener (opens : TokenKind → Prop) : Form := fun ts rest =>
  ∃ t : Token, opens t.kind ∧ ts = t :: rest

/-- One phrase and another one behind it. -/
def andThen (L M : Form) : Form := fun ts rest => ∃ mid, L ts mid ∧ M mid rest

/-- A phrase that may be left out. -/
def optional (L : Form) : Form := fun ts rest => ts = rest ∨ L ts rest

/-- Any number of items, each behind a token that announces it. -/
inductive Tail (opens : TokenKind → Prop) (item : Form) : Form
  | nil {ts : List Token} : Tail opens item ts ts
  | cons {t : Token} {ts mid rest : List Token} : opens t.kind → item ts mid →
      Tail opens item mid rest → Tail opens item (t :: ts) rest

def phrase (layer : Layer) : Form := fun ts rest => ∃ e, Phrase layer ts e rest

def arguments : Form := fun ts rest => ∃ es, Arguments ts es rest

def assignment : Form := fun ts rest => ∃ target value, Assignment ts target value rest

def optionalSemicolon : Form := OptionalSemicolon

def statement : Form := fun ts rest => ∃ x, Statement ts x rest

def statements : Form := fun ts rest => ∃ xs, Statements ts xs rest

variable {L M : Form} {ts rest : List Token}

/-! ## Another rest -/

/-- What may take the place of a rest: an ELSE only where there was one. -/
def Replaces (rest rest' : List Token) : Prop :=
  kindAhead rest' = .kwElse → kindAhead rest = .kwElse

theorem Replaces.append {rest' : List Token} (h : Replaces rest rest') (w : List Token) :
    Replaces (w ++ rest) (w ++ rest') := by
  cases w with
  | nil => exact h
  | cons t w => exact id

/-- A form whose phrases stay phrases of the form in front of another rest. -/
class Movable (L : Form) : Prop where
  move : ∀ {ts rest}, L ts rest → ∃ w, ts = w ++ rest ∧
    ∀ rest', Replaces rest rest' → L (w ++ rest') rest'

instance (k : TokenKind) : Movable (token k) where
  move := by
    rintro _ rest ⟨t, ht, rfl⟩
    exact ⟨[t], rfl, fun rest' _ => ⟨t, ht, rfl⟩⟩

instance : Movable nothing where
  move := by
    rintro _ rest rfl
    exact ⟨[], rfl, fun _ _ => rfl⟩

instance (opens : TokenKind → Prop) : Movable (opener opens) where
  move := by
    rintro _ rest ⟨t, ht, rfl⟩
    exact ⟨[t], rfl, fun rest' _ => ⟨t, ht, rfl⟩⟩

instance [hL : Movable L] : Movable L.optional where
  move := by
    rintro ts rest (rfl | h)
    · exact ⟨[], rfl, fun _ _ => Or.inl rfl⟩
    · obtain ⟨w, hts, hw⟩ := hL.move h
      exact ⟨w, hts, fun rest' hr => Or.inr (hw rest' hr)⟩

instance [hL : Movable L] [hM : Movable M] : Movable (L.andThen M) where
  move := by
    rintro ts rest ⟨mid, h, h'⟩
    obtain ⟨w, rfl, hw⟩ := hL.move h
    obtain ⟨w', rfl, hw'⟩ := hM.move h'
    refine ⟨w ++ w', (List.append_assoc _ _ _).symm, fun rest' hr => ?_⟩
    rw [List.append_assoc]
    exact ⟨w' ++ rest', hw _ (hr.append w'), hw' _ hr⟩

instance (opens : TokenKind → Prop) (item : Form) [hi : Movable item] :
    Movable (Tail opens item) where
  move := by
    intro ts rest h
    induction h with
    | nil => exact ⟨[], rfl, fun rest' _ => .nil⟩
    | cons ht hitem _ ih =>
      obtain ⟨w, rfl, hw⟩ := hi.move hitem
      obtain ⟨w', rfl, hw'⟩ := ih
      refine ⟨_ :: (w ++ w'), by rw [List.cons_append, List.append_assoc], fun rest' hr => ?_⟩
      rw [List.cons_append, List.append_assoc]
      exact .cons ht (hw _ (hr.append w')) (hw' _ hr)

/-- An expression does not depend on what stands behind it. -/
theorem phrase_moves {layer : Layer} {e : Expr} (h : Phrase layer ts e rest) :
    ∃ w, ts = w ++ rest ∧ ∀ rest', Phrase layer (w ++ rest') e rest' := by
  induction h with
  | name ht => exact ⟨[_], rfl, fun _ => .name ht⟩
  | literal ht => exact ⟨[_], rfl, fun _ => .literal ht⟩
  | not ht _ ih =>
    obtain ⟨w, rfl, hw⟩ := ih
    exact ⟨_ :: w, rfl, fun rest' => .not ht (hw rest')⟩
  | @parens t u ts rest e ht _ hu ih =>
    obtain ⟨w, rfl, hw⟩ := ih
    refine ⟨t :: (w ++ [u]), by simp, fun rest' => ?_⟩
    rw [List.cons_append, List.append_assoc]
    exact .parens ht (hw _) hu
  | factor _ ih =>
    obtain ⟨w, rfl, hw⟩ := ih
    exact ⟨w, rfl, fun rest' => .factor (hw rest')⟩
  | @product t ts mid rest op left right hop _ ht _ ihl ihr =>
    obtain ⟨w, rfl, hw⟩ := ihl
    obtain ⟨w', rfl, hw'⟩ := ihr
    refine ⟨w ++ t :: w', by simp, fun rest' => ?_⟩
    rw [List.append_assoc]
    exact .product hop (hw _) ht (hw' rest')
  | term _ ih =>
    obtain ⟨w, rfl, hw⟩ := ih
    exact ⟨w, rfl, fun rest' => .term (hw rest')⟩
  | plus ht _ ih =>
    obtain ⟨w, rfl, hw⟩ := ih
    exact ⟨_ :: w, rfl, fun rest' => .plus ht (hw rest')⟩
  | minus ht _ ih =>
    obtain ⟨w, rfl, hw⟩ := ih
    exact ⟨_ :: w, rfl, fun rest' => .minus ht (hw rest')⟩
  | @sum t ts mid rest op left right hop _ ht _ ihl ihr =>
    obtain ⟨w, rfl, hw⟩ := ihl
    obtain ⟨w', rfl, hw'⟩ := ihr
    refine ⟨w ++ t :: w', by simp, fun rest' => ?_⟩
    rw [List.append_assoc]
    exact .sum hop (hw _) ht (hw' rest')
  | simple _ ih =>
    obtain ⟨w, rfl, hw⟩ := ih
    exact ⟨w, rfl, fun rest' => .simple (hw rest')⟩
  | @relation t ts mid rest op left right hop _ ht _ ihl ihr =>
    obtain ⟨w, rfl, hw⟩ := ihl
    obtain ⟨w', rfl, hw'⟩ := ihr
    refine ⟨w ++ t :: w', by simp, fun rest' => ?_⟩
    rw [List.append_assoc]
    exact .relation hop (hw _) ht (hw' rest')

theorem phrase_length {layer : Layer} {e : Expr} (h : Phrase layer ts e rest) :
    rest.length < ts.length := by
  induction h <;> simp_all only [List.length_cons] <;> omega

instance (layer : Layer) : Movable (phrase layer) where
  move := by
    rintro ts rest ⟨e, he⟩
    obtain ⟨w, hts, hw⟩ := phrase_moves he
    exact ⟨w, hts, fun rest' _ => ⟨e, hw rest'⟩⟩

theorem arguments_move {es : List Expr} (h : Arguments ts es rest) :
    ∃ w, ts = w ++ rest ∧ ∀ rest', Arguments (w ++ rest') es rest' := by
  induction h with
  | last he =>
    obtain ⟨w, hts, hw⟩ := phrase_moves he
    exact ⟨w, hts, fun rest' => .last (hw rest')⟩
  | @more t ts mid rest e es he ht _ ih =>
    obtain ⟨w, rfl, hw⟩ := phrase_moves he
    obtain ⟨w', rfl, hw'⟩ := ih
    refine ⟨w ++ t :: w', by simp, fun rest' => ?_⟩
    rw [List.append_assoc]
    exact .more (hw _) ht (hw' rest')

theorem assignment_moves {target : Name} {value : Expr} (h : Assignment ts target value rest) :
    ∃ w, ts = w ++ rest ∧ ∀ rest', Assignment (w ++ rest') target value rest' := by
  obtain ⟨ht, hu, he⟩ := h
  obtain ⟨w, rfl, hw⟩ := phrase_moves he
  exact ⟨_ :: _ :: w, rfl, fun rest' => .intro ht hu (hw rest')⟩

theorem optionalSemicolon_moves (h : OptionalSemicolon ts rest) :
    ∃ w, ts = w ++ rest ∧ ∀ rest', OptionalSemicolon (w ++ rest') rest' := by
  cases h with
  | absent => exact ⟨[], rfl, fun _ => .absent⟩
  | present ht => exact ⟨[_], rfl, fun _ => .present ht⟩

/-- The phrases of a form that stay so in front of another rest, in one piece of tokens `w`. -/
def Moves (L : Form) (w rest : List Token) : Prop :=
  ∀ rest', Replaces rest rest' → L (w ++ rest') rest'

theorem Moves.behind {t : Token} {w : List Token} (w' : List Token)
    (h : Moves L w (w' ++ t :: rest)) (rest' : List Token) :
    L (w ++ (w' ++ t :: rest')) (w' ++ t :: rest') := by
  have hhead : Replaces (t :: rest) (t :: rest') := id
  exact h _ (hhead.append w')

/-- The condition of a LOOP starts the same in front of another rest. -/
theorem keepsSign {w w' : List Token} {e : Expr} (he : Phrase .expression (w' ++ rest) e rest)
    (hsign : w' ++ rest = w ++ (w' ++ rest) →
      kindAhead (w' ++ rest) ≠ .plus ∧ kindAhead (w' ++ rest) ≠ .minus) (rest' : List Token)
    (hw : w' ++ rest' = w ++ (w' ++ rest')) :
    kindAhead (w' ++ rest') ≠ .plus ∧ kindAhead (w' ++ rest') ≠ .minus := by
  have hnil : w = [] := List.self_eq_append_left.mp hw
  rcases w' with _ | ⟨t, w'⟩
  · exact absurd (phrase_length he) (Nat.lt_irrefl _)
  · exact hsign (by rw [hnil, List.nil_append])

mutual
theorem statement_moves {ts rest : List Token} {x : Stmt} :
    Statement ts x rest → ∃ w, ts = w ++ rest ∧ Moves statement w rest
  | .empty => ⟨[], rfl, fun _ _ => ⟨_, .empty⟩⟩
  | .block (t := t) (u := u) ht hxs hu => by
    obtain ⟨w, rfl, hw⟩ := statements_move hxs
    refine ⟨t :: (w ++ [u]), by simp, fun rest' _ => ?_⟩
    obtain ⟨xs, h⟩ := hw.behind [] rest'
    rw [List.cons_append, List.append_assoc]
    exact ⟨_, .block ht h hu⟩
  | .assign h => by
    obtain ⟨w, rfl, hw⟩ := assignment_moves h
    exact ⟨w, rfl, fun rest' _ => ⟨_, .assign (hw rest')⟩⟩
  | .call ht => ⟨[_], rfl, fun _ _ => ⟨_, .call ht⟩⟩
  | .callEmpty ht hu hv => ⟨[_, _, _], rfl, fun _ _ => ⟨_, .callEmpty ht hu hv⟩⟩
  | .callWith (t := t) (u := u) (v := v) ht hu h hv => by
    obtain ⟨w, rfl, hw⟩ := arguments_move h
    refine ⟨t :: u :: (w ++ [v]), by simp, fun rest' _ => ?_⟩
    rw [List.cons_append, List.cons_append, List.append_assoc]
    exact ⟨_, .callWith ht hu (hw _) hv⟩
  | .ifThen (t := t) (u := u) ht he hu hx helse => by
    obtain ⟨w, rfl, hw⟩ := phrase_moves he
    obtain ⟨w', rfl, hw'⟩ := statement_moves hx
    refine ⟨t :: (w ++ u :: w'), by simp, fun rest' hr => ?_⟩
    obtain ⟨x, h⟩ := hw' rest' hr
    rw [List.cons_append, List.append_assoc]
    exact ⟨_, .ifThen ht (hw _) hu h fun hk => helse (hr hk)⟩
  | .ifElse (t := t) (u := u) (v := v) ht he hu hx hv hy => by
    obtain ⟨w, rfl, hw⟩ := phrase_moves he
    obtain ⟨w', rfl, hw'⟩ := statement_moves hx
    obtain ⟨w'', rfl, hw''⟩ := statement_moves hy
    refine ⟨t :: (w ++ u :: (w' ++ v :: w'')), by simp, fun rest' hr => ?_⟩
    obtain ⟨x, h⟩ := hw'.behind [] (w'' ++ rest')
    obtain ⟨y, h'⟩ := hw'' rest' hr
    rw [List.cons_append, List.append_assoc, List.cons_append, List.append_assoc]
    exact ⟨_, .ifElse ht (hw _) hu h hv h'⟩
  | .whileDo (t := t) (u := u) ht he hu hx => by
    obtain ⟨w, rfl, hw⟩ := phrase_moves he
    obtain ⟨w', rfl, hw'⟩ := statement_moves hx
    refine ⟨t :: (w ++ u :: w'), by simp, fun rest' hr => ?_⟩
    obtain ⟨x, h⟩ := hw' rest' hr
    rw [List.cons_append, List.append_assoc]
    exact ⟨_, .whileDo ht (hw _) hu h⟩
  | .repeatUntil (t := t) (u := u) ht hxs hu he => by
    obtain ⟨w, rfl, hw⟩ := statements_move hxs
    obtain ⟨w', rfl, hw'⟩ := phrase_moves he
    refine ⟨t :: (w ++ u :: w'), by simp, fun rest' _ => ?_⟩
    obtain ⟨xs, h⟩ := hw.behind [] (w' ++ rest')
    rw [List.cons_append, List.append_assoc]
    exact ⟨_, .repeatUntil ht h hu (hw' rest')⟩
  | .loop (t := t) (u := u) (v := v) (w := z) ht hu hfirst hskip hsign hcond hskip' hnext hv hz
      hx => by
    obtain ⟨w₁, rfl, hw₁⟩ := assignment_moves hfirst
    obtain ⟨w₂, rfl, hw₂⟩ := optionalSemicolon_moves hskip
    obtain ⟨w₃, rfl, hw₃⟩ := phrase_moves hcond
    obtain ⟨w₄, rfl, hw₄⟩ := optionalSemicolon_moves hskip'
    obtain ⟨w₅, rfl, hw₅⟩ := assignment_moves hnext
    obtain ⟨w₆, rfl, hw₆⟩ := statement_moves hx
    refine ⟨t :: u :: (w₁ ++ (w₂ ++ (w₃ ++ (w₄ ++ (w₅ ++ v :: z :: w₆))))), by simp,
      fun rest' hr => ?_⟩
    obtain ⟨x, h⟩ := hw₆ rest' hr
    simp only [List.cons_append, List.append_assoc]
    exact ⟨_, .loop ht hu (hw₁ _) (hw₂ _) (keepsSign hcond hsign _) (hw₃ _) (hw₄ _) (hw₅ _) hv hz h⟩
  | .when (t := t) (u := u) (v := v) (w := z) ht he hu hx hskip hv hy hskip' hz hp => by
    obtain ⟨w₁, rfl, hw₁⟩ := phrase_moves he
    obtain ⟨w₂, rfl, hw₂⟩ := statement_moves hx
    obtain ⟨w₃, rfl, hw₃⟩ := optionalSemicolon_moves hskip
    obtain ⟨w₄, rfl, hw₄⟩ := statement_moves hy
    obtain ⟨w₅, rfl, hw₅⟩ := optionalSemicolon_moves hskip'
    obtain ⟨w₆, rfl, hw₆⟩ := statement_moves hp
    refine ⟨t :: (w₁ ++ u :: (w₂ ++ (w₃ ++ v :: (w₄ ++ (w₅ ++ z :: w₆))))), by simp,
      fun rest' hr => ?_⟩
    obtain ⟨x, hx⟩ := hw₂.behind w₃ (w₄ ++ (w₅ ++ z :: (w₆ ++ rest')))
    obtain ⟨y, hy⟩ := hw₄.behind w₅ (w₆ ++ rest')
    obtain ⟨p, hp⟩ := hw₆ rest' hr
    simp only [List.cons_append, List.append_assoc]
    exact ⟨_, .when ht (hw₁ _) hu hx (hw₃ _) hv hy (hw₅ _) hz hp⟩

theorem statements_move {ts rest : List Token} {xs : List Stmt} :
    Statements ts xs rest → ∃ w, ts = w ++ rest ∧ Moves statements w rest
  | .last hx => by
    obtain ⟨w, rfl, hw⟩ := statement_moves hx
    refine ⟨w, rfl, fun rest' hr => ?_⟩
    obtain ⟨x, h⟩ := hw rest' hr
    exact ⟨_, .last h⟩
  | .more (t := t) hx ht hxs => by
    obtain ⟨w, rfl, hw⟩ := statement_moves hx
    obtain ⟨w', rfl, hw'⟩ := statements_move hxs
    refine ⟨w ++ t :: w', by simp, fun rest' hr => ?_⟩
    obtain ⟨x, h⟩ := hw.behind [] (w' ++ rest')
    obtain ⟨xs, h'⟩ := hw' rest' hr
    rw [List.append_assoc]
    exact ⟨_, .more h ht h'⟩
end

instance : Movable statement where
  move := by
    rintro ts rest ⟨x, hx⟩
    exact statement_moves hx

instance : Movable statements where
  move := by
    rintro ts rest ⟨xs, hxs⟩
    exact statements_move hxs

instance : Movable arguments where
  move := by
    rintro ts rest ⟨es, hes⟩
    obtain ⟨w, hts, hw⟩ := arguments_move hes
    exact ⟨w, hts, fun rest' _ => ⟨es, hw rest'⟩⟩

instance : Movable assignment where
  move := by
    rintro ts rest ⟨target, value, h⟩
    obtain ⟨w, hts, hw⟩ := assignment_moves h
    exact ⟨w, hts, fun rest' _ => ⟨target, value, hw rest'⟩⟩

instance : Movable optionalSemicolon where
  move h := by
    obtain ⟨w, hts, hw⟩ := optionalSemicolon_moves h
    exact ⟨w, hts, fun rest' _ => hw rest'⟩

/-! ## Completions -/

/-- Tokens that count for the grammar and are no end. -/
def Proper (more : List Token) : Prop :=
  ∀ t ∈ more, t.isEnd = false ∧ t.kind ≠ .comment ∧ t.kind ≠ .error

/-- The tokens that change nothing about the phrase in front of them. An ELSE would belong to an IF
in it, a sign to an expression, and a BEGIN could open the program. -/
def mild : TokenKind → Bool
  | .kwElse | .plus | .minus | .kwBegin => false
  | _ => true

/-- What is begun with `taken` is completed by `more`, whatever mild token stands behind. -/
structure Completes (L : Form) (taken more : List Token) : Prop where
  proper : Proper more
  derives : ∀ rest, mild (kindAhead rest) = true →
    L (taken ++ (more ++ rest)) rest ∧ mild (kindAhead (more ++ rest)) = true

/-- A form that can be completed from nothing. -/
class Completable (L : Form) : Prop where
  complete : ∃ more, Completes L [] more

/-- A token of a kind, without a text of its own. -/
def sample (k : TokenKind) : Token := ⟨k, "", none, .origin, .first⟩

/-- The kinds of the tokens that complete something. -/
class Plain (k : TokenKind) : Prop where
  plain : k ≠ .endOfFile ∧ k ≠ .comment ∧ k ≠ .error ∧ mild k = true

theorem replaces_of_mild {rest' : List Token} (h : mild (kindAhead rest') = true) :
    Replaces rest rest' := fun he => by rw [he] at h; cases h

theorem proper_sample (k : TokenKind) [hk : Plain k] : Proper [sample k] := by
  intro t ht
  rw [List.mem_singleton.mp ht]
  obtain ⟨h₁, h₂, h₃, -⟩ := hk.plain
  exact ⟨beq_eq_false_iff_ne.mpr h₁, h₂, h₃⟩

theorem Proper.append {more more' : List Token} (h : Proper more) (h' : Proper more') :
    Proper (more ++ more') := fun t ht => (List.mem_append.mp ht).elim (h t) (h' t)

theorem Completes.mono {taken more : List Token} (h : Completes L taken more)
    (hLM : ∀ ts rest, L ts rest → M ts rest) : Completes M taken more :=
  ⟨h.proper, fun rest hr => ⟨hLM _ _ (h.derives rest hr).1, (h.derives rest hr).2⟩⟩

/-- What is begun with the first of two forms is completed with a phrase of the other one. -/
theorem Completes.andThen {taken more : List Token} (h : Completes L taken more)
    [hM : Completable M] : ∃ more, Completes (L.andThen M) taken more := by
  obtain ⟨more', hM⟩ := hM.complete
  refine ⟨more ++ more', h.proper.append hM.proper, fun rest hr => ?_⟩
  obtain ⟨hm, hk⟩ := hM.derives rest hr
  obtain ⟨hl, hk'⟩ := h.derives _ hk
  rw [List.append_assoc]
  exact ⟨⟨_, hl, hm⟩, hk'⟩

theorem completable_mono [hL : Completable L] (hLM : ∀ ts rest, L ts rest → M ts rest) :
    Completable M := by
  obtain ⟨more, h⟩ := hL.complete
  exact ⟨more, h.mono hLM⟩

/-- A form with an empty phrase. -/
theorem completable_nil (h : ∀ rest, mild (kindAhead rest) = true → L rest rest) :
    Completable L :=
  ⟨[], by simp [Proper], fun rest hr => ⟨h rest hr, hr⟩⟩

instance (k : TokenKind) [hk : Plain k] : Completable (token k) where
  complete := ⟨[sample k], proper_sample k, fun _ _ =>
    ⟨⟨sample k, rfl, rfl⟩, hk.plain.2.2.2⟩⟩

instance [hL : Completable L] [Completable M] : Completable (L.andThen M) where
  complete := by
    obtain ⟨more, h⟩ := hL.complete
    exact h.andThen

instance : Plain .identifier := ⟨by decide⟩
instance : Plain .assign := ⟨by decide⟩
instance : Plain .dot := ⟨by decide⟩
instance : Plain .leftParen := ⟨by decide⟩
instance : Plain .rightParen := ⟨by decide⟩
instance : Plain .kwThen := ⟨by decide⟩
instance : Plain .kwDo := ⟨by decide⟩
instance : Plain .kwEnd := ⟨by decide⟩
instance : Plain .kwUntil := ⟨by decide⟩
instance : Plain .kwLessThan0 := ⟨by decide⟩
instance : Plain .kwEqual0 := ⟨by decide⟩
instance : Plain .kwGreaterThan0 := ⟨by decide⟩

/-- An identifier is a phrase of every layer. -/
theorem phrase_name {t : Token} (layer : Layer) (ht : t.kind = .identifier) :
    phrase layer (t :: rest) rest := by
  have hname : Phrase .factor (t :: rest) (.name t.asName) rest := .name ht
  cases layer
  · exact ⟨_, hname⟩
  · exact ⟨_, .factor hname⟩
  · exact ⟨_, .term (.factor hname)⟩
  · exact ⟨_, .simple (.term (.factor hname))⟩

instance (layer : Layer) : Completable (phrase layer) :=
  completable_mono (L := token .identifier) (by
    rintro _ rest ⟨t, ht, rfl⟩
    exact phrase_name layer ht)

instance : Completable assignment :=
  completable_mono (L := (token .identifier).andThen ((token .assign).andThen (phrase .expression)))
    (by
      rintro _ _ ⟨_, ⟨t, ht, rfl⟩, _, ⟨u, hu, rfl⟩, e, he⟩
      exact ⟨_, e, .intro ht hu he⟩)

instance : Completable nothing := completable_nil fun _ _ => rfl

instance : Completable L.optional := completable_nil fun _ _ => Or.inl rfl

instance : Completable optionalSemicolon := completable_nil fun _ _ => .absent

instance (opens : TokenKind → Prop) (item : Form) : Completable (Tail opens item) :=
  completable_nil fun _ _ => .nil

instance : Completable statement := completable_nil fun _ _ => ⟨_, .empty⟩

instance : Completable statements := completable_nil fun _ _ => ⟨_, .last .empty⟩

end Form

end PascalFront
