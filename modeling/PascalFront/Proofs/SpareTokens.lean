-- The tokens that a program can do without, told by what stands around them in
-- the row. Each of them may be left out: what is left of a program of the grammar is
-- a draft of one.
import PascalFront.Proofs.Repair

namespace PascalFront

open PascalFront.Parser Draft

/-! ## What stands in front -/

/-- What stands in front of a token, as far as it tells which part of a statement the token is. -/
structure Front where
  /-- The kind of the token directly in front. -/
  last : TokenKind
  /-- Whether a LOOP stands in front that has not come to its DO. -/
  header : Bool

namespace Front

/-- Nothing stands in front. -/
def start : Front := ⟨.endOfFile, false⟩

def next (f : Front) (t : Token) : Front :=
  ⟨t.kind, t.kind = .kwLoop ∨ f.header ∧ t.kind ≠ .kwDo⟩

def behind (f : Front) (ts : List Token) : Front := ts.foldl next f

end Front

/-- The tokens that may be left out, with `f` in front of them and `behind` behind them: any DO,
THEN and first marker of a WHEN, a later marker between a semicolon and a branch that is not empty,
the parentheses of the header of a LOOP, and the sign of an assignment whose value does not begin
with a parenthesis. -/
def spare (f : Front) (t : Token) (behind : List Token) : Bool :=
  match t.kind with
  | .kwDo | .kwThen | .kwLessThan0 => true
  | .kwEqual0 | .kwGreaterThan0 => f.last = .semicolon ∧ kindAhead behind ∈ statementOpeners
  | .leftParen => f.last = .kwLoop
  | .rightParen => f.header ∧ kindAhead behind = .kwDo
  | .assign => kindAhead behind ≠ .leftParen
  | _ => false

/-- `Trimmed f ts ms`: the draft `ms` of the row `ts` has only spare tokens left out, and no two of
them next to each other. -/
inductive Trimmed : Front → List Token → Draft → Prop
  | nil {f : Front} : Trimmed f [] []
  | keep {f : Front} {t : Token} {ts : List Token} {ms : Draft} : Trimmed (f.next t) ts ms →
      Trimmed f (t :: ts) (⟨t, true⟩ :: ms)
  | leave {f : Front} {t u : Token} {ts : List Token} {ms : Draft} :
      spare f t (u :: ts) = true → Trimmed ((f.next t).next u) ts ms →
      Trimmed f (t :: u :: ts) (⟨t, false⟩ :: ⟨u, true⟩ :: ms)

section

variable {f g : Front} {t u v z : Token} {k : TokenKind} {ts rest : List Token} {ms ms' : Draft}

theorem spare_dispensable (h : spare f t ts = true) : t.kind ∈ dispensableKinds := by
  unfold spare at h
  split at h
  case h_9 => cases h
  all_goals
    rename_i hk
    rw [hk]
    decide

theorem not_spare (ht : t.kind = k) (hk : k ∉ dispensableKinds) : spare f t ts = false := by
  rw [Bool.eq_false_iff]
  exact fun h => hk (ht ▸ spare_dispensable h)

namespace Trimmed

theorem whole (f : Front) (ts : List Token) : Trimmed f ts (whole ts) := by
  induction ts generalizing f with
  | nil => exact .nil
  | cons t ts ih => exact .keep (ih _)

/-- The first token of a row is kept or left out. Behind one that is left out, the next one is
kept. -/
theorem parts (h : Trimmed f (t :: ts) ms) : ∃ b ms', ms = ⟨t, b⟩ :: ms' ∧
    Trimmed (f.next t) ts ms' ∧ (b = false → spare f t ts = true ∧
      ∃ u ms'', ms' = ⟨u, true⟩ :: ms'' ∧ kindAhead ts = u.kind) := by
  cases h with
  | keep h => exact ⟨true, _, rfl, h, fun hb => by cases hb⟩
  | leave hs h => exact ⟨false, _, rfl, .keep h, fun _ => ⟨hs, _, _, rfl, rfl⟩⟩

theorem stays (h : Trimmed f (t :: ts) ms) (hs : spare f t ts = false) :
    ∃ ms', ms = ⟨t, true⟩ :: ms' ∧ Trimmed (f.next t) ts ms' := by
  obtain ⟨b, ms', rfl, hms, hb⟩ := h.parts
  cases b with
  | true => exact ⟨ms', rfl, hms⟩
  | false =>
    rw [(hb rfl).1] at hs
    cases hs

theorem keeps (h : Trimmed f (t :: ts) ms) (ht : t.kind = k) (hk : k ∉ dispensableKinds) :
    ∃ ms', ms = ⟨t, true⟩ :: ms' ∧ Trimmed (f.next t) ts ms' :=
  h.stays (not_spare ht hk)

end Trimmed

/-! ## Expressions -/

/-- The kinds that do not stand in expressions and between arguments. -/
def outerKinds : List TokenKind :=
  [.semicolon, .kwLoop, .kwDo, .kwThen, .kwLessThan0, .kwEqual0, .kwGreaterThan0, .assign]

/-- Up to `rest`, the tokens `ts` are those of expressions. -/
def Inner (ts rest : List Token) : Prop := ∀ t ∈ ts, t.kind ∉ outerKinds ∨ t ∈ rest

theorem inner_cons (ht : t.kind = k) (hk : k ∉ outerKinds) (h : Inner ts rest) :
    Inner (t :: ts) rest :=
  List.forall_mem_cons.mpr ⟨Or.inl (ht ▸ hk), h⟩

theorem Inner.trans {mid : List Token} (h : Inner ts (t :: mid)) (ht : t.kind = k)
    (hk : k ∉ outerKinds) (h' : Inner mid rest) : Inner ts rest := by
  intro u hu
  rcases h u hu with hu | hu
  · exact Or.inl hu
  · exact inner_cons ht hk h' u hu

theorem inner_refl (ts : List Token) : Inner ts ts := fun _ => Or.inr

theorem phrase_inner {layer : Layer} {e : Expr} (h : Phrase layer ts e rest) : Inner ts rest := by
  have hop (op : Operator) : op.token ∉ outerKinds := by cases op <;> decide
  induction h with
  | name ht => exact inner_cons ht (by decide) (inner_refl _)
  | literal ht =>
    rcases constant?_eq_some ht with ⟨hk, -⟩ | ⟨hk, -⟩ | ⟨hk, -⟩
    all_goals exact inner_cons hk (by decide) (inner_refl _)
  | not ht _ ih | plus ht _ ih | minus ht _ ih => exact inner_cons ht (by decide) ih
  | parens ht _ hu ih => exact inner_cons ht (by decide) (ih.trans hu (by decide) (inner_refl _))
  | factor _ ih | term _ ih | simple _ ih => exact ih
  | product _ _ ht _ ihl ihr | sum _ _ ht _ ihl ihr | relation _ _ ht _ ihl ihr =>
    exact ihl.trans ht (hop _) ihr

theorem arguments_inner {es : List Expr} (h : Arguments ts es rest) : Inner ts rest := by
  induction h with
  | last he => exact phrase_inner he
  | more he ht _ ih => exact (phrase_inner he).trans ht (by decide) ih

theorem ne_of_inner {k k' : TokenKind} (h : k ∉ outerKinds) (hk : k' ∈ outerKinds) : k ≠ k' :=
  fun he => h (he ▸ hk)

/-- A parenthesis in an expression is not one of the header of a LOOP. -/
theorem not_spare_inner (ht : t.kind ∉ outerKinds) (hlast : f.last ≠ .kwLoop)
    (hheader : f.header = true → kindAhead ts ≠ .kwDo) : spare f t ts = false := by
  unfold spare
  split
  all_goals simp_all [outerKinds]

/-- Nothing is left out in the tokens of an expression. -/
theorem Trimmed.passes {w : List Token} (hw : ∀ t ∈ w, t.kind ∉ outerKinds)
    (h : Trimmed f (w ++ rest) ms) (hlast : f.last ≠ .kwLoop)
    (hheader : f.header = true → kindAhead rest ≠ .kwDo) :
    ∃ ms' g, ms = Draft.whole w ++ ms' ∧ Trimmed g rest ms' ∧ g.header = f.header ∧
      (w = [] ∧ g = f ∨ g.last ∉ outerKinds) := by
  induction w generalizing f ms with
  | nil => exact ⟨ms, f, rfl, h, rfl, Or.inl ⟨rfl, rfl⟩⟩
  | cons t w ih =>
    obtain ⟨ht, hw⟩ := List.forall_mem_cons.mp hw
    have hahead : f.header = true → kindAhead (w ++ rest) ≠ .kwDo := by
      cases w with
      | nil => exact hheader
      | cons u w => exact fun _ => ne_of_inner (hw u List.mem_cons_self) (by decide)
    obtain ⟨ms, rfl, hms⟩ := h.stays (not_spare_inner ht hlast hahead)
    have hloop : t.kind ≠ .kwLoop := ne_of_inner ht (by decide)
    have hdo : t.kind ≠ .kwDo := ne_of_inner ht (by decide)
    have hnext : (f.next t).header = f.header := by simp [Front.next, hloop, hdo]
    obtain ⟨ms', g, rfl, hg, hsame, hin⟩ := ih hw hms hloop (by rwa [hnext])
    refine ⟨ms', g, rfl, hg, hsame.trans hnext, Or.inr ?_⟩
    rcases hin with ⟨-, rfl⟩ | hin
    · exact ht
    · exact hin

theorem Trimmed.expression {e : Expr} (he : Phrase .expression ts e rest) (h : Trimmed f ts ms)
    (hlast : f.last ≠ .kwLoop) (hheader : f.header = true → kindAhead rest ≠ .kwDo) :
    ∃ w ms' g, ms = Draft.whole w ++ ms' ∧ Spells w e ∧ ts = w ++ rest ∧ Trimmed g rest ms' ∧
      g.header = f.header ∧ g.last ∉ outerKinds := by
  obtain ⟨w, rfl, hw⟩ := Form.phrase_moves he
  have hinner : ∀ t ∈ w, t.kind ∉ outerKinds := by
    simpa [Inner] using phrase_inner (hw [])
  obtain ⟨ms', g, hms, hg, hsame, hin⟩ := h.passes hinner hlast hheader
  refine ⟨w, ms', g, hms, hw, rfl, hg, hsame, ?_⟩
  rcases hin with ⟨rfl, -⟩ | hin
  · exact absurd (Form.phrase_length he) (Nat.lt_irrefl _)
  · exact hin

theorem Trimmed.arguments {es : List Expr} (hes : Arguments ts es rest) (h : Trimmed f ts ms)
    (hlast : f.last ≠ .kwLoop) (hheader : f.header = true → kindAhead rest ≠ .kwDo) :
    ∃ w ms' g, ms = Draft.whole w ++ ms' ∧ SpellAll w es ∧ Trimmed g rest ms' ∧
      g.header = f.header := by
  obtain ⟨w, rfl, hw⟩ := Form.arguments_move hes
  have hinner : ∀ t ∈ w, t.kind ∉ outerKinds := by
    simpa [Inner] using arguments_inner (hw [])
  obtain ⟨ms', g, hms, hg, hsame, -⟩ := h.passes hinner hlast hheader
  exact ⟨w, ms', g, hms, hw, hg, hsame⟩

/-! ## Parts of statements -/

theorem Trimmed.assignment {target : Name} {value : Expr} (ha : Assignment ts target value rest)
    (h : Trimmed f ts ms) (hheader : f.header = true → kindAhead rest ≠ .kwDo) :
    ∃ ms' g, Draft.Assignment ms target value ms' ∧ Trimmed g rest ms' ∧ g.header = f.header ∧
      g.last ∉ outerKinds := by
  obtain ⟨ht, hu, he⟩ := ha
  obtain ⟨ms₁, rfl, h₁⟩ := h.keeps ht (by decide)
  obtain ⟨b, ms₂, rfl, h₂, hb⟩ := h₁.parts
  obtain ⟨w, ms', g, rfl, hw, rfl, hg, hsame, hlast⟩ := h₂.expression he
    (by simp [Front.next, hu]) (by simpa [Front.next, ht, hu] using hheader)
  refine ⟨ms', g, .intro ht hu hw fun hfalse => ?_, hg, ?_, hlast⟩
  · have hs := (hb hfalse).1
    rw [spare, hu, (spells_starts hw _).2.1] at hs
    simpa using hs
  · simpa [Front.next, ht, hu] using hsame

theorem Trimmed.optionalSemicolon (hskip : OptionalSemicolon ts rest) (h : Trimmed f ts ms) :
    ∃ ms' g, Draft.OptionalSemicolon ms ms' ∧ Trimmed g rest ms' ∧ g.header = f.header := by
  cases hskip with
  | absent => exact ⟨ms, f, .absent, h, rfl⟩
  | present ht =>
    obtain ⟨ms', rfl, h'⟩ := h.keeps ht (by decide)
    exact ⟨ms', _, .present ht, h', by simp [Front.next, ht]⟩

theorem ahead_ne_do (hskip : OptionalSemicolon ts rest) (h : kindAhead rest ≠ .kwDo) :
    kindAhead ts ≠ .kwDo := by
  cases hskip with
  | absent => exact h
  | present ht => simp [ht]

theorem Trimmed.condition {mid : List Token} {e : Expr} (hskip : OptionalSemicolon ts mid)
    (hsign : mid = ts → kindAhead mid ≠ .plus ∧ kindAhead mid ≠ .minus)
    (he : Phrase .expression mid e rest) (h : Trimmed f ts ms) (hlast : f.last ≠ .kwLoop)
    (hrest : kindAhead rest ≠ .kwDo) :
    ∃ ms' g, Draft.Condition ms e ms' ∧ Trimmed g rest ms' ∧ g.header = f.header := by
  cases hskip with
  | absent =>
    obtain ⟨w, ms', g, rfl, hw, rfl, hg, hsame, -⟩ := h.expression he hlast fun _ => hrest
    obtain ⟨hplus, hminus⟩ := hsign rfl
    rw [(spells_starts hw _).2.1] at hplus hminus
    exact ⟨ms', g, .joined hw hplus hminus, hg, hsame⟩
  | present ht =>
    obtain ⟨ms₁, rfl, h₁⟩ := h.keeps ht (by decide)
    obtain ⟨w, ms', g, rfl, hw, -, hg, hsame, -⟩ :=
      h₁.expression he (by simp [Front.next, ht]) fun _ => hrest
    exact ⟨ms', g, .behind ht hw, hg, hsame.trans (by simp [Front.next, ht])⟩

/-- A later marker of a WHEN. Only behind a semicolon, and in front of a branch, is it left out. -/
theorem Trimmed.marker (hskip : OptionalSemicolon ts (t :: rest)) (ht : t.kind = k)
    (hk : k = .kwEqual0 ∨ k = .kwGreaterThan0) (h : Trimmed f ts ms) (hlast : f.last ≠ .semicolon) :
    ∃ b ms' g, Draft.Marker k ms ⟨t, b⟩ ms' ∧ Trimmed g rest ms' ∧ g.header = f.header ∧
      g.last = k := by
  have hspare (f : Front) : spare f t rest = true →
      f.last = .semicolon ∧ kindAhead rest ∈ statementOpeners := by
    rw [spare, ht]
    rcases hk with rfl | rfl <;> simp
  have hnext (f : Front) : (f.next t).header = f.header ∧ (f.next t).last = k := by
    rcases hk with rfl | rfl <;> simp [Front.next, ht]
  cases hskip with
  | absent =>
    obtain ⟨ms', rfl, h'⟩ := h.stays (Bool.eq_false_iff.mpr fun hs => hlast (hspare f hs).1)
    exact ⟨true, ms', _, .bare ht, h', hnext f⟩
  | present hs =>
    obtain ⟨ms₁, rfl, h₁⟩ := h.keeps hs (by decide)
    obtain ⟨b, ms', rfl, h', hb⟩ := h₁.parts
    refine ⟨b, ms', _, .behind hs ht fun hfalse => ?_, h', ?_, (hnext _).2⟩
    · obtain ⟨hspare', u, ms'', rfl, hu⟩ := hb hfalse
      have hopens := (hspare _ hspare').2
      rwa [hu] at hopens
    · exact (hnext _).1.trans (by simp [Front.next, hs])

/-! ## Statements -/

/-- What stands behind a statement that has `f` in front of it. Its first token is never left out: a
later marker follows an empty statement only where no semicolon stands in front. -/
def StandsBehind (f : Front) (rest : List Token) : Prop :=
  ∃ r behind, rest = r :: behind ∧ followsStatement r.kind = true ∧
    (f.last = .semicolon → r.kind ≠ .kwEqual0 ∧ r.kind ≠ .kwGreaterThan0)

theorem StandsBehind.mono (h : StandsBehind f rest)
    (hlast : g.last = .semicolon → f.last = .semicolon) : StandsBehind g rest := by
  obtain ⟨r, behind, hrest, hr, hmarker⟩ := h
  exact ⟨r, behind, hrest, hr, fun hg => hmarker (hlast hg)⟩

theorem standsBehind_of_kind (ht : t.kind = k) (hk : followsStatement k = true)
    (hmarker : k ≠ .kwEqual0 ∧ k ≠ .kwGreaterThan0) : StandsBehind f (t :: rest) := by
  subst ht
  exact ⟨t, rest, rfl, hk, fun _ => hmarker⟩

theorem standsBehind_marker (hskip : OptionalSemicolon ts (t :: rest)) (ht : t.kind = k)
    (hk : followsStatement k = true) (hlast : f.last ≠ .semicolon) : StandsBehind f ts := by
  cases hskip with
  | absent => exact ⟨t, rest, rfl, by rwa [ht], fun h => absurd h hlast⟩
  | present hs => exact standsBehind_of_kind hs rfl (by decide)

theorem StandsBehind.stays (h : StandsBehind f rest)
    (hlast : g.last = .semicolon → f.last = .semicolon) (hg : Trimmed g rest ms) :
    ∃ r ms', ms = ⟨r, true⟩ :: ms' ∧ kindAhead rest = r.kind ∧ lineAhead rest = r.line := by
  obtain ⟨r, behind, rfl, hr, hmarker⟩ := h.mono hlast
  obtain ⟨ms', rfl, -⟩ := hg.stays (t := r) (by
    unfold spare
    split <;> simp_all [followsStatement])
  exact ⟨r, ms', rfl, rfl, rfl⟩

/-- A statement stays one where spare tokens are left out. No header of a LOOP is open behind it,
and it does not end with a semicolon. -/
def TrimsStatement (ts : List Token) (x : Stmt) (rest : List Token) : Prop :=
  ∀ {f ms}, Trimmed f ts ms → f.header = false → StandsBehind f rest →
    ∃ x' ms' g, Draft.Statement ms x x' ms' ∧ Trimmed g rest ms' ∧ g.header = false ∧
      (g.last = .semicolon → f.last = .semicolon)

def TrimsList (ts : List Token) (xs : List Stmt) (rest : List Token) : Prop :=
  ∀ {f ms}, Trimmed f ts ms → f.header = false → closesList (kindAhead rest) → rest ≠ [] →
    ∃ xs' ms' g, Draft.Statements ms xs xs' ms' ∧ Trimmed g rest ms' ∧ g.header = false

end

section

variable {t u v z : Token} {ts mid mid' rest : List Token} {e : Expr} {x y p : Stmt}
  {xs : List Stmt}

theorem trims_empty : TrimsStatement ts (.empty (lineAhead ts)) ts := by
  intro f ms h hheader hrest
  obtain ⟨r, ms', rfl, -, hline⟩ := hrest.stays id h
  rw [hline]
  exact ⟨_, _, f, .empty, h, hheader, id⟩

theorem trims_block (ht : t.kind = .kwBegin) (hxs : TrimsList ts xs (u :: rest))
    (hu : u.kind = .kwEnd) : TrimsStatement (t :: ts) (.block t.line xs) rest := by
  intro f ms h hheader _
  obtain ⟨ms₁, rfl, h₁⟩ := h.keeps ht (by decide)
  obtain ⟨xs', ms₂, g, hd, h₂, hg⟩ := hxs h₁ (by simp [Front.next, ht, hheader])
    (Or.inl hu) (List.cons_ne_nil _ _)
  obtain ⟨ms', rfl, h'⟩ := h₂.keeps hu (by decide)
  exact ⟨_, ms', _, .block ht hd hu, h', by simp [Front.next, hu, hg], by simp [Front.next, hu]⟩

theorem trims_assign {target : Name} (ha : Assignment ts target e rest) :
    TrimsStatement ts (.assign target e) rest := by
  intro f ms h hheader _
  obtain ⟨ms', g, hd, h', hsame, hlast⟩ := h.assignment ha (by simp [hheader])
  exact ⟨_, ms', g, .assign hd, h', hsame.trans hheader,
    fun hg => absurd hg (ne_of_inner hlast (by decide))⟩

theorem trims_call (ht : t.kind = .identifier) :
    TrimsStatement (t :: rest) (.call t.asName none) rest := by
  intro f ms h hheader _
  obtain ⟨ms', rfl, h'⟩ := h.keeps ht (by decide)
  exact ⟨_, ms', _, .call ht, h', by simp [Front.next, ht, hheader], by simp [Front.next, ht]⟩

theorem trims_callEmpty (ht : t.kind = .identifier) (hu : u.kind = .leftParen)
    (hv : v.kind = .rightParen) :
    TrimsStatement (t :: u :: v :: rest) (.call t.asName (some [])) rest := by
  intro f ms h hheader _
  obtain ⟨ms₁, rfl, h₁⟩ := h.keeps ht (by decide)
  obtain ⟨ms₂, rfl, h₂⟩ := h₁.stays (by simp [spare, hu, Front.next, ht])
  obtain ⟨ms', rfl, h'⟩ := h₂.stays (by simp [spare, hv, Front.next, ht, hu, hheader])
  exact ⟨_, ms', _, .callEmpty ht hu hv, h', by simp [Front.next, ht, hu, hv, hheader],
    by simp [Front.next, hv]⟩

theorem trims_callWith {es : List Expr} (ht : t.kind = .identifier) (hu : u.kind = .leftParen)
    (hes : Arguments ts es (v :: rest)) (hv : v.kind = .rightParen) :
    TrimsStatement (t :: u :: ts) (.call t.asName (some es)) rest := by
  intro f ms h hheader _
  obtain ⟨ms₁, rfl, h₁⟩ := h.keeps ht (by decide)
  obtain ⟨ms₂, rfl, h₂⟩ := h₁.stays (by simp [spare, hu, Front.next, ht])
  obtain ⟨w, ms₃, g, rfl, hw, h₃, hsame⟩ := h₂.arguments hes (by simp [Front.next, hu])
    fun _ => by simp [hv]
  have hg : g.header = false := hsame.trans (by simp [Front.next, ht, hu, hheader])
  obtain ⟨ms', rfl, h'⟩ := h₃.stays (by simp [spare, hv, hg])
  exact ⟨_, ms', _, .callWith ht hu hw hv, h', by simp [Front.next, hv, hg],
    by simp [Front.next, hv]⟩

theorem trims_ifThen (ht : t.kind = .kwIf) (he : Phrase .expression ts e (u :: mid))
    (hu : u.kind = .kwThen) (hx : TrimsStatement mid x rest) (helse : kindAhead rest ≠ .kwElse) :
    TrimsStatement (t :: ts) (.ifThen t.line e x) rest := by
  intro f ms h hheader hrest
  obtain ⟨ms₁, rfl, h₁⟩ := h.keeps ht (by decide)
  obtain ⟨w, ms₂, g₁, rfl, hw, -, h₂, hg₁, -⟩ := h₁.expression he (by simp [Front.next, ht])
    fun _ => by simp [hu]
  obtain ⟨b, ms₃, rfl, h₃, -⟩ := h₂.parts
  have hthen : (g₁.next u).last = .semicolon → f.last = .semicolon := by simp [Front.next, hu]
  obtain ⟨x', ms', g, hd, h', hg, hlast⟩ := hx h₃ (by simp [Front.next, ht, hu, hg₁, hheader])
    (hrest.mono hthen)
  obtain ⟨r, ms'', rfl, hr, -⟩ := (hrest.mono hthen).stays hlast h'
  rw [hr] at helse
  exact ⟨_, _, g, .ifThen ht hw hu hd helse, h', hg, hthen ∘ hlast⟩

theorem trims_ifElse (ht : t.kind = .kwIf) (he : Phrase .expression ts e (u :: mid))
    (hu : u.kind = .kwThen) (hx : TrimsStatement mid x (v :: mid')) (hv : v.kind = .kwElse)
    (hy : TrimsStatement mid' y rest) : TrimsStatement (t :: ts) (.ifElse t.line e x y) rest := by
  intro f ms h hheader hrest
  obtain ⟨ms₁, rfl, h₁⟩ := h.keeps ht (by decide)
  obtain ⟨w, ms₂, g₁, rfl, hw, -, h₂, hg₁, -⟩ := h₁.expression he (by simp [Front.next, ht])
    fun _ => by simp [hu]
  obtain ⟨b, ms₃, rfl, h₃, -⟩ := h₂.parts
  obtain ⟨x', ms₄, g₂, hd, h₄, hg₂, -⟩ := hx h₃ (by simp [Front.next, ht, hu, hg₁, hheader])
    (standsBehind_of_kind hv rfl (by decide))
  obtain ⟨ms₅, rfl, h₅⟩ := h₄.keeps hv (by decide)
  have helse : (g₂.next v).last = .semicolon → f.last = .semicolon := by simp [Front.next, hv]
  obtain ⟨y', ms', g, hd', h', hg, hlast⟩ := hy h₅ (by simp [Front.next, hv, hg₂])
    (hrest.mono helse)
  exact ⟨_, ms', g, .ifElse ht hw hu hd hv hd', h', hg, helse ∘ hlast⟩

theorem trims_whileDo (ht : t.kind = .kwWhile) (he : Phrase .expression ts e (u :: mid))
    (hu : u.kind = .kwDo) (hx : TrimsStatement mid x rest) :
    TrimsStatement (t :: ts) (.whileDo t.line e x) rest := by
  intro f ms h hheader hrest
  obtain ⟨ms₁, rfl, h₁⟩ := h.keeps ht (by decide)
  obtain ⟨w, ms₂, g₁, rfl, hw, -, h₂, -, -⟩ := h₁.expression he (by simp [Front.next, ht])
    (by simp [Front.next, ht, hheader])
  obtain ⟨b, ms₃, rfl, h₃, -⟩ := h₂.parts
  have hdo : (g₁.next u).last = .semicolon → f.last = .semicolon := by simp [Front.next, hu]
  obtain ⟨x', ms', g, hd, h', hg, hlast⟩ := hx h₃ (by simp [Front.next, hu]) (hrest.mono hdo)
  exact ⟨_, ms', g, .whileDo ht hw hu hd, h', hg, hdo ∘ hlast⟩

theorem trims_repeatUntil (ht : t.kind = .kwRepeat) (hxs : TrimsList ts xs (u :: mid))
    (hu : u.kind = .kwUntil) (he : Phrase .expression mid e rest) :
    TrimsStatement (t :: ts) (.repeatUntil t.line xs (lineAhead mid) e) rest := by
  intro f ms h hheader _
  obtain ⟨ms₁, rfl, h₁⟩ := h.keeps ht (by decide)
  obtain ⟨xs', ms₂, g₁, hd, h₂, hg₁⟩ := hxs h₁ (by simp [Front.next, ht, hheader])
    (Or.inr (Or.inl hu)) (List.cons_ne_nil _ _)
  obtain ⟨ms₃, rfl, h₃⟩ := h₂.keeps hu (by decide)
  obtain ⟨w, ms', g, rfl, hw, rfl, h', hg, hlast⟩ := h₃.expression he (by simp [Front.next, hu])
    (by simp [Front.next, hu, hg₁])
  rw [(spells_starts hw rest).2.2]
  exact ⟨_, ms', g, .repeatUntil ht hd hu hw, h', hg.trans (by simp [Front.next, hu, hg₁]),
    fun hk => absurd hk (ne_of_inner hlast (by decide))⟩

theorem trims_loop {afterFirst atCondition afterCondition atNext : List Token}
    {counter target : Name} {first condition next : Expr} (ht : t.kind = .kwLoop)
    (hu : u.kind = .leftParen) (hfirst : Assignment ts counter first afterFirst)
    (hskip : OptionalSemicolon afterFirst atCondition)
    (hsign : atCondition = afterFirst →
      kindAhead atCondition ≠ .plus ∧ kindAhead atCondition ≠ .minus)
    (hcondition : Phrase .expression atCondition condition afterCondition)
    (hskip' : OptionalSemicolon afterCondition atNext)
    (hnext : Assignment atNext target next (v :: z :: mid)) (hv : v.kind = .rightParen)
    (hz : z.kind = .kwDo) (hx : TrimsStatement mid x rest) :
    TrimsStatement (t :: u :: ts) (.loop counter first condition target next x) rest := by
  intro f ms h hheader hrest
  have hcondition' : kindAhead atCondition ≠ .kwDo := fun hk => by
    have hstart := (phrase_starts hcondition).1
    rw [hk] at hstart
    exact absurd hstart (by decide)
  have hnext' : kindAhead atNext ≠ .kwDo := by simp [(assignment_starts hnext).1]
  obtain ⟨ms₁, rfl, h₁⟩ := h.keeps ht (by decide)
  obtain ⟨b, ms₂, rfl, h₂, -⟩ := h₁.parts
  obtain ⟨ms₃, g₁, hd₁, h₃, -, hlast₁⟩ := h₂.assignment hfirst
    fun _ => ahead_ne_do hskip hcondition'
  obtain ⟨ms₄, g₂, hd₂, h₄, -⟩ := h₃.condition hskip hsign hcondition
    (ne_of_inner hlast₁ (by decide)) (ahead_ne_do hskip' hnext')
  obtain ⟨ms₅, g₃, hd₃, h₅, -⟩ := h₄.optionalSemicolon hskip'
  obtain ⟨ms₆, g₄, hd₄, h₆, -, -⟩ := h₅.assignment hnext fun _ => by simp [hv]
  obtain ⟨c, ms₇, rfl, h₇, hc⟩ := h₆.parts
  obtain ⟨d, ms₈, rfl, h₈, -⟩ := h₇.parts
  -- Behind a parenthesis that is left out, the DO is kept.
  have hone : c = true ∨ d = true := by
    cases c with
    | true => exact Or.inl rfl
    | false =>
      obtain ⟨-, q, ms'', hq, -⟩ := hc rfl
      cases hq
      exact Or.inr rfl
  have hdo : ((g₄.next v).next z).last = .semicolon → f.last = .semicolon := by
    simp [Front.next, hz]
  obtain ⟨x', ms', g, hd, h', hg, hlast⟩ := hx h₈ (by simp [Front.next, hz]) (hrest.mono hdo)
  exact ⟨_, ms', g, .loop ht hu hd₁ hd₂ hd₃ hd₄ hv hz hone hd, h', hg, hdo ∘ hlast⟩

theorem trims_when {afterNegative atZero afterZero beforePositive : List Token}
    (ht : t.kind = .kwWhen) (he : Phrase .expression ts e (u :: mid)) (hu : u.kind = .kwLessThan0)
    (hx : TrimsStatement mid x afterNegative)
    (hskip : OptionalSemicolon afterNegative (v :: atZero)) (hv : v.kind = .kwEqual0)
    (hy : TrimsStatement atZero y afterZero)
    (hskip' : OptionalSemicolon afterZero (z :: beforePositive)) (hz : z.kind = .kwGreaterThan0)
    (hp : TrimsStatement beforePositive p rest) :
    TrimsStatement (t :: ts) (.when t.line (lineAhead ts) e x v.line y p) rest := by
  intro f ms h hheader hrest
  obtain ⟨ms₁, rfl, h₁⟩ := h.keeps ht (by decide)
  obtain ⟨w, ms₂, g₁, rfl, hw, rfl, h₂, hg₁, -⟩ := h₁.expression he (by simp [Front.next, ht])
    fun _ => by simp [hu]
  obtain ⟨b, ms₃, rfl, h₃, -⟩ := h₂.parts
  have hnegative : (g₁.next u).last ≠ .semicolon := by simp [Front.next, hu]
  obtain ⟨x', ms₄, g₂, hd₁, h₄, hg₂, hlast₂⟩ := hx h₃
    (by simp [Front.next, ht, hu, hg₁, hheader]) (standsBehind_marker hskip hv rfl hnegative)
  obtain ⟨c, ms₅, g₃, hd₂, h₅, hg₃, hlast₃⟩ := h₄.marker hskip hv (Or.inl rfl) (hnegative ∘ hlast₂)
  have hzero : g₃.last ≠ .semicolon := by simp [hlast₃]
  obtain ⟨y', ms₆, g₄, hd₃, h₆, hg₄, hlast₄⟩ := hy h₅ (hg₃.trans hg₂)
    (standsBehind_marker hskip' hz rfl hzero)
  obtain ⟨d, ms₇, g₅, hd₄, h₇, hg₅, hlast₅⟩ := h₆.marker hskip' hz (Or.inr rfl) (hzero ∘ hlast₄)
  have hpositive : g₅.last = .semicolon → f.last = .semicolon := by simp [hlast₅]
  obtain ⟨p', ms', g, hd₅, h', hg, hlast⟩ := hp h₇ (hg₅.trans hg₄) (hrest.mono hpositive)
  rw [(spells_starts hw _).2.2]
  exact ⟨_, ms', g, .when ht hw hu hd₁ hd₂ hd₃ hd₄ hd₅, h', hg, hpositive ∘ hlast⟩

theorem trims_last (hx : TrimsStatement ts x rest) : TrimsList ts [x] rest := by
  intro f ms h hheader hcloses hne
  obtain ⟨r, behind, rfl⟩ := List.exists_cons_of_ne_nil hne
  have hrest : StandsBehind f (r :: behind) :=
    standsBehind_of_kind rfl (closesList_spec hcloses).1
      (by rcases hcloses with hk | hk | hk <;> simp [show r.kind = _ from hk])
  obtain ⟨x', ms', g, hd, h', hg, -⟩ := hx h hheader hrest
  exact ⟨_, ms', g, .last hd, h', hg⟩

theorem trims_more (hx : TrimsStatement ts x (t :: mid)) (ht : t.kind = .semicolon)
    (hxs : TrimsList mid xs rest) : TrimsList ts (x :: xs) rest := by
  intro f ms h hheader hcloses hne
  obtain ⟨x', ms₁, g₁, hd, h₁, hg₁, -⟩ := hx h hheader (standsBehind_of_kind ht rfl (by decide))
  obtain ⟨ms₂, rfl, h₂⟩ := h₁.keeps ht (by decide)
  obtain ⟨xs', ms', g, hds, h', hg⟩ := hxs h₂ (by simp [Front.next, ht, hg₁]) hcloses hne
  exact ⟨_, ms', g, .more hd ht hds, h', hg⟩

end

mutual
theorem statement_trims {ts rest : List Token} {x : Stmt} :
    Statement ts x rest → TrimsStatement ts x rest
  | .empty => trims_empty
  | .block ht hxs hu => trims_block ht (statements_trim hxs) hu
  | .assign h => trims_assign h
  | .call ht => trims_call ht
  | .callEmpty ht hu hv => trims_callEmpty ht hu hv
  | .callWith ht hu hes hv => trims_callWith ht hu hes hv
  | .ifThen ht he hu hx helse => trims_ifThen ht he hu (statement_trims hx) helse
  | .ifElse ht he hu hx hv hy =>
    trims_ifElse ht he hu (statement_trims hx) hv (statement_trims hy)
  | .whileDo ht he hu hx => trims_whileDo ht he hu (statement_trims hx)
  | .repeatUntil ht hxs hu he => trims_repeatUntil ht (statements_trim hxs) hu he
  | .loop ht hu hfirst hskip hsign hcond hskip' hnext hv hz hx =>
    trims_loop ht hu hfirst hskip hsign hcond hskip' hnext hv hz (statement_trims hx)
  | .when ht he hu hx hskip hv hy hskip' hz hp =>
    trims_when ht he hu (statement_trims hx) hskip hv (statement_trims hy) hskip' hz
      (statement_trims hp)

theorem statements_trim {ts rest : List Token} {xs : List Stmt} :
    Statements ts xs rest → TrimsList ts xs rest
  | .last hx => trims_last (statement_trims hx)
  | .more hx ht hxs => trims_more (statement_trims hx) ht (statements_trim hxs)
end

/-! ## Programs -/

section

variable {before behind ts : List Token} {t : Token} {ms : Draft} {p : Source}

theorem kept_end {f : Front} {stop : Token} (h : Trimmed f [stop] ms) (hstop : stop.isEnd = true) :
    ms = Draft.whole [stop] := by
  obtain ⟨ms', rfl, h'⟩ := h.keeps (beq_iff_eq.mp hstop) (by decide)
  cases h'
  rfl

theorem openers_kept {k : TokenKind} (h : k ∈ statementOpeners) : k ∉ dispensableKinds := by
  revert h
  cases k <;> decide

/-- No list of statements starts with a spare token. -/
theorem statements_start {rest : List Token} {xs : List Stmt} (h : Statements ts xs rest)
    (hcloses : closesList (kindAhead rest)) : kindAhead ts ∉ dispensableKinds := by
  cases h with
  | last hx =>
    rcases statement_opens hx with ⟨-, rfl⟩ | ⟨-, hopens⟩
    · rcases hcloses with hk | hk | hk <;> rw [hk] <;> decide
    · exact openers_kept hopens
  | more hx ht =>
    rcases statement_opens hx with ⟨-, rfl⟩ | ⟨-, hopens⟩
    · rw [kindAhead_cons, ht]
      decide
    · exact openers_kept hopens

/-- A program stays one where spare tokens are left out. -/
theorem program_trims (h : IsProgram ts p) (hms : Trimmed .start ts ms) :
    ∃ p', Draft.IsProgram ms p p' := by
  cases h with
  | @block t u v stop ts xs ht hxs hu hv hstop =>
    obtain ⟨ms₁, rfl, h₁⟩ := hms.keeps ht (by decide)
    obtain ⟨xs', ms₂, g, hd, h₂, -⟩ := statements_trim hxs h₁
      (by simp [Front.next, Front.start, ht]) (Or.inl hu) (List.cons_ne_nil _ _)
    obtain ⟨ms₃, rfl, h₃⟩ := h₂.keeps hu (by decide)
    obtain ⟨ms₄, rfl, h₄⟩ := h₃.keeps hv (by decide)
    obtain rfl := kept_end h₄ hstop
    exact ⟨_, .block ht hd hu hv hstop⟩
  | @bare stop ts xs hstart hxs hstop =>
    have hcloses : closesList (kindAhead [stop]) := Or.inr (Or.inr (beq_iff_eq.mp hstop))
    obtain ⟨xs', ms', g, hd, h', -⟩ := statements_trim hxs hms rfl hcloses (List.cons_ne_nil _ _)
    obtain rfl := kept_end h' hstop
    obtain ⟨w, hts, -⟩ := Form.statements_move hxs
    obtain ⟨t, ts, rfl⟩ := List.exists_cons_of_ne_nil (l := ts) (by simp [hts])
    obtain ⟨ms, rfl, -⟩ := hms.keeps rfl (statements_start hxs hcloses)
    exact ⟨_, .bare hstart hd hstop⟩

theorem trimmed_without {f : Front} (hne : behind ≠ [])
    (h : spare (f.behind before) t behind = true) :
    Trimmed f (before ++ t :: behind) (Draft.without before t behind) := by
  induction before generalizing f with
  | nil =>
    obtain ⟨u, behind, rfl⟩ := List.exists_cons_of_ne_nil hne
    exact .leave h (.whole _ _)
  | cons q before ih => exact .keep (ih h)

theorem program_ends (h : IsProgram ts p) : ∃ w stop, ts = w ++ [stop] ∧ stop.isEnd = true := by
  cases h with
  | @block t u v stop ts xs _ hxs _ _ hstop =>
    obtain ⟨w, rfl, -⟩ := Form.statements_move hxs
    exact ⟨t :: (w ++ [u, v]), stop, by simp, hstop⟩
  | @bare stop ts xs _ hxs hstop =>
    obtain ⟨w, hts, -⟩ := Form.statements_move hxs
    exact ⟨w, stop, hts, hstop⟩

/-- A spare token of a program may be left out of it. -/
theorem dispensable_of_spare (h : IsProgram (before ++ t :: behind) p)
    (hspare : spare (Front.start.behind before) t behind = true) : Dispensable before t behind := by
  have hne : behind ≠ [] := by
    rintro rfl
    obtain ⟨w, stop, hw, hstop⟩ := program_ends h
    obtain ⟨-, hlast⟩ := List.append_inj' hw rfl
    cases hlast
    rw [not_spare (beq_iff_eq.mp hstop) (by decide)] at hspare
    cases hspare
  obtain ⟨p', hd⟩ := program_trims h (trimmed_without hne hspare)
  exact ⟨spare_dispensable hspare, p, p', hd⟩

/-- A token that may be left out of what the parser accepts. -/
theorem dispensable_of_accepted (settings : Settings) {symbols : SymbolTable} {tree : Node}
    {s : ParserState} (hbehind : ∃ u ∈ behind, Cursor.isGrammatical u = true)
    (hends : EndsOnce (rowOf (before ++ t :: behind)))
    (hr : program settings (.start (before ++ t :: behind) symbols) = .ok tree s)
    (hclean : s.diagnostics = #[])
    (hspare : spare (Front.start.behind (before.filter Cursor.isGrammatical)) t (rowOf behind) =
      true) :
    Dispensable (before.filter Cursor.isGrammatical) t (rowOf behind) := by
  obtain ⟨p, hp⟩ := program_passes settings (s := .start (before ++ t :: behind) symbols) hends
    ⟨hr, hclean⟩
  have hrow := rowOf_cons before (isGrammatical_of_dispensable (spare_dispensable hspare)) hbehind
  rw [show ParserState.upcoming _ = rowOf (before ++ t :: behind) from rfl, hrow] at hp
  exact dispensable_of_spare hp hspare

end

end PascalFront
