-- Stray tokens between statements. Whatever stands behind a semicolon of a list
-- and can neither start a statement nor close the list, the list drops it: each
-- such token gives one diagnostic and one empty statement. All that is read
-- before and behind is the same, and so is the tree around the list.
import PascalFront.Proofs.Detours
import PascalFront.Proofs.Repair

namespace PascalFront.Parser

open ParserState ResumePoints

/-! ## Turns in front of stray tokens -/

section

variable {settings : Settings} {closer : TokenKind} {s : ParserState}

theorem statement_of_not_opener (hk : s.kind ∉ statementOpeners) :
    statement settings s = .ok (.statement .noOp s.line []) s := by
  rw [statement_eq settings]
  exact statementLevel_of_not_opener settings hk

/-- A turn in front of a stray token. -/
theorem listTurn_stray {t : Token} {rest : List Token} (ht : IsStray closer t)
    (hrow : s.upcoming = t :: rest) (hcount : s.errorCount ≤ settings.maxErrors)
    (nodes : List Node) :
    ∃ s', listTurn settings (statement settings) closer nodes s =
        .ok (some (nodes ++ [emptyAt t])) s' ∧ s'.upcoming = rest ∧ s'.symbols = s.symbols ∧
      s'.diagnostics = s.diagnostics ++ unexpected [t] := by
  have hhere : s.here = t := by
    have h : s.upcoming.head? = some s.here := Cursor.head?_upcoming s.cursor
    rw [hrow] at h
    exact (Option.some.inj h).symm
  have hk : s.kind = t.kind := congrArg Token.kind hhere
  have hend := atEnd_of_kind hk ht.ends
  refine ⟨(s.flag .unexpectedToken).advance, ?_, ?_, rfl, ?_⟩
  · have hstart : ¬statementStart.contains s.kind = true := by rw [hk, ht.starts]; decide
    rw [statementStart_contains, not_or] at hstart
    obtain ⟨hopener, hsemicolon⟩ := hstart
    have hother : s.kind ≠ closer ∧ s.kind ≠ .endOfFile := hk ▸ ⟨ht.closes, ht.ends⟩
    have hbehind : behindItem settings closer s = .ok () (s.flag .unexpectedToken).advance := by
      unfold behindItem
      rw [bind_of_ok (checkLimit_of_le hcount), accept_bind_of_ne hsemicolon]
      simp only [Bool.not_false, if_true, kind_bind]
      rw [hk, ht.starts, if_neg Bool.false_ne_true, if_pos (hk ▸ hother)]
      rfl
    rw [listTurn_open nodes hother, bind_of_ok (statement_of_not_opener hopener),
      bind_of_ok hbehind]
    unfold emptyAt
    rw [← hhere]
    rfl
  · have h := upcoming_advance hend
    rw [hrow] at h
    exact (List.cons.inj h).2.symm
  · rw [← hhere]
    simp [ParserState.flag, ParserState.advance, note, unexpected]

/-- Turns in front of stray tokens, one for each of them. -/
theorem turns_stray {strays rest : List Token} (hstray : ∀ t ∈ strays, IsStray closer t)
    (hrow : s.upcoming = strays ++ rest)
    (hcount : s.errorCount + strays.length ≤ settings.maxErrors) (nodes : List Node) :
    ∃ s', Turns settings closer nodes s (nodes ++ strays.map emptyAt) s' ∧ s'.upcoming = rest ∧
      s'.symbols = s.symbols ∧ s'.diagnostics = s.diagnostics ++ unexpected strays := by
  induction strays generalizing nodes s with
  | nil => exact ⟨s, by simpa using Turns.refl, hrow, rfl, by simp [unexpected]⟩
  | cons t strays ih =>
    rw [List.length_cons] at hcount
    obtain ⟨s₁, hturn, hrow₁, hsymbols₁, hnoted₁⟩ := listTurn_stray
      (hstray t List.mem_cons_self) hrow (by omega : s.errorCount ≤ settings.maxErrors) nodes
    have hcount₁ : s₁.errorCount = s.errorCount + 1 := by
      simp [errorCount, hnoted₁, unexpected]
    obtain ⟨s', hturns, hrow', hsymbols', hnoted'⟩ := ih
      (fun u hu => hstray u (List.mem_cons_of_mem t hu)) hrow₁ (by omega) (nodes ++ [emptyAt t])
    refine ⟨s', ?_, hrow', hsymbols'.trans hsymbols₁, ?_⟩
    · have h := Turns.trans (.turn .refl hturn) hturns
      rwa [List.append_assoc] at h
    · rw [hnoted', hnoted₁]
      simp [unexpected]

end

/-! ## Turns up to the place and past it -/

section

variable {settings : Settings} {closer : TokenKind} {i : Insertion settings closer}
  {tail : List Token} {closer' : TokenKind} {nodes nodes' items : List Node}
  {s s' u v : ParserState} {path : List Nat}

/-- The turns in front of the place are the same on both sides. -/
theorem Turns.follows {d : Detour settings} (h : Turns settings closer nodes s nodes' s')
    (hsu : Beside d s u) (hclean : s'.Clean) (hleft : d.tail.length ≤ s'.left) :
    ∃ u', Turns settings closer nodes u nodes' u' ∧ Beside d s' u' := by
  induction h with
  | refl => exact ⟨u, .refl, hsu⟩
  | turn _ hturn ih =>
    have hlater := Stepwise.ok hturn
    obtain ⟨u₁, hturns, h₁⟩ := ih (hlater.before.clean hclean)
      (Nat.le_trans hleft hlater.before.left_le)
    obtain ⟨u', hturn', h'⟩ := Follows.run h₁ hturn hclean hleft
    exact ⟨u', .turn hturns hturn', h'⟩

/-- The turn that comes to the place ends with the semicolon in front of it. -/
theorem listTurn_gap (hturn : listTurn settings (statement settings) closer nodes s =
      .ok (some nodes') v) (hclean : v.Clean) (hopen : v.kind ∈ statementOpeners) :
    ∃ node s', statement settings s = .ok node s' ∧ nodes' = nodes ++ [node] ∧
      s'.kind = .semicolon ∧ v = s'.advance := by
  obtain ⟨-, -, node, s', hnode, hnodes, -, hcase⟩ := listTurn_eq_some settings hturn
  refine ⟨node, s', hnode, hnodes, ?_⟩
  rcases hcase with h | ⟨-, rfl⟩ | ⟨hno, -, rfl⟩ | ⟨-, -, -, rfl⟩
  · exact h
  · exact absurd hclean (not_clean_flag s' _)
  · exact absurd hopen hno
  · exact absurd hclean (not_clean_flag s' _)

/-- The semicolon is the last token that both rows have in common. -/
theorem upcoming_across (hsu : Beside (i.inFront s.advance.upcoming) s u)
    (hk : s.kind = .semicolon) : u.advance.upcoming = i.strays ++ s.advance.upcoming := by
  obtain ⟨mid, last, -, hs, hu⟩ := hsu.rows
  have hend := atEnd_of_kind hk (by decide)
  have hlength := congrArg List.length (hs.symm.trans (upcoming_advance hend))
  rw [List.length_append, List.length_cons, List.length_cons] at hlength
  have hmid : mid = [] := List.length_eq_zero_iff.mp (by
    have : (i.inFront s.advance.upcoming).tail.length = s.advance.upcoming.length := rfl
    omega)
  rw [hmid, upcoming_advance (hsu.atEnd.trans hend)] at hu
  exact (List.cons.inj hu).2

/-- Behind the place, both runs are in front of the same tokens. -/
theorem beside_behind (hrow : u.upcoming = v.upcoming) (hsymbols : u.symbols = v.symbols)
    (hclean : v.Clean) (hnoted : u.diagnostics = unexpected i.strays) :
    Beside i.behind v u := by
  have hstop : v.cursor.stop.kind ≠ .identifier := by
    intro h
    have hend := v.cursor.stop_isEnd
    rw [Token.isEnd, h] at hend
    cases hend
  exact ⟨⟨v.cursor.ahead, v.cursor.stop, hstop, rfl, hrow⟩, hsymbols, hclean, hnoted⟩

/-- The turn that comes to the place, and the turns of the stray tokens behind it. -/
theorem turns_across (hturn : listTurn settings (statement settings) closer nodes s =
      .ok (some nodes') v) (hclean : v.Clean) (hopen : v.kind ∈ statementOpeners)
    (hsu : Beside (i.inFront v.upcoming) s u) :
    ∃ u', Turns settings closer nodes u (nodes' ++ i.strays.map emptyAt) u' ∧
      Beside i.behind v u' := by
  obtain ⟨hcloser, hend, -⟩ := listTurn_eq_some settings hturn
  obtain ⟨node, s₁, hnode, rfl, hk, rfl⟩ := listTurn_gap hturn hclean hopen
  have hleft : s₁.advance.upcoming.length ≤ s₁.left := by
    apply length_upcoming_le
    have := left_advance (atEnd_of_kind hk (by decide))
    omega
  obtain ⟨u₁, hnode', h₁⟩ := Follows.run hsu hnode hclean hleft
  have hnone : u₁.advance.diagnostics = #[] := h₁.noted
  have hcount : u₁.advance.errorCount = 0 := by rw [errorCount, hnone, Array.size_empty]
  have hturn' : listTurn settings (statement settings) closer nodes u =
      .ok (some (nodes ++ [node])) u₁.advance := by
    rw [listTurn_open nodes (hsu.kind ▸ ⟨hcloser, hend⟩), bind_of_ok hnode',
      bind_of_ok (behindItem_semicolon (h₁.kind.trans hk) (hcount ▸ Nat.zero_le _))]
    rfl
  obtain ⟨u', hturns, hrow, hsymbols, hnoted⟩ := turns_stray i.isStray
    (upcoming_across h₁ hk) (by rw [hcount, Nat.zero_add]; exact i.limit) (nodes ++ [node])
  rw [hnone, Array.empty_append] at hnoted
  exact ⟨u', Turns.trans (.turn .refl hturn') hturns,
    beside_behind hrow (hsymbols.trans h₁.symbols) hclean hnoted⟩

/-! ## Lists with the place in them -/

/-- The list that the stray tokens are in. -/
theorem detoursList_own {items : List Node} (hturns : Turns settings closer [] s items s')
    (hturn : listTurn settings (statement settings) closer items s' = .ok (some nodes) v)
    (hopen : v.kind ∈ statementOpeners) (hcloser : v.kind ≠ closer)
    (hsu : Beside (i.inFront v.upcoming) s u) :
    DetoursList i nodes v [] (loop (listTurn settings (statement settings) closer) []) s u := by
  intro all s'' hr hclean
  have hprogress :=
    listTurn_progressive settings (statement_isStatementParser settings) closer
  rw [(Turns.turn hturns hturn).loop_eq, listLoop_append] at hr
  obtain ⟨more, _, hmore, hall⟩ := bind_eq_ok.mp hr
  cases hall
  have hv := (Stepwise.ok hmore).before.clean hclean
  have hleft : v.upcoming.length ≤ s'.left := length_upcoming_le (hprogress _ _ _ _ hturn)
  obtain ⟨u₁, hturns₁, h₁⟩ := hturns.follows hsu ((Stepwise.ok hturn).before.clean hv) hleft
  obtain ⟨u₂, hturns₂, h₂⟩ := turns_across hturn hv hopen h₁
  obtain ⟨u', hmore', h'⟩ := (follows_loop hprogress []).run h₂ hmore hclean (Nat.zero_le _)
  -- The statement behind the stray tokens is the first one of what is left.
  have hend : v.kind ≠ .endOfFile := fun h => absurd (h ▸ hopen) (by decide)
  rw [listLoop_open (statement_isStatementParser settings) [] ⟨hcloser, hend⟩] at hmore
  obtain ⟨m, v', hm, hmore⟩ := bind_eq_ok.mp hmore
  obtain ⟨_, _, -, hmore⟩ := bind_eq_ok.mp hmore
  obtain ⟨rest, _, -, hmore⟩ := bind_eq_ok.mp hmore
  cases hmore
  refine ⟨nodes ++ i.strays.map emptyAt ++ m :: rest, u', ?_, h', m, v', hm, ?_⟩
  · rw [(hturns₁.trans hturns₂).loop_eq, listLoop_append, bind_of_ok hmore']
    rfl
  · rw [List.append_assoc]
    exact .here rest

/-- A list with a statement that the stray tokens are in. -/
theorem detoursList_item (hturns : Turns settings closer' [] s items s')
    (hopen : s'.kind ≠ closer' ∧ s'.kind ≠ .endOfFile) (hsu : Beside (i.inFront tail) s u)
    (hleft : tail.length ≤ s'.left)
    (h : ∀ u', Beside (i.inFront tail) s' u' →
      Detours i nodes v path (statement settings) s' u') :
    DetoursList i nodes v (items.length :: path)
      (loop (listTurn settings (statement settings) closer') []) s u := by
  intro all s'' hr hclean
  have hi := statement_isStatementParser settings
  have : Follows i.behind (loop (listTurn settings (statement settings) closer') []) :=
    follows_loop (listTurn_progressive settings hi closer') []
  rw [hturns.loop_eq, listLoop_open hi items hopen] at hr
  obtain ⟨x, s₁, hx, hr⟩ := bind_eq_ok.mp hr
  obtain ⟨_, s₂, hbehind, hr⟩ := bind_eq_ok.mp hr
  obtain ⟨more, _, hmore, hall⟩ := bind_eq_ok.mp hr
  cases hall
  have hs₂ := (Stepwise.ok hmore).before.clean hclean
  have := (inferInstance : Follows i.behind (behindItem settings closer')).stepwise
  have hs₁ := (Stepwise.ok hbehind).before.clean hs₂
  obtain ⟨u', hturns', h'⟩ := hturns.follows hsu ((Stepwise.ok hx).before.clean hs₁) hleft
  obtain ⟨children, u₁, hx', h₁, m, v', hm, hgains⟩ := h u' h' x s₁ hx hs₁
  obtain ⟨u₂, hbehind', h₂⟩ := Follows.run h₁ hbehind hs₂ (Nat.zero_le _)
  obtain ⟨u'', hmore', h''⟩ := Follows.run h₂ hmore hclean (Nat.zero_le _)
  refine ⟨items ++ { x with children } :: more, u'', ?_, h'', m, v', hm, .inside items more hgains⟩
  rw [hturns'.loop_eq, listLoop_open hi items (h'.kind ▸ hopen), bind_of_ok hx',
    bind_of_ok hbehind', bind_of_ok hmore']
  rfl

/-- A statement that is a list between two tokens. -/
theorem detours_of_list (hk : closer? s.kind = some closer') (hsu : Beside (i.inFront tail) s u)
    (h : DetoursList i nodes v path
      (loop (listTurn settings (statement settings) closer') []) s.advance u.advance) :
    Detours i nodes v path (statement settings) s u := by
  cases hkind : s.kind <;> rw [hkind] at hk <;> cases hk
  case kwBegin =>
    have hlist := h.bind (q := do
      expect .kwEnd .missingEnd
      return []) .compound s.line
    simp only [bind_assoc, pure_bind, List.append_nil] at hlist
    refine .of_eq (statement_begin hkind) ?_ hlist
    rw [← hsu.line]
    exact statement_begin (hsu.kind.trans hkind)
  case kwRepeat =>
    have hlist := h.bind (q := do
      expect .kwUntil .missingUntil
      let testLine ← line
      let condition ← expression
      return [.statement .test testLine [.operator .not [condition]]]) .loop s.line
    simp only [bind_assoc, pure_bind] at hlist
    refine .of_eq (statement_repeat hkind) ?_ hlist
    rw [← hsu.line]
    exact statement_repeat (hsu.kind.trans hkind)

/-! ## Programs with the place in them -/

/-- A semicolon was passed last, and a statement comes next. -/
structure AtGap (v : ParserState) : Prop where
  semicolon : ∃ t passed, t.kind = .semicolon ∧ v.cursor.passed = t :: passed
  opens : v.kind ∈ statementOpeners

/-- No list begins right behind a semicolon. -/
theorem AtGap.last_turn (hv : AtGap v) (hk : closer? s.kind = some closer)
    (h : Turns settings closer [] s.advance nodes v) :
    ∃ items s', Turns settings closer [] s.advance items s' ∧
      listTurn settings (statement settings) closer items s' = .ok (some nodes) v := by
  cases h with
  | turn hturns hturn => exact ⟨_, _, hturns, hturn⟩
  | refl =>
    obtain ⟨t, passed, ht, hpassed⟩ := hv.semicolon
    obtain ⟨x, rest, hahead, -, hadvance⟩ := Cursor.exists_ahead (atEnd_of_closer hk)
    have hhere : s.here = x := by simp [ParserState.here, Cursor.here, hahead]
    have hx : s.advance.cursor.passed = x :: s.cursor.passed := by
      simp [ParserState.advance, hadvance]
    have hxt : x = t := (List.cons.inj (hx.symm.trans hpassed)).1
    rw [ParserState.kind, hhere, hxt, ht] at hk
    cases hk

/-- A statement with the place in it. -/
theorem ListWithin.detours (h : ListWithin settings closer nodes v path s) (hv : AtGap v)
    (hsu : Beside (i.inFront v.upcoming) s u) :
    Detours i nodes v path (statement settings) s u := by
  induction h generalizing u with
  | own hk hturns =>
    obtain ⟨items, s₁, hturns, hturn⟩ := hv.last_turn hk hturns
    have hlt : v.left < s₁.left := listTurn_progressive settings
      (statement_isStatementParser settings) closer _ _ _ _ hturn
    have hle := hturns.steps.before.left_le
    apply detours_of_list hk hsu
    apply detoursList_own hturns hturn hv.opens (opener_ne_closer hk hv.opens).1
    exact hsu.advance (length_upcoming_le (Nat.lt_of_lt_of_le hlt hle))
  | item hk hturns hwithin ih =>
    have hlt := hwithin.left_lt
    have hle := hturns.steps.before.left_le
    have hopens := opener_ne_closer hk hwithin.opens
    apply detours_of_list hk hsu
    apply detoursList_item hturns hopens _ (length_upcoming_le hlt) fun u' => ih
    exact hsu.advance (length_upcoming_le (Nat.lt_of_lt_of_le hlt hle))
  | @part s s₁ header place path hmem hheader hwithin ih =>
    intro n s' hr hclean
    have hsteps := (ReachesPart.header (mem_headers_of_mem_parts hmem) hheader).steps
    rw [hr] at hsteps
    have hs₁ := ((Stepwise.behind (statement settings) s₁).trans hsteps).before.clean hclean
    obtain ⟨p, hp, hread⟩ := threads_of_mem_parts (i := i) hmem
    have hleft := length_upcoming_le hwithin.left_lt
    have h := hp.run hsu hheader hs₁ hleft fun u' => ih
    exact h.of_eq (hread s rfl) (hread u hsu.kind) n s' hr hclean

/-- A program with the place in it. -/
theorem ReachesList.detours (h : ReachesList settings closer nodes v path s) (hv : AtGap v)
    (hstart : s.cursor.passed = []) (hsu : Beside (i.inFront v.upcoming) s u) :
    Detours i nodes v path (program settings) s u := by
  have hbare (hk : s.kind ≠ .kwBegin) (hlist : DetoursList i nodes v path
      (loop (listTurn settings (statement settings) .endOfFile) []) s u) :
      Detours i nodes v path (program settings) s u := by
    have h := hlist.bind (q := do
      expect .endOfFile .unexpectedEnd
      return []) .compound s.line
    simp only [bind_assoc, pure_bind, List.append_nil] at h
    refine h.of_eq (program_bare hk) ?_
    rw [← hsu.line]
    exact program_bare (hsu.kind ▸ hk)
  cases h with
  | block hk hwithin =>
    have : Carries i.behind [] fun root => pure root := carries_pure Node.seats_self
    have : Carries i.behind [] behindRoot := by
      unfold behindRoot
      dsimp only
      infer_instance
    have hprogram : Detours i nodes v ([] ++ path) (statement settings >>= behindRoot) s u :=
      (hwithin.detours hv hsu).bind
    exact hprogram.of_eq (program_block hk) (program_block (hsu.kind.trans hk))
  | bare hk hcloser hturns =>
    cases hcloser
    apply hbare hk
    cases hturns with
    | refl =>
      obtain ⟨t, passed, -, hpassed⟩ := hv.semicolon
      rw [hstart] at hpassed
      cases hpassed
    | turn hturns hturn =>
      exact detoursList_own hturns hturn hv.opens (fun h => absurd (h ▸ hv.opens) (by decide)) hsu
  | @item _ s₁ items path hk hturns hwithin =>
    have hopens := hwithin.opens
    have hend : s₁.kind ≠ .endOfFile := fun h => absurd (h ▸ hopens) (by decide)
    apply hbare hk
    apply detoursList_item hturns ⟨hend, hend⟩ hsu (length_upcoming_le hwithin.left_lt)
    exact fun u' => hwithin.detours hv

end

/-! ## The law -/

/-- Where a run has passed the first of its tokens and is not at the end, the others are ahead. -/
theorem upcoming_of_passed {before behind : List Token} {symbols : SymbolTable} {t : Token}
    {v : ParserState} (hsteps : (start (before ++ t :: behind) symbols).Steps v)
    (hpassed : v.cursor.passed.reverse = before.filter Cursor.isGrammatical ++ [t])
    (ht : Cursor.isGrammatical t = true) (hend : v.kind ≠ .endOfFile) :
    (∃ x ∈ behind, Cursor.isGrammatical x = true) ∧ v.upcoming = rowOf behind := by
  obtain ⟨taken, htaken, hrow, hno⟩ := hsteps.before.row
  have hfirst : taken = before.filter Cursor.isGrammatical ++ [t] := by
    rw [← hpassed, ← htaken, start_passed, List.reverse_nil, List.nil_append]
  have hrow : rowOf (before ++ t :: behind) =
      before.filter Cursor.isGrammatical ++ [t] ++ v.upcoming := hfirst ▸ hrow
  have hsplit : before ++ t :: behind = (before ++ [t]) ++ behind := by simp
  have hfilter : (before ++ [t]).filter Cursor.isGrammatical =
      before.filter Cursor.isGrammatical ++ [t] := by simp [ht]
  by_cases hbehind : ∃ x ∈ behind, Cursor.isGrammatical x = true
  · rw [hsplit, rowOf_append _ hbehind, hfilter] at hrow
    exact ⟨hbehind, (List.append_cancel_left hrow).symm⟩
  · -- Then the row ends behind `t`, and the run is at its end.
    have hnone : behind.filter Cursor.isGrammatical = [] := by
      rw [List.filter_eq_nil_iff]
      exact fun x hx h => hbehind ⟨x, hx, h⟩
    have hlast : (before ++ t :: behind).filter Cursor.isGrammatical =
        before.filter Cursor.isGrammatical ++ [t] := by
      rw [hsplit, List.filter_append, hfilter, hnone, List.append_nil]
    have htend : t.isEnd = false := hno t (by rw [hfirst]; simp)
    have hgetLast : ((before ++ t :: behind).filter Cursor.isGrammatical).getLast? = some t := by
      simp [hlast]
    rw [rowOf_eq hgetLast, hlast, htend] at hrow
    have hclosing := List.append_cancel_left hrow
    have hkind := kind_eq_ahead v
    rw [← hclosing] at hkind
    exact absurd hkind hend

/-- Stray tokens between statements are isolated. Some list in a program without a syntax error has
read `nodes` in front of a semicolon, and the statement that comes next is `m`. When stray tokens
stand between them, there is one diagnostic for each of them and no other one; the names are the
same, and so is the tree, but for the empty statements in front of `m` in the node of the list. -/
theorem stray_tokens_are_isolated {settings : Settings} {symbols : SymbolTable}
    {closer : TokenKind} {before strays behind : List Token} {t : Token} {tree : Node}
    {nodes : List Node} {path : List Nat} {s v : ParserState}
    (hlimit : strays.length ≤ settings.maxErrors)
    (hstray : ∀ x ∈ strays, IsStray closer x)
    (hr : program settings (.start (before ++ t :: behind) symbols) = .ok tree s)
    (hclean : s.diagnostics = #[])
    (hlist : ReachesList settings closer nodes v path (.start (before ++ t :: behind) symbols))
    (hpassed : v.cursor.passed.reverse = before.filter Cursor.isGrammatical ++ [t])
    (ht : t.kind = .semicolon) (hopens : v.kind ∈ statementOpeners) :
    ∃ m v' children s', statement settings v = .ok m v' ∧
      program settings (.start (before ++ t :: (strays ++ behind)) symbols) =
        .ok { tree with children } s' ∧
      s'.diagnostics.toList = strays.map (Diagnostic.atToken · .unexpectedToken) ∧
      s'.symbols = s.symbols ∧
      Node.Gains nodes (strays.map emptyAt) m path tree.children children := by
  let i : Insertion settings closer := ⟨strays, hstray, hlimit⟩
  have hcounts : Cursor.isGrammatical t = true := by
    unfold Cursor.isGrammatical
    rw [ht]
    rfl
  have hend : v.kind ≠ .endOfFile := fun h => absurd (h ▸ hopens) (by decide)
  obtain ⟨hbehind, hahead⟩ := upcoming_of_passed hlist.steps hpassed hcounts hend
  have hv : AtGap v := by
    refine ⟨⟨t, (before.filter Cursor.isGrammatical).reverse, ht, ?_⟩, hopens⟩
    rw [← List.reverse_reverse v.cursor.passed, hpassed]
    simp
  have hstrays : strays.filter Cursor.isGrammatical = strays :=
    List.filter_eq_self.mpr fun x hx => (hstray x hx).counts
  have hsu : Beside (i.inFront v.upcoming) (.start (before ++ t :: behind) symbols)
      (.start (before ++ t :: (strays ++ behind)) symbols) := by
    refine ⟨⟨before.filter Cursor.isGrammatical, t, by rw [ht]; decide, ?_, ?_⟩, rfl, rfl, rfl⟩
    · have h : rowOf (before ++ t :: behind) =
          before.filter Cursor.isGrammatical ++ t :: rowOf behind := by
        simpa [hcounts] using rowOf_append (before ++ [t]) hbehind
      rw [hahead]
      exact h
    · have h : rowOf (before ++ t :: (strays ++ behind)) =
          before.filter Cursor.isGrammatical ++ t :: (strays ++ rowOf behind) := by
        simpa [hcounts, hstrays] using rowOf_append (before ++ t :: strays) hbehind
      rw [hahead]
      exact h
  obtain ⟨children, s', hr', h', m, v', hm, hgains⟩ :=
    hlist.detours hv (start_passed _ _) hsu tree s hr hclean
  refine ⟨m, v', children, s', hm, hr', ?_, h'.symbols, hgains⟩
  rw [h'.noted]
  rfl

/-- The tokens of `BEGIN IF X THEN REPEAT Y`. -/
def beforeGap : List Token :=
  [sampleOn 1 .kwBegin "BEGIN", sampleOn 1 .kwIf "IF", sampleOn 1 .identifier "X",
    sampleOn 1 .kwThen "THEN", sampleOn 1 .kwRepeat "REPEAT", sampleOn 1 .identifier "Y"]

/-- The tokens of `END ELSE )`. -/
def strayTokens : List Token :=
  [sampleOn 2 .kwEnd "END", sampleOn 2 .kwElse "ELSE", sampleOn 2 .rightParen ")"]

/-- The tokens of `Z UNTIL X END .`. -/
def behindGap : List Token :=
  [sampleOn 3 .identifier "Z", sampleOn 3 .kwUntil "UNTIL", sampleOn 3 .identifier "X",
    sampleOn 3 .kwEnd "END", sampleOn 3 .dot ".", sampleOn 3 .endOfFile ""]

/-- What closes the list around does not close the list that it stands in. -/
theorem stray_end_is_isolated :
    ∃ tree s children s' nodes m,
      program {} (.start (beforeGap ++ sampleOn 1 .semicolon ";" :: behindGap) {}) = .ok tree s ∧
      program {} (.start
        (beforeGap ++ sampleOn 1 .semicolon ";" :: (strayTokens ++ behindGap)) {}) =
        .ok { tree with children } s' ∧
      s'.diagnostics.toList = strayTokens.map (Diagnostic.atToken · .unexpectedToken) ∧
      s'.symbols = s.symbols ∧
      Node.Gains nodes (strayTokens.map emptyAt) m [0, 1] tree.children children := by
  let start : ParserState := .start (beforeGap ++ sampleOn 1 .semicolon ";" :: behindGap) {}
  let inList := (thenHeader.runFrom start.advance).2.advance
  let atGap := ((listTurn {} (statement {}) .kwUntil []).runFrom inList).2
  have hrun : ((program {}).runFrom start).1.isOk = true ∧
      ((program {}).runFrom start).2.diagnostics = #[] := by decide +kernel
  obtain ⟨tree, hr⟩ := ok_of_isOk hrun.1
  -- The list is in the branch of the first statement, and has read one statement.
  have hopens : start.kind = .kwBegin ∧ start.advance.kind = .kwIf ∧
      (thenHeader.runFrom start.advance).1.toOption = some true ∧
      (thenHeader.runFrom start.advance).2.kind = .kwRepeat := by decide +kernel
  obtain ⟨hbegin, hif, hthen, hrepeat⟩ := hopens
  have hheader : thenHeader start.advance = .ok true (thenHeader.runFrom start.advance).2 := by
    obtain ⟨b, hb⟩ := ok_of_isOk (p := thenHeader) (s := start.advance) (by decide +kernel)
    rw [runFrom_of_ok hb] at hthen
    cases hthen
    exact hb
  obtain ⟨nodes, hturn⟩ : ∃ nodes, listTurn {} (statement {}) .kwUntil [] inList =
      .ok (some nodes) atGap := by
    obtain ⟨o, ho⟩ := ok_of_isOk (p := listTurn {} (statement {}) .kwUntil []) (s := inList)
      (by decide +kernel)
    cases o with
    | none => exact absurd (listTurn_eq_none _ ho).1 (by decide +kernel)
    | some nodes => exact ⟨nodes, ho⟩
  have hwithin : ListWithin {} .kwUntil nodes atGap ([1] ++ []) start.advance := by
    have hmem : (thenHeader, [1]) ∈ parts {} start.advance.kind := by
      rw [hif]
      exact List.mem_cons_self
    have hcloser := congrArg closer? hrepeat
    exact .part hmem hheader (.own hcloser (.turn .refl hturn))
  have hlist : ReachesList {} .kwUntil nodes atGap [0, 1] start :=
    .block hbegin (.item (congrArg closer? hbegin) (.refl : Turns _ _ [] _ [] _) hwithin)
  have hstray : ∀ x ∈ strayTokens, IsStray .kwUntil x := by
    intro x hx
    simp only [strayTokens, List.mem_cons, List.not_mem_nil, or_false] at hx
    rcases hx with rfl | rfl | rfl <;> exact ⟨by decide, by decide, by decide, by decide⟩
  obtain ⟨m, -, children, s', -, hr', hnoted, hsymbols, hgains⟩ :=
    stray_tokens_are_isolated (by decide) hstray hr hrun.2 hlist (by decide +kernel) rfl
      (by decide +kernel)
  exact ⟨tree, _, children, s', nodes, m, hr, hr', hnoted, hsymbols, hgains⟩

end PascalFront.Parser
