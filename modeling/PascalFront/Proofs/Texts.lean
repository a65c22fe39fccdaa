-- Texts, lexeme by lexeme. The scanner is in front of a text that is blank, or
-- blanks and a lexeme stand in front of a shorter text, so what holds of the
-- tokens is proved by induction on the text. The mark at the start of the text
-- is any mark at all: it says where the tokens stand, and nothing else depends
-- on it.
import PascalFront.Tokens
import PascalFront.Proofs.Kinds
import Mathlib.Data.List.Induction
import Mathlib.Data.String.Basic

namespace PascalFront

open String (utf8Len)

/-! ## Marks -/

namespace Mark

theorem after_append (m : Mark) (cs ds : List Char) : m.after (cs ++ ds) = (m.after cs).after ds :=
  List.foldl_append

theorem offset_after (m : Mark) (cs : List Char) : (m.after cs).offset = m.offset + utf8Len cs := by
  induction cs generalizing m with
  | nil => rfl
  | cons c cs ih =>
    have hstep : (m.step c).offset = m.offset + c.utf8Size := rfl
    have hrest : (m.after (c :: cs)).offset = (m.step c).offset + utf8Len cs := ih (m.step c)
    rw [hrest, hstep, String.utf8Len_cons]
    omega

end Mark

/-! ## Places -/

theorem Position.isLE_compare {p q : Position} :
    (p.compare q).isLE ↔ p.line < q.line ∨ p.line = q.line ∧ p.column ≤ q.column := by
  simp [Position.compare, Ordering.isLE_then_iff_or, Nat.compare_eq_lt, Nat.isLE_compare]

theorem Position.isLE_compare_trans {p q r : Position} (h : (p.compare q).isLE)
    (h' : (q.compare r).isLE) : (p.compare r).isLE := by
  rw [isLE_compare] at h h' ⊢
  omega

/-- A mark that is further on stands at no earlier place. -/
theorem Mark.isLE_compare_after (m : Mark) (cs : List Char) :
    (m.position.compare (m.after cs).position).isLE := by
  rw [Position.isLE_compare]
  induction cs generalizing m with
  | nil => exact .inr ⟨rfl, Nat.le_refl _⟩
  | cons c cs ih =>
    have hrest := ih (m.step c)
    rw [show (m.step c).after cs = m.after (c :: cs) from rfl] at hrest
    rw [show (m.step c).position = m.position.after c from rfl, Position.after] at hrest
    split at hrest
    · dsimp only at hrest
      omega
    · dsimp only at hrest
      omega

/-- The place behind some characters at the start of a text: one line more for every line feed, and
one column more for every character since the last of them. -/
def placeBehind (cs : List Char) : Position :=
  ⟨1 + cs.count '\n', 1 + (cs.reverse.takeWhile (· != '\n')).length⟩

theorem position_after_start (cs : List Char) :
    (Mark.start.after cs).position = placeBehind cs := by
  induction cs using List.reverseRecOn with
  | nil => rfl
  | append_singleton cs c ih =>
    have hlast : (Mark.start.after (cs ++ [c])).position =
        (Mark.start.after cs).position.after c := by
      rw [Mark.after_append]
      rfl
    rw [hlast, ih]
    by_cases hc : c = '\n'
    · simp [Position.after, placeBehind, hc, Nat.add_assoc]
    · simp [Position.after, placeBehind, hc, Nat.add_comm]

/-! ## Texts, lexeme by lexeme -/

namespace Scanner

open Lexeme

variable {m : Mark} {cs blanks after : List Char} {l : Lexeme}

theorem tokens_blank (m : Mark) (h : ∀ c ∈ cs, isBlank c = true) :
    tokens ⟨m, cs⟩ = [.endAt (m.after cs)] := by
  have htake : cs.takeWhile isBlank = cs := List.takeWhile_eq_self_iff.mpr h
  have hdrop : cs.dropWhile isBlank = [] := List.dropWhile_eq_nil_iff.mpr h
  unfold tokens
  split
  · simp [pastBlanks, htake]
  · rename_i heq
    simp [pastBlanks, hdrop] at heq

/-- A lexeme that stands between blanks and the rest of a text, and is read there. -/
structure Reads (blanks : List Char) (l : Lexeme) (after : List Char) : Prop where
  blanks : ∀ c ∈ blanks, isBlank c = true
  visible : isBlank l.first = false
  scanned : scan l.first (l.more ++ after) = l

theorem tokens_reads (m : Mark) (h : Reads blanks l after) :
    tokens ⟨m, blanks ++ (l.taken ++ after)⟩ =
      l.placed (m.after blanks) :: tokens ⟨m.after (blanks ++ l.taken), after⟩ := by
  have hstop : StopsRun isBlank (l.taken ++ after) := stopsRun_cons.mpr h.visible
  have hpast : pastBlanks ⟨m, blanks ++ (l.taken ++ after)⟩ =
      ⟨m.after blanks, l.taken ++ after⟩ := by
    rw [pastBlanks, takeWhile_of_run h.blanks hstop, dropWhile_of_run h.blanks hstop]
  rw [tokens]
  split
  · rename_i heq
    rw [hpast] at heq
    cases heq
  · rename_i c rest heq
    rw [hpast] at heq
    obtain ⟨rfl, rfl⟩ : l.first = c ∧ l.more ++ after = rest := List.cons.inj heq
    rw [hpast]
    dsimp only
    rw [h.scanned, List.drop_left, Mark.after_append]

/-- Every text is blank, or it has a lexeme behind blanks and then a text again. -/
@[elab_as_elim]
theorem text_induction {motive : List Char → Prop}
    (blank : ∀ cs, (∀ c ∈ cs, isBlank c = true) → motive cs)
    (lexeme : ∀ blanks l after, Reads blanks l after → motive after →
      motive (blanks ++ (l.taken ++ after)))
    (cs : List Char) : motive cs := by
  -- on the length: what is behind a lexeme is shorter, by any number of characters
  induction hn : cs.length using Nat.strongRecOn generalizing cs with
  | ind n ih =>
    subst hn
    have hcs : cs.takeWhile isBlank ++ cs.dropWhile isBlank = cs := List.takeWhile_append_dropWhile
    have hblanks : ∀ c ∈ cs.takeWhile isBlank, isBlank c = true :=
      fun c hc => List.mem_takeWhile_imp hc
    have hstop := stopsRun_dropWhile isBlank cs
    cases hrest : cs.dropWhile isBlank with
    | nil =>
      rw [hrest, List.append_nil] at hcs
      exact blank cs (hcs ▸ hblanks)
    | cons c rest =>
      rw [hrest] at hcs hstop
      obtain ⟨after, hsplit, -⟩ := (scan_longest c).splits rest
      have hfirst := first_scan c rest
      have htaken : (scan c rest).taken ++ after = c :: rest := by
        rw [taken, hfirst, List.cons_append, ← hsplit]
      have hreads : Reads (cs.takeWhile isBlank) (scan c rest) after := by
        refine ⟨hblanks, by rw [hfirst]; exact stopsRun_cons.mp hstop, ?_⟩
        rw [hfirst, ← hsplit]
      rw [← hcs, ← htaken]
      refine lexeme _ _ _ hreads (ih after.length ?_ after rfl)
      have hlength := congrArg List.length hcs
      rw [hsplit] at hlength
      simp only [List.length_append, List.length_cons] at hlength
      omega

/-- The end comes last and only once. -/
theorem tokens_end (m : Mark) (cs : List Char) :
    ∃ body, tokens ⟨m, cs⟩ = body ++ [.endAt (m.after cs)] ∧
      ∀ t ∈ body, t.kind ≠ .endOfFile := by
  induction cs using text_induction generalizing m with
  | blank cs h => exact ⟨[], tokens_blank m h, by simp⟩
  | lexeme blanks l after h ih =>
    obtain ⟨body, heq, hbody⟩ := ih (m.after (blanks ++ l.taken))
    refine ⟨l.placed (m.after blanks) :: body, ?_, ?_⟩
    · rw [tokens_reads m h, heq, ← Mark.after_append, List.append_assoc, List.cons_append]
    · refine List.forall_mem_cons.mpr ⟨?_, hbody⟩
      have hkind := (scan_kind l.first (l.more ++ after)).1
      rwa [h.scanned] at hkind

/-- A token stands at no earlier place than the token in front of it. -/
theorem tokens_positions (m : Mark) (cs : List Char) :
    (∀ t ∈ tokens ⟨m, cs⟩, (m.position.compare t.position).isLE) ∧
      (tokens ⟨m, cs⟩).Pairwise fun t t' => (t.position.compare t'.position).isLE := by
  induction cs using text_induction generalizing m with
  | blank cs h =>
    rw [tokens_blank m h]
    exact ⟨List.forall_mem_singleton.mpr (m.isLE_compare_after cs), List.pairwise_singleton _ _⟩
  | lexeme blanks l after h ih =>
    obtain ⟨hle, hordered⟩ := ih (m.after (blanks ++ l.taken))
    have hblanks := m.isLE_compare_after blanks
    have hlater : ∀ t ∈ tokens ⟨m.after (blanks ++ l.taken), after⟩,
        ((m.after blanks).position.compare t.position).isLE := by
      intro t ht
      have htaken := (m.after blanks).isLE_compare_after l.taken
      rw [← Mark.after_append] at htaken
      exact Position.isLE_compare_trans htaken (hle t ht)
    rw [tokens_reads m h]
    refine ⟨List.forall_mem_cons.mpr ⟨hblanks, fun t ht => ?_⟩, ?_⟩
    · exact Position.isLE_compare_trans hblanks (hlater t ht)
    · exact List.pairwise_cons.mpr ⟨hlater, hordered⟩

/-- The token of a lexeme of a text, with what stands before the lexeme and behind it. -/
structure Stands (m : Mark) (cs : List Char) (t : Token) (before : List Char) (l : Lexeme)
    (after : List Char) : Prop where
  text : cs = before ++ (l.taken ++ after)
  token : t = l.placed (m.after before)
  visible : isBlank l.first = false
  scanned : scan l.first (l.more ++ after) = l

section

variable {t : Token} {before : List Char}

theorem Stands.kind_eq (h : Stands m cs t before l after) : t.kind = l.kind := by
  rw [h.token, placed]

theorem Stands.text_eq (h : Stands m cs t before l after) : t.text = l.text := by
  rw [h.token, placed]

theorem Stands.value_eq (h : Stands m cs t before l after) : t.value = l.value := by
  rw [h.token, placed]

end

/-- Every token but the end is that of a lexeme of the text. -/
theorem exists_stands {t : Token} (ht : t ∈ tokens ⟨m, cs⟩) (hk : t.kind ≠ .endOfFile) :
    ∃ before l after, Stands m cs t before l after := by
  induction cs using text_induction generalizing m with
  | blank cs h =>
    rw [tokens_blank m h, List.mem_singleton] at ht
    rw [ht] at hk
    exact absurd rfl hk
  | lexeme blanks l after h ih =>
    rw [tokens_reads m h] at ht
    rcases List.mem_cons.mp ht with rfl | ht
    · exact ⟨blanks, l, after, rfl, rfl, h.visible, h.scanned⟩
    · obtain ⟨before, l', after', htext, htoken, hvisible, hscanned⟩ := ih ht
      refine ⟨blanks ++ l.taken ++ before, l', after', ?_, ?_, hvisible, hscanned⟩
      · rw [htext]
        simp
      · rw [htoken, Mark.after_append m (blanks ++ l.taken)]

theorem tokens_cases {t : Token} (ht : t ∈ tokens ⟨m, cs⟩) :
    t = .endAt (m.after cs) ∨ ∃ before l after, Stands m cs t before l after := by
  by_cases hk : t.kind = .endOfFile
  · obtain ⟨body, htokens, hbody⟩ := tokens_end m cs
    rw [htokens, List.mem_append, List.mem_singleton] at ht
    exact .inl (ht.resolve_left fun hmem => hbody t hmem hk)
  · exact .inr (exists_stands ht hk)

end Scanner

/-! ## Faults -/

/-- The faults of a text are told by its tokens of kind `error` alone. -/
theorem lexicalDiagnostics_without {p : Token → Bool} (hp : ∀ t, t.kind = .error → p t = true)
    (ts : List Token) : lexicalDiagnostics (ts.filter p) = lexicalDiagnostics ts := by
  rw [lexicalDiagnostics, lexicalDiagnostics, List.filterMap_filter]
  refine congrArg (ts.filterMap ·) (funext fun t => ?_)
  split
  · rfl
  · rename_i hnot
    unfold Diagnostic.ofErrorToken?
    split
    · rename_i hkind _
      exact absurd (hp t hkind) hnot
    · rfl

end PascalFront
