-- A text can be read line by line, as long as no comment and no string goes over
-- the end of a line. A line feed behind a lexeme changes nothing in it, whatever
-- the lexeme could still have taken, and what is behind the line feed is read as
-- if it stood at the start of a text, on a later line.
import PascalFront.Proofs.Blanks
import PascalFront.Proofs.Tiling

namespace PascalFront

open String (utf8Len)

/-! ## Later places -/

/-- How much later in a text something stands, with the columns as they are. -/
structure Shift where
  bytes : Nat
  lines : Nat
  deriving DecidableEq, Inhabited

/-- What stands on the lines behind a text. -/
def Shift.behind (text : String) : Shift := ⟨text.utf8ByteSize + 1, 1 + text.toList.count '\n'⟩

def Span.moved (s : Span) (shift : Shift) : Span := ⟨s.start + shift.bytes, s.stop + shift.bytes⟩

def Position.moved (p : Position) (shift : Shift) : Position := ⟨p.line + shift.lines, p.column⟩

def Mark.moved (m : Mark) (shift : Shift) : Mark := ⟨m.offset + shift.bytes, m.position.moved shift⟩

def Token.moved (t : Token) (shift : Shift) : Token :=
  { t with span := t.span.moved shift, position := t.position.moved shift }

def Diagnostic.moved (d : Diagnostic) (shift : Shift) : Diagnostic :=
  { d with
    span := d.span.moved shift
    position := d.position.map (·.moved shift)
    labels := d.labels.map fun l => { l with span := l.span.moved shift } }

/-- A comment or a string without an end. -/
def Token.IsUnclosed (t : Token) : Prop := t.value = some (.fault .unexpectedEnd)

instance (t : Token) : Decidable t.IsUnclosed := inferInstanceAs (Decidable (_ = _))

/-! ## Texts before a line feed -/

namespace Scanner

open Lexeme

variable {m : Mark} {cs : List Char}

theorem upToBlank_lineFeed (cs ds : List Char) : UpToBlank cs (cs ++ '\n' :: ds) := by
  induction cs with
  | nil => exact .blank [] ds (by decide +kernel)
  | cons c cs ih => exact .cons c ih

/-- The tokens before a line feed are the ones that would be there without it and what follows. -/
theorem tokens_break (hclosed : ∀ t ∈ tokens ⟨m, cs⟩, ¬ t.IsUnclosed) (ds : List Char) :
    tokens ⟨m, cs ++ '\n' :: ds⟩ =
      (tokens ⟨m, cs⟩).filter (!·.isEnd) ++ tokens ⟨m.after (cs ++ ['\n']), ds⟩ := by
  induction cs using text_induction generalizing m with
  | blank cs h =>
    have hall : ∀ c ∈ cs ++ ['\n'], isBlank c = true :=
      List.forall_mem_append.mpr ⟨h, List.forall_mem_singleton.mpr (by decide +kernel)⟩
    have hsplit : cs ++ '\n' :: ds = cs ++ ['\n'] ++ ds := by simp
    rw [hsplit, tokens_past_blanks m hall, tokens_blank m h]
    rfl
  | lexeme blanks l after h ih =>
    rw [tokens_reads m h] at hclosed ⊢
    obtain ⟨hfirst, hrest⟩ := List.forall_mem_cons.mp hclosed
    have hreads : Reads blanks l (after ++ '\n' :: ds) :=
      ⟨h.blanks, h.visible, scan_upToBlank h.scanned (upToBlank_lineFeed after ds)
        fun hopen => absurd hopen hfirst⟩
    have hend : (l.placed (m.after blanks)).isEnd = false := by
      have hkind := (scan_kind l.first (l.more ++ after)).1
      rw [h.scanned] at hkind
      exact beq_eq_false_iff_ne.mpr hkind
    have hsplit : blanks ++ (l.taken ++ after) ++ '\n' :: ds =
        blanks ++ (l.taken ++ (after ++ '\n' :: ds)) := by simp
    have hmark : m.after (blanks ++ (l.taken ++ after) ++ ['\n']) =
        (m.after (blanks ++ l.taken)).after (after ++ ['\n']) := by
      rw [← Mark.after_append]
      simp
    rw [hsplit, tokens_reads m hreads, ih hrest, hmark, List.filter_cons_of_pos (by simp [hend]),
      List.cons_append]

end Scanner

/-! ## Texts behind a line feed -/

namespace Mark

theorem step_moved (m : Mark) (shift : Shift) (c : Char) :
    (m.moved shift).step c = (m.step c).moved shift := by
  have hposition : (m.position.moved shift).after c = (m.position.after c).moved shift := by
    unfold Position.after
    split
    · simp only [Position.moved, Nat.add_right_comm]
    · rfl
  simp only [step, moved, hposition, Nat.add_right_comm]

theorem after_moved (m : Mark) (shift : Shift) (cs : List Char) :
    (m.moved shift).after cs = (m.after cs).moved shift := by
  induction cs generalizing m with
  | nil => rfl
  | cons c cs ih =>
    change ((m.moved shift).step c).after cs = ((m.step c).after cs).moved shift
    rw [step_moved, ih]

/-- Behind a line feed stands the start of a text, moved. -/
theorem start_after_lineFeed (a : String) :
    Mark.start.after (a.toList ++ ['\n']) = Mark.start.moved (.behind a) := by
  have hoffset : (Mark.start.after (a.toList ++ ['\n'])).offset = a.utf8ByteSize + 1 := by
    rw [offset_after, String.utf8Len_append, ← utf8ByteSize_eq]
    exact Nat.zero_add _
  have hposition : (Mark.start.after (a.toList ++ ['\n'])).position =
      Position.first.moved (.behind a) := by
    rw [position_after_start]
    simp [placeBehind, Position.moved, Position.first, Shift.behind, Nat.add_comm]
  calc Mark.start.after (a.toList ++ ['\n'])
      = ⟨(Mark.start.after (a.toList ++ ['\n'])).offset,
          (Mark.start.after (a.toList ++ ['\n'])).position⟩ := rfl
    _ = ⟨0 + (a.utf8ByteSize + 1), Position.first.moved (.behind a)⟩ := by
      rw [hoffset, hposition, Nat.zero_add]
    _ = Mark.start.moved (.behind a) := rfl

end Mark

theorem Span.between_moved {start stop : Nat} {shift : Shift}
    (hle : start ≤ stop) (hbound : stop + shift.bytes < 0x100000000) :
    Span.between (start + shift.bytes) (stop + shift.bytes) =
      (Span.between start stop).moved shift := by
  simp only [Span.between, Span.moved]
  rw [storedOffset_of_lt (by omega), storedOffset_of_lt (by omega), storedOffset_of_lt (by omega),
    storedOffset_of_lt (by omega)]

theorem Token.endAt_moved {m : Mark} {shift : Shift}
    (hbound : m.offset + shift.bytes < 0x100000000) :
    Token.endAt (m.moved shift) = (Token.endAt m).moved shift := by
  have hspan := Span.between_moved (Nat.le_refl m.offset) hbound
  simp only [Token.endAt, Mark.moved, Token.moved, hspan]

theorem Lexeme.placed_moved (l : Lexeme) {m : Mark} {shift : Shift}
    (hbound : m.offset + utf8Len l.taken + shift.bytes < 0x100000000) :
    l.placed (m.moved shift) = (l.placed m).moved shift := by
  have hspan := Span.between_moved (Nat.le_add_right m.offset (utf8Len l.taken)) hbound
  rw [← m.offset_after] at hspan
  simp only [Lexeme.placed, Token.moved, Mark.after_moved]
  simp only [Mark.moved, hspan]

/-- From a mark further on the same tokens are read, further on. -/
theorem Scanner.tokens_moved {m : Mark} {shift : Shift} {cs : List Char}
    (hbound : m.offset + utf8Len cs + shift.bytes < 0x100000000) :
    tokens ⟨m.moved shift, cs⟩ = (tokens ⟨m, cs⟩).map (·.moved shift) := by
  induction cs using text_induction generalizing m with
  | blank cs h =>
    rw [tokens_blank _ h, tokens_blank m h, Mark.after_moved, List.map_singleton,
      Token.endAt_moved (by rwa [Mark.offset_after])]
  | lexeme blanks l after h ih =>
    rw [String.utf8Len_append, String.utf8Len_append] at hbound
    have hfirst : (m.after blanks).offset + utf8Len l.taken + shift.bytes < 0x100000000 := by
      rw [Mark.offset_after]
      omega
    -- the bound is on the end of the text, so each step hands it on as it is
    have hrest : (m.after (blanks ++ l.taken)).offset + utf8Len after + shift.bytes <
        0x100000000 := by
      rw [Mark.offset_after, String.utf8Len_append]
      omega
    rw [tokens_reads _ h, tokens_reads m h, Mark.after_moved, Mark.after_moved,
      Lexeme.placed_moved l hfirst, ih hrest, List.map_cons]

/-! ## Diagnostics -/

theorem Diagnostic.ofErrorToken?_moved (t : Token) (shift : Shift) :
    ofErrorToken? (t.moved shift) = (ofErrorToken? t).map (·.moved shift) := by
  obtain ⟨kind, text, value, span, position⟩ := t
  unfold ofErrorToken? Token.moved
  dsimp only
  split
  · rfl
  · rfl

theorem lexicalDiagnostics_moved (ts : List Token) (shift : Shift) :
    lexicalDiagnostics (ts.map (·.moved shift)) = (lexicalDiagnostics ts).map (·.moved shift) := by
  rw [lexicalDiagnostics, lexicalDiagnostics, List.filterMap_map, List.map_filterMap]
  exact congrArg (ts.filterMap ·) (funext fun t => Diagnostic.ofErrorToken?_moved t shift)

theorem lexicalDiagnostics_filter (ts : List Token) :
    lexicalDiagnostics (ts.filter (!·.isEnd)) = lexicalDiagnostics ts :=
  lexicalDiagnostics_without (fun t ht => by simp [Token.isEnd, ht]) ts

/-! ## The law -/

/-- A line feed splits a text into two that are read on their own, if the first one ends in no
comment and no string. -/
theorem lines_are_read_apart (a b : String)
    (hlength : a.utf8ByteSize + 1 + b.utf8ByteSize < 0x100000000 - 1)
    (hclosed : ∀ t ∈ tokensOf a, ¬ t.IsUnclosed) :
    tokensOf (a ++ "\n" ++ b) =
        (tokensOf a).filter (!·.isEnd) ++ (tokensOf b).map (·.moved (.behind a)) ∧
      lexicalDiagnostics (tokensOf (a ++ "\n" ++ b)) =
        lexicalDiagnostics (tokensOf a) ++
          (lexicalDiagnostics (tokensOf b)).map (·.moved (.behind a)) := by
  have hbound : Mark.start.offset + utf8Len b.toList + (Shift.behind a).bytes < 0x100000000 := by
    have hstart : Mark.start.offset = 0 := rfl
    have hshift : (Shift.behind a).bytes = a.utf8ByteSize + 1 := rfl
    rw [hstart, hshift, ← utf8ByteSize_eq]
    omega
  have hlist : (a ++ "\n" ++ b).toList = a.toList ++ '\n' :: b.toList := by simp
  have htokens : tokensOf (a ++ "\n" ++ b) =
      (tokensOf a).filter (!·.isEnd) ++ (tokensOf b).map (·.moved (.behind a)) := by
    unfold tokensOf Scanner.start
    rw [hlist, Scanner.tokens_break hclosed, Mark.start_after_lineFeed,
      Scanner.tokens_moved hbound]
  refine ⟨htokens, ?_⟩
  rw [htokens]
  calc lexicalDiagnostics ((tokensOf a).filter (!·.isEnd) ++ (tokensOf b).map (·.moved (.behind a)))
      = lexicalDiagnostics ((tokensOf a).filter (!·.isEnd)) ++
          lexicalDiagnostics ((tokensOf b).map (·.moved (.behind a))) := List.filterMap_append
    _ = _ := by rw [lexicalDiagnostics_filter, lexicalDiagnostics_moved]

/-- A line that ends in half a number, and half a symbol behind it. -/
def halfLine : String := "é := 1e+ \x27it\n\x27<"

theorem halfLine_is_read_apart :
    halfLine.utf8ByteSize + 1 + "=2\n?".utf8ByteSize < 0x100000000 - 1 ∧
    (∀ t ∈ tokensOf halfLine, ¬ t.IsUnclosed) ∧
    tokensOf (halfLine ++ "\n" ++ "=2\n?") = (tokensOf halfLine).filter (!·.isEnd) ++
      (tokensOf "=2\n?").map (·.moved ⟨halfLine.utf8ByteSize + 1, 2⟩) ∧
    (lexicalDiagnostics (tokensOf (halfLine ++ "\n" ++ "=2\n?"))).map (·.cause) =
      [some .invalidNumber, some .invalidCharacter] := by
  have hlength : halfLine.utf8ByteSize + 1 + "=2\n?".utf8ByteSize < 0x100000000 - 1 := by
    decide +kernel
  have hclosed : ∀ t ∈ tokensOf halfLine, ¬ t.IsUnclosed := by decide +kernel
  obtain ⟨htokens, hdiagnostics⟩ := lines_are_read_apart halfLine "=2\n?" hlength hclosed
  refine ⟨hlength, hclosed, htokens, ?_⟩
  rw [hdiagnostics]
  decide +kernel

end PascalFront
