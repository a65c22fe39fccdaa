-- The tokens of a text. A scanner stands at a mark in front of the characters
-- that are left; each step passes over the blanks and takes one lexeme, so the
-- lexemes and the blanks between them are the text again.
import PascalFront.Lexeme
import PascalFront.Diagnostic

namespace PascalFront

structure Scanner where
  mark : Mark
  rest : List Char
  deriving DecidableEq, Inhabited

namespace Scanner

/-- A scanner in front of a whole text. -/
def start (source : String) : Scanner := ⟨.start, source.toList⟩

/-- The scanner behind the blanks that come next. -/
def pastBlanks (s : Scanner) : Scanner :=
  ⟨s.mark.after (s.rest.takeWhile isBlank), s.rest.dropWhile isBlank⟩

/-- The next token and the scanner behind it. At the end of the text that is the token for the
end, again and again. -/
def next (s : Scanner) : Token × Scanner :=
  let s := s.pastBlanks
  match s.rest with
  | [] => (.endAt s.mark, s)
  | c :: rest =>
    let l := Lexeme.scan c rest
    (l.placed s.mark, ⟨s.mark.after l.taken, rest.drop l.more.length⟩)

/-- The next `n` tokens and the scanner behind them. -/
def nextTokens : Nat → Scanner → List Token × Scanner
  | 0, s => ([], s)
  | n + 1, s =>
    let (t, s) := s.next
    let (ts, s) := nextTokens n s
    (t :: ts, s)

/-- All tokens from here on, the token for the end last. -/
def tokens (s : Scanner) : List Token :=
  match _h : s.pastBlanks.rest with
  | [] => [.endAt s.pastBlanks.mark]
  | c :: rest =>
    let l := Lexeme.scan c rest
    l.placed s.pastBlanks.mark ::
      tokens ⟨s.pastBlanks.mark.after l.taken, rest.drop l.more.length⟩
termination_by s.rest.length
decreasing_by
  have h1 : s.pastBlanks.rest.length ≤ s.rest.length := (List.dropWhile_suffix _).length_le
  rw [_h] at h1
  simp only [List.length_cons, List.length_drop] at *
  omega

end Scanner

/-- The tokens of a source text. -/
def tokensOf (source : String) : List Token := (Scanner.start source).tokens

/-- One diagnostic for each token that stands for a fault, in order. -/
def lexicalDiagnostics (ts : List Token) : List Diagnostic :=
  ts.filterMap Diagnostic.ofErrorToken?

end PascalFront
