-- Lexemes: the characters that make up one token. A lexeme is found from its
-- first character and the characters behind it, and it does not depend on
-- where in the text it stands. It always takes the longest text that it can.
import PascalFront.Token

namespace PascalFront

/-- One token without its place: `first` and `more` are the characters it takes. -/
structure Lexeme where
  kind : TokenKind
  text : String
  value : Option TokenValue
  first : Char
  more : List Char
  deriving DecidableEq, Inhabited

namespace Lexeme

/-- The characters that a lexeme takes from the source. -/
def taken (l : Lexeme) : List Char := l.first :: l.more

/-- A lexeme whose text is what it takes. -/
def plain (kind : TokenKind) (value : Option TokenValue) (first : Char) (more : List Char) :
    Lexeme :=
  ⟨kind, String.ofList (first :: more), value, first, more⟩

/-- Characters that do not make up a token. -/
def faulty (cause : Cause) (first : Char) (more : List Char) : Lexeme :=
  plain .error (some (.fault cause)) first more

/-! ## Comments -/

def openBrace : Char := '\x7b'
def closeBrace : Char := '\x7d'
def quoteMark : Char := '\x27'

/-- The inside of a comment with every blank as one space. -/
def commentText (inside : List Char) : String :=
  String.ofList (inside.map fun c => if isBlank c then ' ' else c)

/-- A comment runs to the next closing brace. -/
def comment (rest : List Char) : Lexeme :=
  let inside := rest.takeWhile (· != closeBrace)
  let text := commentText inside
  match rest.dropWhile (· != closeBrace) with
  | [] => ⟨.error, text, some (.fault .unexpectedEnd), openBrace, inside⟩
  | brace :: _ => ⟨.comment, text, some (.text text), openBrace, inside ++ [brace]⟩

/-! ## Words -/

/-- A letter and the word characters behind it: a reserved word or an identifier. -/
def word (c : Char) (rest : List Char) : Lexeme :=
  let more := rest.takeWhile isWordChar
  plain ((TokenKind.reservedWord? (String.ofList (c :: more))).getD .identifier) none c more

/-! ## Numbers -/

/-- The parts of a written number. -/
structure Numeral where
  /-- The digits before the point. -/
  whole : List Char
  /-- The digits behind the point, when there is a point. -/
  fraction : Option (List Char)
  /-- The letter, the sign and the digits of the exponent, when there is one. -/
  exponent : Option (Char × List Char × List Char)
  deriving DecidableEq, Inhabited

namespace Numeral

/-- A point belongs to a number only when a digit follows, so that `END.` ends with a period. -/
def fraction? : List Char → Option (List Char)
  | '.' :: d :: rest => if isDigit d then some (d :: rest.takeWhile isDigit) else none
  | _ => none

/-- A sign at the start, if there is one. -/
def sign : List Char → List Char
  | c :: _ => if c = '+' ∨ c = '-' then [c] else []
  | [] => []

/-- The letter of an exponent belongs to the number even when no digits follow. -/
def exponent? : List Char → Option (Char × List Char × List Char)
  | [] => none
  | e :: rest =>
    if e = 'e' ∨ e = 'E' then
      let s := sign rest
      some (e, s, (rest.drop s.length).takeWhile isDigit)
    else none

/-- The characters of the fraction. -/
def fractionChars : Option (List Char) → List Char
  | some digits => '.' :: digits
  | none => []

/-- The characters of the exponent. -/
def exponentChars : Option (Char × List Char × List Char) → List Char
  | some (e, s, digits) => e :: (s ++ digits)
  | none => []

/-- The longest number at the start of `cs`, which starts with a digit. -/
def read (cs : List Char) : Numeral :=
  let whole := cs.takeWhile isDigit
  let rest := cs.dropWhile isDigit
  let fraction := fraction? rest
  ⟨whole, fraction, exponent? (rest.drop (fractionChars fraction).length)⟩

/-- All characters of a number. -/
def chars (n : Numeral) : List Char :=
  n.whole ++ fractionChars n.fraction ++ exponentChars n.exponent

/-- The largest integer constant. -/
def maxInteger : Nat := 0x7fffffffffffffff

/-- The exponent as a number. -/
def exponentValue : Option (Char × List Char × List Char) → Int
  | some (_, s, digits) => if s = ['-'] then -(numberOf digits : Int) else numberOf digits
  | none => 0

/-- The double nearest to what is written. -/
def realValue (n : Numeral) : Binary64 :=
  let fraction := n.fraction.getD []
  .nearest false ⟨numberOf (n.whole ++ fraction), exponentValue n.exponent - fraction.length⟩

/-- The value of a number: an integer when there is neither a fraction nor an exponent. -/
def value (n : Numeral) : TokenValue :=
  match n.fraction, n.exponent with
  | none, none =>
    if numberOf n.whole ≤ maxInteger then .integer (numberOf n.whole) else .fault .integerRange
  | _, some (_, _, []) => .fault .invalidNumber
  | _, _ => if n.realValue.isFinite then .real n.realValue else .fault .realRange

end Numeral

/-- The kind of token that a number with this value is. -/
def numberKind : TokenValue → TokenKind
  | .integer _ => .integer
  | .real _ => .real
  | _ => .error

/-- A number that starts with the digit `c`. -/
def number (c : Char) (rest : List Char) : Lexeme :=
  let n := Numeral.read (c :: rest)
  plain (numberKind n.value) (some n.value) c (n.chars.drop 1)

/-! ## Strings -/

/-- The contents of a string behind its opening quote and the text behind the closing one. Two
quotes in a row are one quote of the contents. -/
def quoted? : List Char → Option (List Char × List Char)
  | [] => none
  | c :: rest =>
    if c = quoteMark then
      match rest with
      | d :: tail =>
        if d = quoteMark then (quoted? tail).map fun (s, after) => (quoteMark :: s, after)
        else some ([], rest)
      | [] => some ([], [])
    else (quoted? rest).map fun (s, after) => (c :: s, after)

/-- A string may run over several lines; without a closing quote it takes all that is left. -/
def quotedString (rest : List Char) : Lexeme :=
  match quoted? rest with
  | some (s, after) =>
    plain .string (some (.text (String.ofList s))) quoteMark
      (rest.take (rest.length - after.length))
  | none => faulty .unexpectedEnd quoteMark rest

/-! ## Symbols -/

/-- A special symbol, of two characters where two make one. -/
def symbol (c : Char) (rest : List Char) : Lexeme :=
  let pair? := match rest with
    | d :: _ => (TokenKind.specialSymbol? (String.ofList [c, d])).map fun k => plain k none c [d]
    | [] => none
  let single := match TokenKind.specialSymbol? (String.ofList [c]) with
    | some k => plain k none c []
    | none => faulty .invalidCharacter c []
  pair?.getD single

/-! ## All lexemes -/

/-- The lexeme that starts with `c`, which is no blank, in front of `rest`. -/
def scan (c : Char) (rest : List Char) : Lexeme :=
  if c = openBrace then comment rest
  else if isLetter c then word c rest
  else if isDigit c then number c rest
  else if c = quoteMark then quotedString rest
  else symbol c rest

/-- The token of a lexeme that starts at a mark. -/
def placed (l : Lexeme) (m : Mark) : Token :=
  ⟨l.kind, l.text, l.value, .between m.offset (m.after l.taken).offset, m.position⟩

end Lexeme

end PascalFront
