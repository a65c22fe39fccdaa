-- Parsers: what reads tokens from a cursor, enters names and notes syntax
-- errors. A parser ends with a result or with a failure, and the state stays
-- known in both cases. Every parser is put together from the few steps of this
-- module, so what each of them keeps, every parser keeps.
import PascalFront.Cursor
import PascalFront.Diagnostic
import PascalFront.Failure
import PascalFront.KindSet
import PascalFront.Tree

namespace PascalFront

/-! ## Settings and state -/

structure Settings where
  /-- The parse stops once more syntax errors than this are noted. -/
  maxErrors : Nat := 25
  /-- How the names of the hidden variables of WHEN statements begin. -/
  whenStem : String := "$when_"
  deriving DecidableEq, Inhabited

/-- The hidden variable of a WHEN statement whose expression starts on a line. -/
def Settings.whenName (settings : Settings) (line : Nat) : String :=
  settings.whenStem ++ toString line

structure ParserState where
  cursor : Cursor
  /-- The syntax errors noted so far, in order. -/
  diagnostics : Array Diagnostic := #[]
  symbols : SymbolTable := {}

namespace ParserState

/-- A parser in front of some tokens. -/
def start (ts : List Token) (symbols : SymbolTable) : ParserState :=
  { cursor := .ofTokens ts, symbols }

def here (s : ParserState) : Token := s.cursor.here

def kind (s : ParserState) : TokenKind := s.here.kind

def line (s : ParserState) : Nat := s.here.position.line

def errorCount (s : ParserState) : Nat := s.diagnostics.size

def advance (s : ParserState) : ParserState := { s with cursor := s.cursor.advance }

/-- Notes a syntax error at a token. -/
def note (s : ParserState) (t : Token) (cause : Cause) : ParserState :=
  { s with diagnostics := s.diagnostics.push (.atToken t cause) }

/-- Notes a syntax error at the token at the cursor. -/
def flag (s : ParserState) (cause : Cause) : ParserState := s.note s.here cause

/-- Enters a name and the line that mentions it. -/
def enter (s : ParserState) (name : String) (line : Nat) : SymbolId × ParserState :=
  let (id, symbols) := s.symbols.enterAt name line
  (id, { s with symbols })

/-- Passes tokens until one of `set` or the end. The first of them is noted as unexpected. -/
def resumeAt (s : ParserState) (set : KindSet) : ParserState :=
  if set.contains s.kind || s.cursor.atEnd then s
  else
    let s := s.flag .unexpectedToken
    { s with cursor := s.cursor.skipUntil set.contains }

end ParserState

/-- A parser of an `α`. -/
abbrev Parser (α : Type) := EStateM Failure ParserState α

namespace Parser

/-! ## Looking -/

/-- The kind of the token at the cursor. -/
def kind : Parser TokenKind := fun s => .ok s.kind s

/-- The kind of the token behind that one. -/
def nextKind : Parser TokenKind := fun s => .ok s.cursor.second.kind s

/-- The token at the cursor. -/
def here : Parser Token := fun s => .ok s.here s

/-- The line of the token at the cursor. -/
def line : Parser Nat := fun s => .ok s.line s

/-! ## Moving -/

def advance : Parser Unit := fun s => .ok () s.advance

/-- Takes a token of this kind if it is next, and says whether it was. -/
def accept (k : TokenKind) : Parser Bool := fun s =>
  if s.kind = k then .ok true s.advance else .ok false s

/-! ## Syntax errors -/

def flag (cause : Cause) : Parser Unit := fun s => .ok () (s.flag cause)

/-- Takes a token of this kind, or notes that it is missing and goes on without it. -/
def expect (k : TokenKind) (missing : Cause) : Parser Unit := fun s =>
  if s.kind = k then .ok () s.advance else .ok () (s.flag missing)

/-- Passes over tokens that cannot come here, up to one of `set`. -/
def resumeAt (set : KindSet) : Parser Unit := fun s => .ok () (s.resumeAt set)

/-- Takes a token of this kind, if need be behind some that cannot come here. -/
def expectIn (set : KindSet) (k : TokenKind) (missing : Cause) : Parser Unit := do
  resumeAt set
  expect k missing

/-- Gives up when there are too many syntax errors. -/
def checkLimit (settings : Settings) : Parser Unit := fun s =>
  if settings.maxErrors < s.errorCount then .error (.tooManyErrors s.errorCount) s else .ok () s

/-- Gives up at the end of the text. -/
def endedEarly : Parser α := fun s => .error (.unexpectedEnd s.line) (s.flag .unexpectedEnd)

/-! ## Names -/

/-- Enters a name and the line that mentions it. -/
def enter (name : String) (line : Nat) : Parser SymbolId := fun s =>
  let (id, s) := s.enter name line
  .ok id s

/-- Takes an identifier and enters it in small letters. -/
def takeName : Parser SymbolId := do
  let t ← here
  let id ← enter (caseFold t.text) t.position.line
  advance
  return id

/-! ## Repetition

A loop that takes a token in every turn ends before the tokens do, and so does a
parser that takes a token before it calls itself. The tokens ahead are the bound
in both cases, and for such parsers the bound is never met. -/

/-- Turns of a loop, one more than there are tokens in the bound at the most. -/
def loopWithin (turn : β → Parser (Option β)) : List Token → β → Parser β
  | [], b => do return (← turn b).getD b
  | _ :: bound, b => do
    match ← turn b with
    | none => return b
    | some b => loopWithin turn bound b

/-- Takes turns, each with the result of the one before, until a turn gives none. -/
def loop (turn : β → Parser (Option β)) (b : β) : Parser β := fun s =>
  loopWithin turn s.cursor.ahead b s

/-- A parser that calls itself, one level deeper than there are tokens in the bound at the most;
below that stands `last`. -/
def nestWithin (last : Parser α) (level : Parser α → Parser α) (bound : List Token)
    (s : ParserState) : EStateM.Result Failure ParserState α :=
  match bound with
  | [] => level last s
  | _ :: bound => level (nestWithin last level bound) s

/-- The parser that `level` makes of itself. -/
def nest (last : Parser α) (level : Parser α → Parser α) : Parser α := fun s =>
  nestWithin last level s.cursor.ahead s

end Parser

end PascalFront
