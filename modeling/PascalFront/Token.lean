-- The tokens of the language. Their kinds come in three bands: reserved words,
-- special symbols, and the kinds that stand for more than one text.
import PascalFront.Place
import PascalFront.Cause
import PascalFront.Binary64
import PascalFront.Letters.Fold

namespace PascalFront

/-! ## Kinds -/

inductive TokenKind where
  -- Reserved words
  | kwAnd | kwArray | kwBegin | kwCase | kwDiv | kwDo | kwElse | kwEnd | kwFile | kwFor
  | kwFunction | kwIf | kwIn | kwMod | kwNil | kwNot | kwOf | kwOr | kwPacked | kwProcedure
  | kwProgram | kwRepeat | kwSet | kwThen | kwTo | kwDownto | kwUntil | kwVar | kwWhile | kwWith
  | kwWhen | kwLessThan0 | kwEqual0 | kwGreaterThan0 | kwLoop
  -- Special symbols
  | plus | minus | star | slash | assign | dot | comma | semicolon | colon | quote | equals
  | notEquals | lessThan | lessEquals | greaterEquals | greaterThan | leftParen | rightParen
  | leftBracket | rightBracket | leftBrace | rightBrace | upArrow
  -- Literals and structure
  | identifier | integer | real | string | comment | error | endOfFile
  deriving DecidableEq, Inhabited

namespace TokenKind

/-- Every kind, in the order of the declaration. -/
def all : List TokenKind := [
  kwAnd, kwArray, kwBegin, kwCase, kwDiv, kwDo, kwElse, kwEnd, kwFile, kwFor, kwFunction, kwIf,
  kwIn, kwMod, kwNil, kwNot, kwOf, kwOr, kwPacked, kwProcedure, kwProgram, kwRepeat, kwSet,
  kwThen, kwTo, kwDownto, kwUntil, kwVar, kwWhile, kwWith, kwWhen, kwLessThan0, kwEqual0,
  kwGreaterThan0, kwLoop, plus, minus, star, slash, assign, dot, comma, semicolon, colon, quote,
  equals, notEquals, lessThan, lessEquals, greaterEquals, greaterThan, leftParen, rightParen,
  leftBracket, rightBracket, leftBrace, rightBrace, upArrow, identifier, integer, real, string,
  comment, error, endOfFile]

/-- The place of a kind among all kinds. -/
def index (k : TokenKind) : Nat := k.ctorIdx

/-- How many kinds there are. -/
def count : Nat := all.length

def isReservedWord (k : TokenKind) : Bool := k.index ≤ kwLoop.index

def isSpecialSymbol (k : TokenKind) : Bool := plus.index ≤ k.index && k.index ≤ upArrow.index

/-- The name of a kind in listings. -/
def name : TokenKind → String
  | kwAnd => "AND"
  | kwArray => "ARRAY"
  | kwBegin => "BEGIN"
  | kwCase => "CASE"
  | kwDiv => "DIV"
  | kwDo => "DO"
  | kwElse => "ELSE"
  | kwEnd => "END"
  | kwFile => "FILE"
  | kwFor => "FOR"
  | kwFunction => "FUNCTION"
  | kwIf => "IF"
  | kwIn => "IN"
  | kwMod => "MOD"
  | kwNil => "NIL"
  | kwNot => "NOT"
  | kwOf => "OF"
  | kwOr => "OR"
  | kwPacked => "PACKED"
  | kwProcedure => "PROCEDURE"
  | kwProgram => "PROGRAM"
  | kwRepeat => "REPEAT"
  | kwSet => "SET"
  | kwThen => "THEN"
  | kwTo => "TO"
  | kwDownto => "DOWNTO"
  | kwUntil => "UNTIL"
  | kwVar => "VAR"
  | kwWhile => "WHILE"
  | kwWith => "WITH"
  | kwWhen => "WHEN"
  | kwLessThan0 => "LESSTHAN0"
  | kwEqual0 => "EQUAL0"
  | kwGreaterThan0 => "GREATERTHAN0"
  | kwLoop => "LOOP"
  | plus => "PLUS"
  | minus => "MINUS"
  | star => "STAR"
  | slash => "SLASH"
  | assign => "COLON_EQUALS"
  | dot => "DOT"
  | comma => "COMMA"
  | semicolon => "SEMICOLON"
  | colon => "COLON"
  | quote => "QUOTE"
  | equals => "EQUALS"
  | notEquals => "NOT_EQUALS"
  | lessThan => "LESS_THAN"
  | lessEquals => "LESS_EQUALS"
  | greaterEquals => "GREATER_EQUALS"
  | greaterThan => "GREATER_THAN"
  | leftParen => "LEFT_PAREN"
  | rightParen => "RIGHT_PAREN"
  | leftBracket => "LEFT_BRACKET"
  | rightBracket => "RIGHT_BRACKET"
  | leftBrace => "LEFT_BRACE"
  | rightBrace => "RIGHT_BRACE"
  | upArrow => "UP_ARROW"
  | identifier => "IDENTIFIER"
  | integer => "INTEGER"
  | real => "REAL"
  | string => "STRING"
  | comment => "COMMENT"
  | error => "ERROR"
  | endOfFile => "END_OF_FILE"

/-- The one text of a reserved word, in small letters, or of a special symbol. -/
def spelling : TokenKind → Option String
  | kwAnd => some "and"
  | kwArray => some "array"
  | kwBegin => some "begin"
  | kwCase => some "case"
  | kwDiv => some "div"
  | kwDo => some "do"
  | kwElse => some "else"
  | kwEnd => some "end"
  | kwFile => some "file"
  | kwFor => some "for"
  | kwFunction => some "function"
  | kwIf => some "if"
  | kwIn => some "in"
  | kwMod => some "mod"
  | kwNil => some "nil"
  | kwNot => some "not"
  | kwOf => some "of"
  | kwOr => some "or"
  | kwPacked => some "packed"
  | kwProcedure => some "procedure"
  | kwProgram => some "program"
  | kwRepeat => some "repeat"
  | kwSet => some "set"
  | kwThen => some "then"
  | kwTo => some "to"
  | kwDownto => some "downto"
  | kwUntil => some "until"
  | kwVar => some "var"
  | kwWhile => some "while"
  | kwWith => some "with"
  | kwWhen => some "when"
  | kwLessThan0 => some "lessthan0"
  | kwEqual0 => some "equal0"
  | kwGreaterThan0 => some "greaterthan0"
  | kwLoop => some "loop"
  | plus => some "+"
  | minus => some "-"
  | star => some "*"
  | slash => some "/"
  | assign => some ":="
  | dot => some "."
  | comma => some ","
  | semicolon => some ";"
  | colon => some ":"
  | quote => some "'"
  | equals => some "="
  | notEquals => some "<>"
  | lessThan => some "<"
  | lessEquals => some "<="
  | greaterEquals => some ">="
  | greaterThan => some ">"
  | leftParen => some "("
  | rightParen => some ")"
  | leftBracket => some "["
  | rightBracket => some "]"
  | leftBrace => some "\x7b"
  | rightBrace => some "\x7d"
  | upArrow => some "^"
  | _ => none

/-- The reserved words, by kind. -/
def reservedWords : List TokenKind := all.filter isReservedWord

/-- The special symbols, by kind. -/
def specialSymbols : List TokenKind := all.filter isSpecialSymbol

/-- The reserved word that is spelled exactly so. -/
def spelledWord? (text : String) : Option TokenKind :=
  reservedWords.find? (fun k => k.spelling == some text)

/-- The special symbol that is spelled exactly so. -/
def specialSymbol? (text : String) : Option TokenKind :=
  specialSymbols.find? (fun k => k.spelling == some text)

/-- The reserved word of a text in any letter case. -/
def reservedWord? (text : String) : Option TokenKind := spelledWord? (caseFold text)

end TokenKind

/-! ## Values and tokens -/

/-- What a token says beyond its kind. -/
inductive TokenValue where
  | integer (n : Int)
  | real (x : Binary64)
  /-- The contents of a string, or the text of a comment. -/
  | text (s : String)
  /-- Why there is no token of another kind here. -/
  | fault (cause : Cause)
  deriving DecidableEq, Inhabited

/-- A token with its place. The text is the source text, but a comment stands there without its
braces and with every blank as one space. -/
structure Token where
  kind : TokenKind
  text : String
  value : Option TokenValue
  span : Span
  position : Position
  deriving DecidableEq, Inhabited

namespace Token

def isEnd (t : Token) : Bool := t.kind == .endOfFile

/-- The token after the last character of a text. -/
def endAt (m : Mark) : Token :=
  ⟨.endOfFile, "", none, .between m.offset m.offset, m.position⟩

end Token

end PascalFront
