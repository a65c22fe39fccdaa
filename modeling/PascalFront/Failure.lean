-- Failures: what ends a parse before there is a tree. Every other fault is a
-- diagnostic, and the parse goes on.
import PascalFront.Cause

namespace PascalFront

/-- Why the text of a file cannot be had. -/
inductive ReadError where
  | notFound
  | notDirectory
  | isDirectory
  | notText
  /-- Any other reason, in the words of the system. -/
  | other (words : String)
  deriving DecidableEq, Inhabited

def ReadError.message : ReadError → String
  | notFound => "No such file or directory (os error 2)"
  | notDirectory => "Not a directory (os error 20)"
  | isDirectory => "Is a directory (os error 21)"
  | notText => "stream did not contain valid UTF-8"
  | other words => words

inductive Failure where
  /-- The text ended where an expression or a name was due. -/
  | unexpectedEnd (line : Nat)
  /-- More syntax errors than the settings allow. -/
  | tooManyErrors (count : Nat)
  | unreadable (path : String) (reason : ReadError)
  deriving DecidableEq, Inhabited

namespace Failure

def cause : Failure → Cause
  | unexpectedEnd _ => .unexpectedEnd
  | tooManyErrors _ => .tooManyErrors
  | unreadable _ _ => .unreadable

def message : Failure → String
  | unexpectedEnd line => s!"unexpected end of file at line {line}"
  | tooManyErrors count => s!"too many syntax errors ({count}), parsing stopped"
  | unreadable path reason => "cannot read '" ++ path ++ "': " ++ reason.message

end Failure

end PascalFront
