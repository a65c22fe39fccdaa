-- Diagnostics: what is wrong, where, and what to do about it. The front end
-- gives every diagnostic of its own one label, on the span of the diagnostic.
import PascalFront.Token

namespace PascalFront

/-- The stage that found the fault. -/
inductive Stage where
  | lexer
  | parser
  | driver
  deriving DecidableEq, Inhabited

/-- A remark on a span. -/
structure Label where
  span : Span
  text : String
  deriving DecidableEq, Inhabited

structure Diagnostic where
  stage : Stage
  cause : Option Cause := none
  message : String
  span : Span
  position : Option Position := none
  labels : List Label := []
  help : Option String := none
  deriving DecidableEq, Inhabited

namespace Diagnostic

/-- The diagnostic of a cause: its description as the message, its suggestion as the help. -/
def ofCause (stage : Stage) (span : Span) (cause : Cause) : Diagnostic :=
  { stage, cause := some cause, message := cause.description, span, help := cause.suggestion }

/-- One label more. -/
def label (d : Diagnostic) (span : Span) (text : String) : Diagnostic :=
  { d with labels := d.labels ++ [⟨span, text⟩] }

/-- The fault that a token of kind `error` stands for. -/
def ofErrorToken? (t : Token) : Option Diagnostic :=
  match t.kind, t.value with
  | .error, some (.fault cause) =>
    some { (ofCause .lexer t.span cause).label t.span cause.description with
      position := some t.position }
  | _, _ => none

/-- A syntax error at a token. -/
def atToken (t : Token) (cause : Cause) : Diagnostic :=
  let remark := if t.isEnd then "end of file reached here" else "found `" ++ t.text ++ "`"
  { (ofCause .parser t.span cause).label t.span remark with position := some t.position }

end Diagnostic

end PascalFront
