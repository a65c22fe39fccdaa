-- The command line: two commands with a file each, and options for them. The
-- arguments are read from left to right; the first thing that is wrong ends the
-- reading, and so does the question for the version.

namespace PascalFront

/-- The form that a tree is printed in. -/
inductive TreeFormat where
  | listing
  | json
  deriving DecidableEq, Inhabited

inductive Command where
  /-- Prints the tree of a file. -/
  | parse (file : String) (format : TreeFormat) (maxErrors : Nat)
  /-- Prints the tokens of a file. -/
  | tokens (file : String)
  deriving DecidableEq

/-- The file that a command is about. -/
def Command.file : Command → String
  | parse file _ _ => file
  | tokens file => file

/-- The options that stand with every command. -/
structure Switches where
  verbose : Bool := false
  quiet : Bool := false
  deriving DecidableEq

namespace Switches

/-- What is known of a flag that may be set once. -/
def setOnce (known : Bool) : Option Bool := if known then none else some true

/-- Sets a switch by its letter, unless it is set already. -/
def setLetter? (s : Switches) : Char → Option Switches
  | 'v' => (setOnce s.verbose).map fun verbose => { s with verbose }
  | 'q' => (setOnce s.quiet).map fun quiet => { s with quiet }
  | _ => none

/-- Sets a switch by its name, unless it is set already. -/
def setName? (s : Switches) : String → Option Switches
  | "verbose" => setLetter? s 'v'
  | "quiet" => setLetter? s 'q'
  | _ => none

/-- The switches that are set in one place or the other. -/
def either (s t : Switches) : Switches :=
  ⟨s.verbose || t.verbose, s.quiet || t.quiet⟩

end Switches

inductive Request where
  | version
  | run (switches : Switches) (command : Command)
  deriving DecidableEq

namespace CommandLine

/-! ## Words -/

/-- How an argument reads. -/
inductive Word where
  /-- An argument that is no option. -/
  | plain (text : String)
  /-- A long option, with the value behind its equals sign. -/
  | long (name : String) (value : Option String)
  /-- Short options behind one hyphen. -/
  | short (letters : List Char)
  /-- Two hyphens, behind which there are no options. -/
  | separator
  deriving DecidableEq

def Word.of (argument : String) : Word :=
  match argument.toList with
  | ['-', '-'] => .separator
  | '-' :: '-' :: body =>
    let name := String.ofList (body.takeWhile (· != '='))
    match body.dropWhile (· != '=') with
    | [] => .long name none
    | _ :: value => .long name (some (String.ofList value))
  | '-' :: c :: letters => .short (c :: letters)
  | _ => .plain argument

/-- A number as options write it: digits with a plus sign or without. -/
def number? (text : String) : Option Nat :=
  let digits := match text.toList with
    | '+' :: rest => rest
    | cs => cs
  if digits.isEmpty || !digits.all Char.isDigit then none
  else
    let n := digits.foldl (fun n c => 10 * n + (c.toNat - '0'.toNat)) 0
    if n < 0x10000000000000000 then some n else none

def format? : String → Option TreeFormat
  | "xml" => some .listing
  | "json" => some .json
  | _ => none

/-! ## Behind the command -/

/-- What is read behind the name of a command. -/
structure Found where
  switches : Switches := {}
  file : Option String := none
  format : Option TreeFormat := none
  maxErrors : Option Nat := none

/-- Takes the file, unless there is one already. -/
def Found.takeFile? (f : Found) (file : String) : Option Found :=
  match f.file with
  | none => some { f with file := some file }
  | some _ => none

/-- Takes the value of an option that has one, unless it has been given already. -/
def Found.takeOption? (f : Found) (name value : String) : Option Found :=
  match name, f.format, f.maxErrors with
  | "format", none, _ => (format? value).map fun format => { f with format := some format }
  | "max-errors", _, none => (number? value).map fun n => { f with maxErrors := some n }
  | _, _, _ => none

/-- Whether the option has a value. -/
def hasValue (name : String) : Bool := name == "format" || name == "max-errors"

/-- Reads the arguments behind the name of a command. `tree` says whether it is the one with the
options for trees, and `waiting` names the option whose value comes next. -/
def readFound (tree : Bool) (f : Found) (waiting : Option String) : List String → Option Found
  | [] => if waiting.isNone then some f else none
  | argument :: rest =>
    match waiting, Word.of argument with
    | some name, .plain value => do readFound tree (← f.takeOption? name value) none rest
    | some _, _ => none
    | none, .plain file => do readFound tree (← f.takeFile? file) none rest
    | none, .separator => rest.foldlM Found.takeFile? f
    | none, .short letters => do
      let switches ← letters.foldlM Switches.setLetter? f.switches
      readFound tree { f with switches } none rest
    | none, .long name value =>
      if tree && hasValue name then
        match value with
        | some value => do readFound tree (← f.takeOption? name value) none rest
        | none => readFound tree f (some name) rest
      else if value.isSome then none
      else do readFound tree { f with switches := ← f.switches.setName? name } none rest

/-- The command with a name and the arguments behind it. -/
def command? (name : String) (arguments : List String) : Option (Switches × Command) :=
  match name with
  | "parse" => do
    let f ← readFound true {} none arguments
    return (f.switches, .parse (← f.file) (f.format.getD .listing) (f.maxErrors.getD 25))
  | "tokens" => do
    let f ← readFound false {} none arguments
    return (f.switches, .tokens (← f.file))
  | _ => none

/-! ## The whole line -/

/-- What short options in front of the command come to: the question for the version, or the
switches behind them. -/
def readLetters (s : Switches) : List Char → Option (Option Switches)
  | [] => some (some s)
  | 'V' :: _ => some none
  | c :: rest => do readLetters (← s.setLetter? c) rest

/-- Reads a command line with some switches known; `none` when it cannot be understood. -/
def readFrom (s : Switches) : List String → Option Request
  | [] => none
  | argument :: rest =>
    match Word.of argument with
    | .separator => none
    | .plain name => (command? name rest).map fun (t, c) => .run (s.either t) c
    | .short letters =>
      match readLetters s letters with
      | some (some s) => readFrom s rest
      | some none => some .version
      | none => none
    | .long "version" none => some .version
    | .long name none => do readFrom (← s.setName? name) rest
    | .long _ (some _) => none

/-- Reads a command line. -/
def read? (arguments : List String) : Option Request := readFrom {} arguments

end CommandLine

end PascalFront
