-- What the commands print. A command reads one file, and all it does comes out
-- as an exit code and the texts for the two output channels.
import PascalFront.CommandLine
import PascalFront.Directory
import PascalFront.Listing
import PascalFront.Program
import PascalFront.Report
import PascalFront.TreeJson

namespace PascalFront

/-- The end of a command. -/
structure Response where
  code : Nat := 0
  output : String := ""
  /-- Status lines and reports. -/
  messages : String := ""
  deriving DecidableEq

namespace Response

def joined (lines : List String) : String := String.join (lines.map (· ++ "\n"))

/-- A failure with one line about it, which is left out when the command is to be quiet. -/
def failed (switches : Switches) (output messages reason : String) : Response :=
  ⟨1, output, if switches.quiet then messages else messages ++ "error: " ++ reason ++ "\n"⟩

end Response

/-! ## Numbers and names in columns -/

/-- A text with `pad` in front until it has `width` characters. -/
def padLeft (pad : Char) (width : Nat) (text : String) : String :=
  String.ofList (List.replicate (width - text.length) pad) ++ text

/-- A text with blanks behind it until it has `width` characters. -/
def padRight (width : Nat) (text : String) : String :=
  text ++ String.ofList (List.replicate (width - text.length) ' ')

/-- A line number in listings. -/
def lineNumber (n : Nat) : String := padLeft '0' 3 (toString n)

/-! ## Tokens -/

/-- The value of a token as its listing shows it. -/
def TokenValue.listed : TokenValue → String
  | integer n => "value=" ++ toString n
  | real x => "value=" ++ x.listingText
  | text s => "value=\"" ++ s ++ "\""
  | fault cause => "error=" ++ cause.description

/-- The listing of a token, with its value on a line of its own. -/
def Token.listed (t : Token) : String :=
  let head := ">>> " ++ padRight 14 t.kind.name ++ " line=" ++ lineNumber t.position.line ++
    ", pos=" ++ padLeft ' ' 2 (toString t.position.column) ++ ", text=\"" ++ t.text ++ "\"\n"
  match t.value with
  | none => head
  | some v => head ++ ">>>                 " ++ v.listed ++ "\n"

/-! ## The cross-reference -/

/-- A name and the lines that mention it. -/
def SymbolEntry.listed (e : SymbolEntry) : String :=
  "    " ++ padRight 16 e.name ++ " " ++ " ".intercalate (e.lines.map lineNumber)

/-- All names in alphabetical order. -/
def SymbolTable.crossReference (t : SymbolTable) : String :=
  Response.joined ("info: cross-reference:" :: t.sorted.map fun (_, e) => e.listed)

/-! ## Commands -/

/-- The reports of some diagnostics. -/
def reports (source file : String) (ds : List Diagnostic) : String :=
  String.join (ds.map fun d =>
    match Report.render source file d with
    | .ok text => text
    | .error e => e.message ++ "\n")

/-- The file could not be read. -/
def unreadable (switches : Switches) (file : String) (reason : ReadError) : Response :=
  .failed switches "" "" ("cannot read file '" ++ file ++ "': " ++ reason.message)

/-- A tree as the command prints it. -/
def printed (format : TreeFormat) (n : Node) (symbols : SymbolTable) : String :=
  match format with
  | .listing => n.listing { naming := Listing.byName symbols }
  | .json => (jsonDocument n symbols).pretty ++ "\n"

/-- Prints the tree of a text, behind the reports of what is wrong with it. -/
def showTree (switches : Switches) (file : String) (format : TreeFormat) (maxErrors : Nat)
    (source : String) : Response :=
  let o := parseProgram { maxErrors } source
  let messages := reports source file o.diagnostics
  match o.tree with
  | .error f => .failed switches "" messages ("[" ++ f.cause.code ++ "] " ++ f.message)
  | .ok n =>
    let output := printed format n o.symbols
    let messages := messages ++ if switches.verbose then o.symbols.crossReference else ""
    let errors := o.diagnostics.length
    if errors > 0 then
      .failed switches output messages (toString errors ++ " syntax error(s) found")
    else if switches.quiet then ⟨0, output, messages⟩
    else
      let status := ["info: " ++ toString o.symbols.size ++ " name(s) in symbol table",
        "OK - No syntax errors"]
      ⟨0, output, messages ++ Response.joined status⟩

/-- Prints the tokens of a text, and the reports of what is wrong with them. -/
def showTokens (switches : Switches) (file source : String) : Response :=
  let ts := tokensOf source
  let output := String.join (ts.map Token.listed)
  let ds := lexicalDiagnostics ts
  let messages := reports source file ds
  if ds.isEmpty then ⟨0, output, messages⟩
  else .failed switches output messages (toString ds.length ++ " lexical error(s) found")

/-- What a command prints about the text of its file. -/
def Command.show (switches : Switches) (source : String) : Command → Response
  | parse file format maxErrors => showTree switches file format maxErrors source
  | tokens file => showTokens switches file source

/-- Runs a command on the files that `read` gives. -/
def Command.run (read : FileReader) (switches : Switches) (command : Command) : Response :=
  match read command.file with
  | .ok source => command.show switches source
  | .error reason => unreadable switches command.file reason

/-- What a wrong command line is answered with. -/
def usage : Response :=
  ⟨2, "", "usage: pasc [-v] [-q] parse [--format xml|json] [--max-errors N] FILE\n" ++
    "       pasc [-v] [-q] tokens FILE\n"⟩

/-- Runs a command line on the files that `read` gives. -/
def runCommandLine (read : FileReader) (arguments : List String) : Response :=
  match CommandLine.read? arguments with
  | none => usage
  | some .version => { output := "pasc 0.2.0\n" }
  | some (.run switches command) => command.run read switches

/-- The program that a file holds. -/
def parseFile (read : FileReader) (settings : Settings) (path : String) :
    Except Failure Outcome :=
  match read path with
  | .ok source => .ok (parseProgram settings source)
  | .error reason => .error (.unreadable path reason)

end PascalFront
