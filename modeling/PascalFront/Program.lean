-- Whole programs, from text to tree: what a parse gives, and the two ways to
-- start one.
import PascalFront.Statement
import PascalFront.Tokens

namespace PascalFront

/-! ## Programs -/

/-- A program: statements between BEGIN and END with a period, or else statements up to the end of
the text under one node. -/
def Parser.program (settings : Settings) : Parser Node := do
  if (← kind) = .kwBegin then
    let root ← compound settings (statement settings)
    expect .dot .missingPeriod
    if (← kind) ≠ .endOfFile then flag .unexpectedToken
    return root
  else
    let line ← line
    let nodes ← statementList settings (statement settings) .endOfFile .unexpectedEnd
    return .statement .compound line nodes

/-- One statement, a semicolon if there is one, and the end of the text. -/
def Parser.loneStatement (settings : Settings) : Parser Node := do
  let node ← statement settings
  let _ ← accept .semicolon
  if (← kind) ≠ .endOfFile then flag .unexpectedToken
  return node

/-! ## Runs -/

/-- What a run of a parser gives, whether or not there is a tree. -/
structure Outcome where
  tree : Except Failure Node
  /-- The faults of the text first, then the syntax errors. -/
  diagnostics : List Diagnostic
  symbols : SymbolTable

/-- Whether the text is a program without any fault. -/
def Outcome.isClean (o : Outcome) : Bool := o.tree.isOk && o.diagnostics.isEmpty

/-- The tree or the failure of a run, and the state behind it. -/
def Parser.runFrom (p : Parser α) (s : ParserState) : Except Failure α × ParserState :=
  match p s with
  | .ok a s => (.ok a, s)
  | .error e s => (.error e, s)

/-- Runs a parser on a text with a symbol table of its own. -/
def Parser.runOn (p : Parser Node) (source : String) : Outcome :=
  let ts := tokensOf source
  let (tree, s) := p.runFrom (.start ts {})
  ⟨tree, lexicalDiagnostics ts ++ s.diagnostics.toList, s.symbols⟩

/-- The program that a text holds. -/
def parseProgram (settings : Settings) (source : String) : Outcome :=
  (Parser.program settings).runOn source

/-- The one statement that a text holds, under the usual settings. -/
def parseStatement (source : String) : Outcome := (Parser.loneStatement {}).runOn source

end PascalFront
