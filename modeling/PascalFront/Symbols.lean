-- The symbol table: every name of a program with the lines that mention it. A
-- name gets its number when it is entered first and keeps it, so the numbers
-- are the places in the list of entries.

namespace PascalFront

/-- The number of a name in a symbol table. -/
structure SymbolId where
  number : Nat
  deriving DecidableEq, Inhabited

def SymbolId.describe (id : SymbolId) : String := s!"SymbolId({id.number})"

/-- A name and the lines that mention it, in the order of the mentions. -/
structure SymbolEntry where
  name : String
  lines : List Nat := []
  deriving DecidableEq, Inhabited

structure SymbolTable where
  entries : List SymbolEntry := []
  deriving DecidableEq, Inhabited

namespace SymbolTable

/-! ## Questions -/

def size (t : SymbolTable) : Nat := t.entries.length

/-- The number of a name, if it was entered. -/
def find? (t : SymbolTable) (name : String) : Option SymbolId :=
  (t.entries.findIdx? (·.name == name)).map SymbolId.mk

def entry? (t : SymbolTable) (id : SymbolId) : Option SymbolEntry := t.entries[id.number]?

/-- The name with a number, and the empty text for a number that is not in use. -/
def nameOf (t : SymbolTable) (id : SymbolId) : String :=
  ((t.entry? id).map SymbolEntry.name).getD ""

/-- The entries with their numbers, in the order of the numbers. -/
def numbered (t : SymbolTable) : List (SymbolId × SymbolEntry) :=
  t.entries.zipIdx.map fun (e, n) => (⟨n⟩, e)

/-- The entries with their numbers, in the order of the code points of the names. -/
def sorted (t : SymbolTable) : List (SymbolId × SymbolEntry) :=
  t.numbered.mergeSort fun a b => decide (a.2.name ≤ b.2.name)

/-! ## Changes -/

/-- Enters a name, unless it is there already. -/
def enter (t : SymbolTable) (name : String) : SymbolId × SymbolTable :=
  match t.find? name with
  | some id => (id, t)
  | none => (⟨t.size⟩, ⟨t.entries ++ [{ name }]⟩)

/-- One line more, unless it is the last line already. -/
def SymbolEntry.mention (e : SymbolEntry) (line : Nat) : SymbolEntry :=
  if e.lines.getLast? = some line then e else { e with lines := e.lines ++ [line] }

/-- Notes that a line mentions a name. -/
def mention (t : SymbolTable) (id : SymbolId) (line : Nat) : SymbolTable :=
  ⟨t.entries.modify id.number (SymbolEntry.mention · line)⟩

/-- Enters a name and notes the line that mentions it. -/
def enterAt (t : SymbolTable) (name : String) (line : Nat) : SymbolId × SymbolTable :=
  let (id, t) := t.enter name
  (id, t.mention id line)

end SymbolTable

end PascalFront
