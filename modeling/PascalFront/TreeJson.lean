-- Trees as JSON. A node is an object with its kind first; a missing attribute
-- and a row of no children are left out.
import PascalFront.JsonText
import PascalFront.Tree
import PascalFront.Binary64.Text

namespace PascalFront

/-- A constant: integers and reals are numbers that differ in their spelling. -/
def Value.json : Value → JsonValue
  | integer n => .integer n
  | real x => .spelled x.jsonText
  | string s => .string s

/-- The members that are present. -/
def Node.jsonMembers (kind : NodeKind) (line : Option Nat) (id : Option SymbolId)
    (value : Option Value) (children : List JsonValue) : List (String × JsonValue) :=
  ("kind", .string kind.name) ::
    ((line.map fun l => ("line", JsonValue.integer l)).toList ++
      (id.map fun i => ("id", JsonValue.integer i.number)).toList ++
      (value.map fun v => ("value", v.json)).toList ++
      if children.isEmpty then [] else [("children", .array children)])

mutual
/-- A tree as a JSON value. -/
def Node.json : Node → JsonValue
  | ⟨kind, line, id, value, children⟩ =>
    .object (Node.jsonMembers kind line id value (Node.jsonAll children))

def Node.jsonAll : List Node → List JsonValue
  | [] => []
  | n :: rest => Node.json n :: Node.jsonAll rest
end

/-- The compact JSON text of a tree. -/
def Node.jsonText (n : Node) : String := n.json.compact

/-- A tree with the names that its numbers stand for. -/
def jsonDocument (n : Node) (symbols : SymbolTable) : JsonValue :=
  .object [("tree", n.json), ("symbols", .array (symbols.entries.map fun e => .string e.name))]

end PascalFront
