-- The listing of a tree: one element for each node, indented by its depth, with
-- the attributes in quotes. The four characters that could be taken for markup
-- are written as entities, so a listing has one tree.
import PascalFront.Tree
import PascalFront.Binary64.Text

namespace PascalFront

/-- A constant as listings show it. -/
def Value.listingText : Value → String
  | integer n => toString n
  | real x => x.listingText
  | string s => s

namespace Listing

/-! ## Attributes -/

/-- A character inside quotes. -/
def escape (c : Char) : List Char :=
  if c = '"' then "&quot;".toList
  else if c = '<' then "&lt;".toList
  else if c = '>' then "&gt;".toList
  else if c = '&' then "&amp;".toList
  else [c]

/-- An attribute with a blank in front. -/
def written (key : String) (value : String) : List Char :=
  ' ' :: key.toList ++ '=' :: '"' :: (value.toList.flatMap escape ++ ['"'])

/-- How a listing shows the number of a name. -/
abbrev Naming := SymbolId → String

/-- Numbers as they are. -/
def byNumber : Naming := fun id => toString id.number

/-- Numbers as the names of a symbol table. -/
def byName (symbols : SymbolTable) : Naming := symbols.nameOf

/-- The attributes that are present: the line, the name, the constant. -/
def attributes (naming : Naming) (line : Option Nat) (id : Option SymbolId)
    (value : Option Value) : List Char :=
  (line.map fun l => written "line" (toString l)).getD [] ++
    (id.map fun i => written "id" (naming i)).getD [] ++
    (value.map fun v => written "value" v.listingText).getD []

/-! ## Elements -/

/-- How deep elements are indented, and how names are shown. -/
structure Style where
  width : Nat := 4
  naming : Naming := byNumber

mutual
/-- The lines of a tree at a depth, with `rest` behind them. -/
def element (style : Style) (depth : Nat) : Node → List Char → List Char
  | ⟨kind, line, id, value, []⟩, rest =>
    List.replicate (depth * style.width) ' ' ++ '<' :: (kind.name.toList ++
      (attributes style.naming line id value ++ (" />\n".toList ++ rest)))
  | ⟨kind, line, id, value, first :: more⟩, rest =>
    List.replicate (depth * style.width) ' ' ++ '<' :: (kind.name.toList ++
      (attributes style.naming line id value ++ (">\n".toList ++
        element style (depth + 1) first (elements style (depth + 1) more
          (List.replicate (depth * style.width) ' ' ++ ("</".toList ++
            (kind.name.toList ++ (">\n".toList ++ rest))))))))

/-- The lines of some trees at one depth, with `rest` behind them. -/
def elements (style : Style) (depth : Nat) : List Node → List Char → List Char
  | [], rest => rest
  | n :: more, rest => element style depth n (elements style depth more rest)
end

end Listing

/-- The listing of a tree. -/
def Node.listing (style : Listing.Style) (n : Node) : String :=
  String.ofList (Listing.element style 0 n [])

end PascalFront
