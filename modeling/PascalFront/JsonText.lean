-- JSON values and their two written forms, the compact one and the one with a
-- line for each member. Members keep their order.

namespace PascalFront

inductive JsonValue where
  | integer (n : Int)
  /-- A number in the spelling that it is written with. -/
  | spelled (text : String)
  | string (s : String)
  | array (items : List JsonValue)
  | object (members : List (String × JsonValue))
  deriving Inhabited

namespace JsonValue

/-! ## Strings -/

/-- A hexadecimal digit in small letters. -/
def hexDigit (n : Nat) : Char := Nat.digitChar n

/-- A character inside quotes. Control characters have short escapes or four hexadecimal digits;
everything past them but the quote and the backslash stands for itself. -/
def escape (c : Char) : List Char :=
  if c = '"' then ['\\', '"']
  else if c = '\\' then ['\\', '\\']
  else if c = '\x08' then ['\\', 'b']
  else if c = '\x0c' then ['\\', 'f']
  else if c = '\n' then ['\\', 'n']
  else if c = '\r' then ['\\', 'r']
  else if c = '\t' then ['\\', 't']
  else if c.toNat < 32 then
    ['\\', 'u', '0', '0', hexDigit (c.toNat / 16), hexDigit (c.toNat % 16)]
  else [c]

def quoted (s : String) : List Char := '"' :: (s.toList.flatMap escape ++ ['"'])

/-! ## Values -/

/-- What stands around the parts of arrays and objects. -/
structure Style where
  /-- In front of a part or a closing bracket at a depth. -/
  gap : Nat → List Char
  /-- Between a key and its value. -/
  colon : List Char

/-- No blanks at all. -/
def Style.compact : Style := ⟨fun _ => [], [':']⟩

/-- A line for each part, indented by two blanks for each level. -/
def Style.lines : Style := ⟨fun depth => '\n' :: List.replicate (2 * depth) ' ', [':', ' ']⟩

mutual
/-- A value at a depth, with `rest` behind it. -/
def write (style : Style) (depth : Nat) : JsonValue → List Char → List Char
  | integer n, rest => (toString n).toList ++ rest
  | spelled text, rest => text.toList ++ rest
  | string s, rest => quoted s ++ rest
  | array [], rest => '[' :: ']' :: rest
  | array (v :: more), rest =>
    '[' :: (style.gap (depth + 1) ++ write style (depth + 1) v
      (writeItems style (depth + 1) more (style.gap depth ++ ']' :: rest)))
  | object [], rest => '\x7b' :: '\x7d' :: rest
  | object ((key, v) :: more), rest =>
    '\x7b' :: (style.gap (depth + 1) ++ (quoted key ++ (style.colon ++ write style (depth + 1) v
      (writeMembers style (depth + 1) more (style.gap depth ++ '\x7d' :: rest)))))

/-- The items behind the first one. -/
def writeItems (style : Style) (depth : Nat) : List JsonValue → List Char → List Char
  | [], rest => rest
  | v :: more, rest =>
    ',' :: (style.gap depth ++ write style depth v (writeItems style depth more rest))

/-- The members behind the first one. -/
def writeMembers (style : Style) (depth : Nat) :
    List (String × JsonValue) → List Char → List Char
  | [], rest => rest
  | (key, v) :: more, rest =>
    ',' :: (style.gap depth ++ (quoted key ++ (style.colon ++
      write style depth v (writeMembers style depth more rest))))
end

/-- A value without any blanks. -/
def compact (v : JsonValue) : String := String.ofList (write .compact 0 v [])

/-- A value with a line for each item and each member. -/
def pretty (v : JsonValue) : String := String.ofList (write .lines 0 v [])

end JsonValue

end PascalFront
