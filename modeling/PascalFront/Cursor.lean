-- A cursor in a row of tokens: those that are passed, those ahead, and the
-- token for the end, which closes the row and is never passed. A token for the
-- end may also stand in the middle of the row; the cursor stops there.
import PascalFront.Token

namespace PascalFront

structure Cursor where
  /-- The tokens behind the cursor, nearest first. -/
  passed : List Token
  /-- The tokens from the cursor on, without the last one of the row. -/
  ahead : List Token
  /-- The last token of the row. -/
  stop : Token
  stop_isEnd : stop.isEnd = true

namespace Cursor

/-! ## Reading -/

/-- The token at the cursor. -/
def here (c : Cursor) : Token := c.ahead.headD c.stop

/-- The token behind that one, or the last one again. -/
def second (c : Cursor) : Token := (c.ahead.drop 1).headD c.stop

def atEnd (c : Cursor) : Bool := c.here.isEnd

/-- How many tokens are passed. -/
def position (c : Cursor) : Nat := c.passed.length

/-- The whole row of tokens. -/
def tokens (c : Cursor) : List Token := c.passed.reverse ++ c.ahead ++ [c.stop]

/-! ## Moving -/

/-- One token further, but not past a token for the end. -/
def advance (c : Cursor) : Cursor :=
  match c.ahead with
  | [] => c
  | t :: rest => if t.isEnd then c else { c with passed := t :: c.passed, ahead := rest }

/-- Passes tokens until `p` holds of the token at the cursor, or the end is there. -/
def skipUntil (p : TokenKind → Bool) (c : Cursor) : Cursor :=
  let (skipped, rest) := c.ahead.span fun t => !p t.kind && !t.isEnd
  { c with passed := skipped.reverse ++ c.passed, ahead := rest }

/-! ## Starting -/

/-- Whether a token counts for the grammar. Comments never do, and what is wrong with the text of
an error token is reported with the text. -/
def isGrammatical (t : Token) : Bool := t.kind != .comment && t.kind != .error

/-- The token that closes a row with the last token `t`. -/
def closing (t : Token) : Token :=
  ⟨.endOfFile, "", none, .between t.span.stop t.span.stop,
    ⟨t.position.line, t.position.column + 1⟩⟩

/-- The cursor in front of the grammatical tokens of a row. A row without a token for the end as
its last one gets one. -/
def ofTokens (ts : List Token) : Cursor :=
  let row := ts.filter isGrammatical
  match row.getLast? with
  | none => ⟨[], [], .endAt .start, rfl⟩
  | some last =>
    if h : last.isEnd = true then ⟨[], row.dropLast, last, h⟩ else ⟨[], row, closing last, rfl⟩

end Cursor

end PascalFront
