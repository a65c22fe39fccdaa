-- Places in a source text. A span counts bytes of its UTF-8 form, a position
-- counts lines and characters from 1, and a mark carries both along while the
-- text is read.

namespace PascalFront

/-! ## Byte offsets -/

/-- Offsets are stored in 32 bits. -/
def storedOffset (n : Nat) : Nat := n % 0x100000000

/-- The bytes from `start` up to but not including `stop`. -/
structure Span where
  start : Nat
  stop : Nat
  deriving DecidableEq, Inhabited

/-- The span between two offsets, as it is stored. -/
def Span.between (start stop : Nat) : Span := ⟨storedOffset start, storedOffset stop⟩

/-- The span of nothing at the very start. -/
def Span.origin : Span := ⟨0, 0⟩

/-- A span in words: `5..15`. -/
def Span.describe (s : Span) : String := s!"{s.start}..{s.stop}"

/-! ## Lines and columns -/

structure Position where
  line : Nat
  column : Nat
  deriving DecidableEq, Inhabited

/-- The place of the first character. -/
def Position.first : Position := ⟨1, 1⟩

/-- Positions are ordered by line, then by column. -/
def Position.compare (p q : Position) : Ordering :=
  (Ord.compare p.line q.line).then (Ord.compare p.column q.column)

/-- A position as reports print it: `12:4`. -/
def Position.describe (p : Position) : String := s!"{p.line}:{p.column}"

/-- The place of the character after `c`. A line ends at a line feed and nowhere else. -/
def Position.after (p : Position) (c : Char) : Position :=
  if c = '\n' then ⟨p.line + 1, 1⟩ else ⟨p.line, p.column + 1⟩

/-! ## Marks -/

/-- How far a text has been read. -/
structure Mark where
  offset : Nat
  position : Position
  deriving DecidableEq, Inhabited

def Mark.start : Mark := ⟨0, .first⟩

/-- The mark behind one more character. -/
def Mark.step (m : Mark) (c : Char) : Mark := ⟨m.offset + c.utf8Size, m.position.after c⟩

/-- The mark behind some more characters. -/
def Mark.after (m : Mark) (cs : List Char) : Mark := cs.foldl Mark.step m

end PascalFront
