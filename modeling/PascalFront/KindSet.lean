-- Sets of token kinds, one bit of a word for each kind. The word has more bits
-- than there are kinds; no operation ever sets one of the others, so counting
-- bits counts kinds and equal sets are equal words.
import PascalFront.Token

namespace PascalFront

structure KindSet where
  bits : BitVec 128
  deriving DecidableEq, Inhabited

namespace KindSet

/-- The word with the bit of one kind. -/
def bit (k : TokenKind) : BitVec 128 := 1#128 <<< k.index

def empty : KindSet := ⟨0#128⟩

/-- This set and one kind more. -/
def insert (s : KindSet) (k : TokenKind) : KindSet := ⟨s.bits ||| bit k⟩

/-- This set without one kind. -/
def erase (s : KindSet) (k : TokenKind) : KindSet := ⟨s.bits &&& ~~~(bit k)⟩

/-- The set of the kinds in a list. -/
def ofList (ks : List TokenKind) : KindSet := ks.foldl insert empty

def union (s t : KindSet) : KindSet := ⟨s.bits ||| t.bits⟩

def contains (s : KindSet) (k : TokenKind) : Bool := s.bits &&& bit k != 0#128

/-- Whether every kind of `t` is in `s`. -/
def includes (s t : KindSet) : Bool := s.bits &&& t.bits == t.bits

def isEmpty (s : KindSet) : Bool := s.bits == 0#128

/-- How many bits are set. -/
def size (s : KindSet) : Nat := s.bits.cpop.toNat

/-- The kinds of a set, in the order of the declaration. -/
def toList (s : KindSet) : List TokenKind := TokenKind.all.filter s.contains

instance : Membership TokenKind KindSet := ⟨fun s k => s.contains k = true⟩

instance (k : TokenKind) (s : KindSet) : Decidable (k ∈ s) :=
  inferInstanceAs (Decidable (s.contains k = true))

/-- A set in words, each name in quotes. -/
def describe (s : KindSet) : String :=
  "\x7b" ++ ", ".intercalate (s.toList.map fun k => "\"" ++ k.name ++ "\"") ++ "\x7d"

end KindSet

end PascalFront
