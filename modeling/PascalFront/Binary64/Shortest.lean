-- The shortest decimal that reads back as a given double. Every double is a
-- decimal number exactly, so the candidates with fewer digits are its two
-- neighbours on the grids of 1, 2, 3, … digits, and the first grid with a
-- neighbour that reads back wins.
import PascalFront.Binary64

namespace PascalFront

/-- Which of two equally near neighbours is taken. -/
inductive Tie where
  | up
  | even
  deriving DecidableEq

namespace Binary64

/-- The decimal number that a finite double is, apart from its sign. -/
def exact (x : Binary64) : Decimal :=
  if x.power < 0 then ⟨x.significand * Nat.pow 5 (-x.power).toNat, x.power⟩
  else ⟨x.significand * Nat.pow 2 x.power.toNat, 0⟩

/-- Whether a decimal reads back as `x`. -/
def readsBack (x : Binary64) (d : Decimal) : Bool := nearest x.isNegative d == x

/-- The neighbour of `x` with `dropped` digits less than the exact decimal, if one reads back:
of two the nearer, and of two equally near the one that `tie` says. -/
def neighbour? (tie : Tie) (x : Binary64) (dropped : Nat) : Option Decimal :=
  let unit := Nat.pow 10 dropped
  let below := x.exact.digits / unit
  let rest := x.exact.digits % unit
  let lower : Decimal := ⟨below, x.exact.exponent + dropped⟩
  let upper : Decimal := ⟨below + 1, x.exact.exponent + dropped⟩
  match x.readsBack lower, x.readsBack upper with
  | false, false => none
  | true, false => some lower
  | false, true => some upper
  | true, true =>
    if 2 * rest < unit then some lower
    else if 2 * rest > unit then some upper
    else match tie with
      | .up => some upper
      | .even => some (if below % 2 = 0 then lower else upper)

/-- The first neighbour that reads back when at most `dropped` digits are left out. -/
def shortestFrom (tie : Tie) (x : Binary64) : Nat → Decimal
  | 0 => x.exact
  | dropped + 1 => (x.neighbour? tie (dropped + 1)).getD (shortestFrom tie x dropped)

/-- The shortest decimal that reads back as `x`, apart from its sign. -/
def shortest (tie : Tie) (x : Binary64) : Decimal :=
  shortestFrom tie x (digitCount x.exact.digits - 1)

end Binary64

end PascalFront
