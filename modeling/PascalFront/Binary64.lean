-- Real constants: double-precision numbers in the layout of IEEE 754, kept as
-- their 64 bits. The front end only carries them from the source text to the
-- tree, so there is no arithmetic here: decoding the fields, the comparison of
-- trees, and rounding a decimal number to the nearest double.

namespace PascalFront

structure Binary64 where
  bits : UInt64
  deriving DecidableEq, Inhabited

namespace Binary64

/-! ## The fields -/

/-- The weight of the sign among the bits. -/
def signWeight : Nat := 0x8000000000000000

/-- The weight of the least bit of the exponent, which is also what the significand of a number
has in front of its fraction. -/
def exponentWeight : Nat := 0x10000000000000

def isNegative (x : Binary64) : Bool := x.bits.toNat / signWeight == 1

def exponentField (x : Binary64) : Nat := x.bits.toNat / exponentWeight % 2048

def fractionField (x : Binary64) : Nat := x.bits.toNat % exponentWeight

def isFinite (x : Binary64) : Bool := x.exponentField < 2047

def isNaN (x : Binary64) : Bool := !x.isFinite && x.fractionField != 0

/-- A finite number is `significand * 2 ^ power`, apart from its sign. -/
def significand (x : Binary64) : Nat :=
  if x.exponentField = 0 then x.fractionField else exponentWeight + x.fractionField

def power (x : Binary64) : Int :=
  if x.exponentField = 0 then -1074 else (x.exponentField : Int) - 1075

/-- Comparison as numbers: a NaN equals nothing, and the two zeros are equal. -/
def sameNumber (x y : Binary64) : Bool :=
  !x.isNaN && !y.isNaN && (x == y || (x.bits ||| y.bits) &&& 0x7fffffffffffffff == 0)

/-! ## Building a double -/

/-- The magnitude bits of infinity, larger than those of any number. -/
def infinityBits : Nat := 2047 * exponentWeight

def ofMagnitude (negative : Bool) (magnitude : Nat) : Binary64 :=
  ⟨UInt64.ofNat ((if negative then signWeight else 0) + magnitude)⟩

def zero : Binary64 := ofMagnitude false 0

def infinity (negative : Bool) : Binary64 := ofMagnitude negative infinityBits

def nan : Binary64 := ofMagnitude false (infinityBits + exponentWeight / 2)

end Binary64

/-! ## Decimal numbers -/

/-- The number `digits * 10 ^ exponent`. -/
structure Decimal where
  digits : Nat
  exponent : Int
  deriving DecidableEq, Inhabited

/-- How many digits a number has in base ten. -/
def digitCount (n : Nat) : Nat := (Nat.toDigits 10 n).length

namespace Binary64

/-! ## Rounding a decimal to the nearest double -/

/-- The whole number nearest to `num / den`; of two equally near, the even one. -/
def nearestWhole (num den : Nat) : Nat :=
  let whole := num / den
  let rest := num % den
  if 2 * rest < den then whole
  else if 2 * rest > den then whole + 1
  else whole + whole % 2

/-- `num / den` in units of `2 ^ q`, as a fraction again. -/
def inUnits (num den : Nat) (q : Int) : Nat × Nat :=
  if q < 0 then (num * Nat.pow 2 (-q).toNat, den) else (num, den * Nat.pow 2 q.toNat)

/-- The power of two that gives `num / den` a significand of 53 bits, or the least power that
there is when the number is too small for that. -/
def unitOf (num den : Nat) : Int :=
  let q := max ((num.log2 : Int) - den.log2 - 53) (-1074)
  let (n, d) := inUnits num den q
  if n / d < 2 * exponentWeight then q else q + 1

/-- The magnitude bits of the double nearest to `num / den`. A significand that rounds up to
54 bits carries into the exponent field by itself, and past the largest number lies infinity. -/
def magnitudeOf (num den : Nat) : Nat :=
  let q := unitOf num den
  let (n, d) := inUnits num den q
  min ((q + 1074).toNat * exponentWeight + nearestWhole n d) infinityBits

/-- The double nearest to a decimal number. Numbers of more than 310 digits before the point
are infinite and those with 325 zeros after it are zero, so the powers of ten stay small. -/
def nearest (negative : Bool) (d : Decimal) : Binary64 :=
  let top := d.exponent + digitCount d.digits
  if d.digits = 0 ∨ top < -325 then ofMagnitude negative 0
  else if top > 310 then infinity negative
  else if d.exponent < 0 then
    ofMagnitude negative (magnitudeOf d.digits (Nat.pow 10 (-d.exponent).toNat))
  else ofMagnitude negative (magnitudeOf (d.digits * Nat.pow 10 d.exponent.toNat) 1)

end Binary64

end PascalFront
