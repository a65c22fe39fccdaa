-- Doubles as text. One function lays out the shortest digits by a style, and
-- the two styles in use are values: listings never write an exponent, and JSON
-- always shows that a number is real by a point or an exponent.
import PascalFront.Binary64.Shortest
import PascalFront.Letters

namespace PascalFront

/-! ## Styles -/

/-- How the digits of a real number are laid out. -/
structure RealStyle where
  /-- Which of two equally near shortest decimals is written. -/
  tie : Tie
  /-- Whether a whole number keeps `.0`. -/
  pointAlways : Bool
  /-- Which decimal exponents of the first digit are written with zeros instead of an `e`. -/
  positional : Int → Bool

/-- Listings: all digits, no exponent, no needless point. -/
def RealStyle.listing : RealStyle := ⟨.up, false, fun _ => true⟩

/-- JSON: a point or an exponent always, an exponent below `0.00001` and from `1e16` on. -/
def RealStyle.json : RealStyle := ⟨.even, true, fun e => -5 ≤ e && e < 16⟩

namespace Binary64

/-! ## Layout -/

/-- The digits of a decimal without the zeros at their end. -/
def digitsOf (d : Decimal) : List Char :=
  match ((Nat.toDigits 10 d.digits).reverse.dropWhile (· == '0')).reverse with
  | [] => ['0']
  | cs => cs

/-- The decimal exponent of the first digit. -/
def firstExponent (d : Decimal) : Int :=
  if d.digits = 0 then 0 else d.exponent + digitCount d.digits - 1

/-- Digits with a point, where the first digit counts `10 ^ e`. -/
def positionalText (pointAlways : Bool) (digits : List Char) (e : Int) : List Char :=
  if e < 0 then ['0', '.'] ++ List.replicate (-e - 1).toNat '0' ++ digits
  else
    let places := e.toNat + 1
    let whole := digits.take places ++ List.replicate (places - digits.length) '0'
    match digits.drop places with
    | [] => if pointAlways then whole ++ ['.', '0'] else whole
    | fraction => whole ++ '.' :: fraction

/-- Digits with an exponent, whose sign is always written. -/
def exponentText (digits : List Char) (e : Int) : List Char :=
  let lead := match digits with
    | d :: f :: rest => d :: '.' :: f :: rest
    | short => short
  lead ++ 'e' :: (if e < 0 then '-' else '+') :: Nat.toDigits 10 e.natAbs

/-- A finite double in a style. -/
def textIn (style : RealStyle) (x : Binary64) : List Char :=
  let d := x.shortest style.tie
  let e := firstExponent d
  let body := if style.positional e then positionalText style.pointAlways (digitsOf d) e
    else exponentText (digitsOf d) e
  if x.isNegative then '-' :: body else body

/-- A double as listings show it. -/
def listingText (x : Binary64) : String :=
  if x.isNaN then "NaN"
  else if !x.isFinite then (if x.isNegative then "-inf" else "inf")
  else String.ofList (x.textIn .listing)

/-- A double as JSON shows it, which has no word for the ones that are not finite. -/
def jsonText (x : Binary64) : String :=
  if x.isFinite then String.ofList (x.textIn .json) else "null"

/-! ## Reading -/

/-- A decimal from its written parts: digits before and after the point, and the exponent. -/
def ofParts (negative : Bool) (whole fraction : List Char) (exponent : Int) : Binary64 :=
  nearest negative ⟨numberOf (whole ++ fraction), exponent - fraction.length⟩

/-- The exponent at the end of a number, `none` if it is not one. -/
def exponent? : List Char → Option Int
  | [] => some 0
  | e :: rest =>
    if e = 'e' ∨ e = 'E' then
      let (negative, digits) := match rest with
        | '+' :: ds => (false, ds)
        | '-' :: ds => (true, ds)
        | ds => (false, ds)
      if digits.isEmpty || !digits.all isDigit then none
      else some (if negative then -(numberOf digits : Int) else numberOf digits)
    else none

/-- An unsigned decimal number with digits on at least one side of its point. -/
def unsigned? (negative : Bool) (cs : List Char) : Option Binary64 :=
  let whole := cs.takeWhile isDigit
  let afterWhole := cs.dropWhile isDigit
  let (fraction, tail) := match afterWhole with
    | '.' :: rest => (rest.takeWhile isDigit, rest.dropWhile isDigit)
    | rest => ([], rest)
  if whole.isEmpty && fraction.isEmpty then none
  else (exponent? tail).map (ofParts negative whole fraction)

/-- Flips the sign, of a NaN too. -/
def negate (x : Binary64) : Binary64 := ⟨x.bits ^^^ 0x8000000000000000⟩

/-- Reads a number with an optional sign; the words for infinity and NaN may have any case. -/
def read? (text : String) : Option Binary64 :=
  let (negative, body) := match text.toList with
    | '+' :: rest => (false, rest)
    | '-' :: rest => (true, rest)
    | rest => (false, rest)
  let word := String.ofList (body.map Char.toLower)
  if word = "nan" then some (if negative then nan.negate else nan)
  else if word = "inf" ∨ word = "infinity" then some (infinity negative)
  else unsigned? negative body

end Binary64

end PascalFront
