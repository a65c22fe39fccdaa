-- Letter case. Names and reserved words are compared in small letters: every
-- capital goes to its small letter, `İ` to `i` with a dot above, and a capital
-- sigma to the final sigma at the end of a word and to the plain one elsewhere.
import PascalFront.Letters

namespace PascalFront.Letters

/-! ## One character -/

/-- The code point of the small letter of `n`, by the runs that hold it. -/
def shiftCase : List CaseRun → Nat → Nat
  | [], n => n
  | run :: rest, n =>
    if n ≤ run.last then
      if run.first ≤ n ∧ (n - run.first) % run.stride = 0 then (n + run.shift).toNat else n
    else shiftCase rest n

/-- The small letters of a capital, and every other character as it is. -/
def small (c : Char) : List Char :=
  if c.toNat < 128 then [c.toLower]
  else if c = 'İ' then ['i', '\u0307']
  else [Char.ofNat (shiftCase smallLetterRuns c.toNat)]

/-! ## The final sigma -/

/-- A letter that has a case, once the marks that do not count are passed over. -/
def reachesCased (cs : List Char) : Bool :=
  match cs.dropWhile (fun c => inRanges caseIgnorableRanges c.toNat) with
  | [] => false
  | c :: _ => inRanges casedRanges c.toNat

/-- The small letter of a capital sigma between `before`, nearest first, and `after`. -/
def smallSigma (before after : List Char) : Char :=
  if reachesCased before && !reachesCased after then 'ς' else 'σ'

/-! ## A whole text -/

/-- The small letters of `cs`, where `before` holds what stands in front of it, nearest first. -/
def smallAfter (before : List Char) : List Char → List Char
  | [] => []
  | c :: rest =>
    (if c = 'Σ' then [smallSigma before rest] else small c) ++ smallAfter (c :: before) rest

end PascalFront.Letters

namespace PascalFront

/-- A text in small letters. -/
def caseFold (text : String) : String := String.ofList (Letters.smallAfter [] text.toList)

end PascalFront
