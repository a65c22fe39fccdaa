-- Reading JSON. A grammar says which texts are well formed, and a reader makes a
-- value of a text: numbers without a point and an exponent are integers, and all
-- others keep their spelling. What the reader accepts is well formed.
import PascalFront.JsonText
import PascalFront.Proofs.RealText

namespace PascalFront

/-! ## Numbers -/

namespace Lexeme.Numeral

/-- Whether a numeral that was read has all its parts. -/
def isComplete (n : Numeral) : Bool :=
  !n.whole.isEmpty && (n.whole.head? != some '0' || n.whole == ['0']) &&
    (match n.exponent with
    | some (_, _, digits) => !digits.isEmpty
    | none => true)

theorem isComplete_iff {n : Numeral} (h : n.WellFormed) : n.isComplete = true ↔ n.Complete := by
  constructor
  · intro hn
    simp only [isComplete, Bool.and_eq_true, Bool.or_eq_true, Bool.not_eq_true',
      List.isEmpty_eq_false_iff,
      bne_iff_ne, beq_iff_eq] at hn
    obtain ⟨⟨hdigits, hlead⟩, hexponent⟩ := hn
    refine ⟨h, hdigits, fun hzero => hlead.resolve_left fun hne => hne hzero, fun e s ds he => ?_⟩
    rw [he] at hexponent
    simpa using hexponent
  · intro hn
    have hexponent : (match n.exponent with
        | some (_, _, digits) => !digits.isEmpty
        | none => true) = true := by
      cases he : n.exponent with
      | none => rfl
      | some parts =>
        obtain ⟨e, s, ds⟩ := parts
        simpa using hn.exponentDigits e s ds he
    simp only [isComplete, hexponent, Bool.and_true, Bool.and_eq_true, Bool.or_eq_true,
      Bool.not_eq_true',
      List.isEmpty_eq_false_iff, bne_iff_ne, beq_iff_eq]
    refine ⟨hn.digits, ?_⟩
    by_cases hzero : n.whole.head? = some '0'
    · exact .inr (hn.lead hzero)
    · exact .inl hzero

end Lexeme.Numeral

namespace Json

open Lexeme (Numeral)

/-! ## Well-formed texts -/

def isBlank (c : Char) : Bool := c == ' ' || c == '\t' || c == '\n' || c == '\r'

/-- A row of blanks. -/
def Blanks (cs : List Char) : Prop := ∀ c ∈ cs, isBlank c = true

/-- What a backslash and one character behind it stand for. -/
def shortEscape? : Char → Option Char
  | '"' => some '"'
  | '\\' => some '\\'
  | '/' => some '/'
  | 'b' => some '\x08'
  | 'f' => some '\x0c'
  | 'n' => some '\n'
  | 'r' => some '\r'
  | 't' => some '\t'
  | _ => none

/-- The value of a hexadecimal digit in letters of either case. -/
def hexValue? (c : Char) : Option Nat :=
  if '0' ≤ c ∧ c ≤ '9' then some (c.toNat - '0'.toNat)
  else if 'a' ≤ c ∧ c ≤ 'f' then some (c.toNat - 'a'.toNat + 10)
  else if 'A' ≤ c ∧ c ≤ 'F' then some (c.toNat - 'A'.toNat + 10)
  else none

/-- The number of four hexadecimal digits. -/
def unit? (digits : List Char) : Option Nat :=
  digits.foldlM (fun n c => (hexValue? c).map (16 * n + ·)) 0

/-- What may stand between the quotes of a string. -/
inductive Inside : List Char → Prop
  | done : Inside []
  | plain {c : Char} {cs : List Char} (hquote : c ≠ '"') (hescape : c ≠ '\\')
      (hcontrol : ¬ c.toNat < 32) : Inside cs → Inside (c :: cs)
  | short {c : Char} {cs : List Char} (h : shortEscape? c ≠ none) :
      Inside cs → Inside ('\\' :: c :: cs)
  | unit {a b c d : Char} {cs : List Char} (h : unit? [a, b, c, d] ≠ none) :
      Inside cs → Inside ('\\' :: 'u' :: a :: b :: c :: d :: cs)

/-- The words that are values. -/
def words : List String := ["null", "true", "false"]

/-- Parts with commas between them and blanks behind them. -/
inductive IsRow (IsPart : List Char → Prop) : List Char → Prop
  | last {part gap : List Char} (h : IsPart part) (hgap : Blanks gap) : IsRow IsPart (part ++ gap)
  | more {part gap gap' parts : List Char} (h : IsPart part) (hgap : Blanks gap)
    (hgap' : Blanks gap')
      (hmore : IsRow IsPart parts) : IsRow IsPart (part ++ (gap ++ ',' :: (gap' ++ parts)))

/-- A key and a value with a colon between them. -/
inductive IsMember (IsValue : List Char → Prop) : List Char → Prop
  | intro {key gap gap' v : List Char} (hkey : Inside key) (hgap : Blanks gap) (hgap' : Blanks gap')
      (hv : IsValue v) : IsMember IsValue ('"' :: (key ++ '"' :: (gap ++ ':' :: (gap' ++ v))))

/-- The texts of values, from their first character to their last. -/
inductive IsValue : List Char → Prop
  | word {w : String} (h : w ∈ words) : IsValue w.toList
  | number {n : Numeral} (h : n.Complete) (negative : Bool) : IsValue (n.signed negative)
  | string {cs : List Char} (h : Inside cs) : IsValue ('"' :: (cs ++ ['"']))
  | emptyArray {gap : List Char} (hgap : Blanks gap) : IsValue ('[' :: (gap ++ [']']))
  | array {gap items : List Char} (hgap : Blanks gap) (h : IsRow IsValue items) :
      IsValue ('[' :: (gap ++ (items ++ [']'])))
  | emptyObject {gap : List Char} (hgap : Blanks gap) : IsValue ('\x7b' :: (gap ++ ['\x7d']))
  | object {gap members : List Char} (hgap : Blanks gap) (h : IsRow (IsMember IsValue) members) :
      IsValue ('\x7b' :: (gap ++ (members ++ ['\x7d'])))

/-- A text of one value, with blanks around it. -/
def WellFormed (text : String) : Prop :=
  ∃ before v after, Blanks before ∧ IsValue v ∧ Blanks after ∧ text.toList = before ++ v ++ after

/-! ## Reading strings -/

/-- A part of a string: a character, or the number of a UTF-16 unit. -/
inductive Part where
  | char (c : Char)
  | unit (n : Nat)

/-- The parts up to the closing quote, and what stands behind it. -/
def parts? : List Char → Option (List Part × List Char)
  | [] => none
  | '"' :: rest => some ([], rest)
  | '\\' :: 'u' :: a :: b :: c :: d :: rest =>
    match unit? [a, b, c, d], parts? rest with
    | some n, some (parts, after) => some (.unit n :: parts, after)
    | _, _ => none
  | '\\' :: c :: rest =>
    match shortEscape? c, parts? rest with
    | some meant, some (parts, after) => some (.char meant :: parts, after)
    | _, _ => none
  | c :: rest =>
    if c = '\\' ∨ c.toNat < 32 then none
    else (parts? rest).map fun (parts, after) => (.char c :: parts, after)

/-- Whether a unit is the first half of a pair. -/
def isHigh (n : Nat) : Bool := 0xD800 ≤ n && n < 0xDC00

/-- Whether a unit is the second half of a pair. -/
def isLow (n : Nat) : Bool := 0xDC00 ≤ n && n < 0xE000

/-- The characters of some parts. Halves of pairs stand for nothing alone. -/
def joined? : List Part → Option (List Char)
  | [] => some []
  | .char c :: parts => (joined? parts).map (c :: ·)
  | .unit high :: .unit low :: parts =>
    if isHigh high && isLow low then
      (joined? parts).map (Char.ofNat (0x10000 + (high - 0xD800) * 0x400 + (low - 0xDC00)) :: ·)
    else if isHigh high || isLow high then none
    else (joined? (.unit low :: parts)).map (Char.ofNat high :: ·)
  | .unit n :: parts =>
    if isHigh n || isLow n then none else (joined? parts).map (Char.ofNat n :: ·)

/-- A string behind its opening quote. -/
def string? (cs : List Char) : Option (String × List Char) :=
  match parts? cs with
  | some (parts, after) => (joined? parts).map fun s => (String.ofList s, after)
  | none => none

/-! ## Reading numbers and words -/

/-- A number as a value: an integer, or its spelling. -/
def numberValue (negative : Bool) (n : Numeral) : JsonValue :=
  match n.fraction, n.exponent with
  | none, none => .integer (if negative then -(numberOf n.whole : Int) else numberOf n.whole)
  | _, _ => .spelled (String.ofList (n.signed negative))

def number? (cs : List Char) : Option (JsonValue × List Char) :=
  let negative := cs.head? == some '-'
  let n := Numeral.read (if negative then cs.tail else cs)
  if n.isComplete then some (numberValue negative n, cs.drop (n.signed negative).length) else none

def word? (cs : List Char) : Option (JsonValue × List Char) :=
  (words.find? (·.toList.isPrefixOf cs)).map fun w => (.spelled w, cs.drop w.toList.length)

/-! ## Reading values -/

/-- What stands behind some blanks. -/
def skip (cs : List Char) : List Char := cs.dropWhile isBlank

/-- The parts of a row up to its closing bracket, where `fuel` bounds their number. -/
def row? {α : Type} (closing : Char) (part? : List Char → Option (α × List Char)) :
    Nat → List Char → Option (List α × List Char)
  | 0, _ => none
  | fuel + 1, cs =>
    match part? cs with
    | none => none
    | some (x, after) =>
      match skip after with
      | [] => none
      | c :: rest =>
        if c = closing then some ([x], rest)
        else if c = ',' then (row? closing part? fuel (skip rest)).map fun (xs, after) =>
          (x :: xs, after)
        else none

/-- A key and what is behind the colon. -/
def member? (value? : List Char → Option (JsonValue × List Char)) :
    List Char → Option ((String × JsonValue) × List Char)
  | '"' :: cs =>
    match string? cs with
    | none => none
    | some (key, after) =>
      match skip after with
      | ':' :: rest => (value? (skip rest)).map fun (v, after) => ((key, v), after)
      | _ => none
  | _ => none

/-- What stands between brackets, and what stands behind them. -/
def bracketed? {α : Type} (closing : Char) (part? : List Char → Option (α × List Char)) (fuel : Nat)
    (cs : List Char) : Option (List α × List Char) :=
  match skip cs with
  | [] => none
  | c :: rest => if c = closing then some ([], rest) else row? closing part? fuel (c :: rest)

/-- A value at the start of a text and what stands behind it, where `fuel` bounds the nesting. -/
def value? : Nat → List Char → Option (JsonValue × List Char)
  | 0, _ => none
  | fuel + 1, cs =>
    match cs with
    | '"' :: rest => (string? rest).map fun (s, after) => (.string s, after)
    | '[' :: rest =>
      (bracketed? ']' (value? fuel) fuel rest).map fun (items, after) => (.array items, after)
    | '\x7b' :: rest =>
      (bracketed? '\x7d' (member? (value? fuel)) fuel rest).map fun (members, after) =>
        (.object members, after)
    | _ => (word? cs).or (number? cs)

/-- The value of a whole text. Each level of nesting and each part of a row takes a character. -/
def read? (text : String) : Option JsonValue :=
  match value? text.toList.length (skip text.toList) with
  | some (v, rest) => if skip rest = [] then some v else none
  | none => none

/-! ## What is accepted -/

theorem parts?_inside {cs : List Char} {parts : List Part} {rest : List Char}
    (h : parts? cs = some (parts, rest)) :
    ∃ inside, Inside inside ∧ cs = inside ++ '"' :: rest := by
  fun_induction parts? cs generalizing parts with
  | case1 => cases h
  | case2 rest' =>
    cases h
    exact ⟨[], .done, rfl⟩
  | case3 a b c d rest' n parts' after hrest hunit ih =>
    cases h
    obtain ⟨inside, hinside, rfl⟩ := ih hrest
    exact ⟨_, .unit (by simp [hunit]) hinside, rfl⟩
  | case4 => cases h
  | case5 c rest' _ meant parts' after hrest hshort ih =>
    cases h
    obtain ⟨inside, hinside, rfl⟩ := ih hrest
    exact ⟨_, .short (by simp [hshort]) hinside, rfl⟩
  | case6 => cases h
  | case7 => cases h
  | case8 c rest' hquote _ _ hplain ih =>
    rw [not_or] at hplain
    obtain ⟨⟨parts', after⟩, hrest, hpair⟩ := Option.map_eq_some_iff.mp h
    cases hpair
    obtain ⟨inside, hinside, rfl⟩ := ih hrest
    exact ⟨_, .plain (fun hc => hquote hc) hplain.1 hplain.2 hinside, rfl⟩

theorem string?_inside {cs : List Char} {s : String} {rest : List Char}
    (h : string? cs = some (s, rest)) :
    ∃ inside, Inside inside ∧ cs = inside ++ '"' :: rest := by
  unfold string? at h
  split at h
  · rename_i parts after hparts
    obtain ⟨joined, -, hpair⟩ := Option.map_eq_some_iff.mp h
    cases hpair
    exact parts?_inside hparts
  · cases h

theorem number?_value {cs : List Char} {v : JsonValue} {rest : List Char}
    (h : number? cs = some (v, rest)) :
    ∃ taken, IsValue taken ∧ cs = taken ++ rest := by
  obtain ⟨negative, hnegative⟩ : ∃ negative, negative = (cs.head? == some '-') := ⟨_, rfl⟩
  obtain ⟨body, hbody⟩ : ∃ body, body = if negative then cs.tail else cs := ⟨_, rfl⟩
  obtain ⟨hn, after, hafter, -⟩ := Numeral.read_spec body
  simp only [number?, ← hnegative, ← hbody] at h
  split at h
  case isFalse => cases h
  case isTrue hcomplete =>
    cases h
    have hcs : cs = (Numeral.read body).signed negative ++ after := by
      cases negative with
      | true =>
        obtain ⟨tail, rfl⟩ := List.head?_eq_some_iff.mp (beq_iff_eq.mp hnegative.symm)
        simpa [Numeral.signed, hbody] using hafter
      | false => simpa [Numeral.signed, hbody] using hafter
    refine ⟨_, .number ((Numeral.isComplete_iff hn).mp hcomplete) negative, ?_⟩
    rw [drop_of_eq_append hcs]
    exact hcs

theorem word?_value {cs : List Char} {v : JsonValue} {rest : List Char}
    (h : word? cs = some (v, rest)) :
    ∃ taken, IsValue taken ∧ cs = taken ++ rest := by
  obtain ⟨w, hw, hpair⟩ := Option.map_eq_some_iff.mp h
  cases hpair
  have hprefix : w.toList.isPrefixOf cs = true :=
    List.find?_some (p := fun w : String => w.toList.isPrefixOf cs) hw
  obtain ⟨after, rfl⟩ := List.isPrefixOf_iff_prefix.mp hprefix
  refine ⟨w.toList, .word (List.mem_of_find?_eq_some hw), ?_⟩
  rw [List.drop_left]

/-- Blanks are skipped up to something else. -/
theorem skip_split (cs : List Char) : ∃ gap, Blanks gap ∧ cs = gap ++ skip cs :=
  ⟨cs.takeWhile isBlank, fun _ hc => List.mem_takeWhile_imp hc,
    List.takeWhile_append_dropWhile.symm⟩

/-- What a reader takes is as the grammar says. -/
def Accepts {α : Type} (IsPart : List Char → Prop) (part? : List Char → Option (α × List Char)) :
    Prop :=
  ∀ {cs : List Char} {x : α} {rest : List Char}, part? cs = some (x, rest) →
    ∃ taken, IsPart taken ∧ cs = taken ++ rest

theorem row_accepted {α : Type} {IsPart : List Char → Prop}
    {part? : List Char → Option (α × List Char)} (hpart : Accepts IsPart part?) {closing : Char}
    {fuel : Nat} {cs : List Char} {xs : List α} {rest : List Char}
    (h : row? closing part? fuel cs = some (xs, rest)) :
    ∃ taken, IsRow IsPart taken ∧ cs = taken ++ closing :: rest := by
  induction fuel generalizing cs xs with
  | zero => cases h
  | succ fuel ih =>
    unfold row? at h
    split at h
    case h_1 => cases h
    case h_2 x after hx =>
      obtain ⟨taken, htaken, rfl⟩ := hpart hx
      obtain ⟨gap, hgap, hafter⟩ := skip_split after
      split at h
      case h_1 => cases h
      case h_2 c behind hskip =>
        rw [hskip] at hafter
        by_cases hclosing : c = closing
        · rw [if_pos hclosing] at h
          cases h
          rw [hafter, hclosing]
          exact ⟨_, .last htaken hgap, by simp⟩
        · rw [if_neg hclosing] at h
          split at h
          case isFalse => cases h
          case isTrue hcomma =>
            obtain ⟨⟨more, after'⟩, hmore, hpair⟩ := Option.map_eq_some_iff.mp h
            cases hpair
            obtain ⟨gap', hgap', hbehind⟩ := skip_split behind
            obtain ⟨parts, hparts, hfirst⟩ := ih hmore
            rw [hafter, hcomma, hbehind, hfirst]
            exact ⟨_, .more htaken hgap hgap' hparts, by simp⟩

theorem member_accepted {value? : List Char → Option (JsonValue × List Char)}
    (hvalue : Accepts IsValue value?) :
    Accepts (IsMember IsValue) (member? value?) := by
  intro cs x rest h
  unfold member? at h
  split at h
  case h_2 => cases h
  case h_1 behind =>
    split at h
    case h_1 => cases h
    case h_2 key after hkey =>
      obtain ⟨inside, hinside, rfl⟩ := string?_inside hkey
      obtain ⟨gap, hgap, hafter⟩ := skip_split after
      split at h
      case h_2 => cases h
      case h_1 behindColon hcolon =>
        obtain ⟨⟨v, after'⟩, hv, hpair⟩ := Option.map_eq_some_iff.mp h
        cases hpair
        obtain ⟨gap', hgap', hbehindColon⟩ := skip_split behindColon
        obtain ⟨taken, htaken, hfirst⟩ := hvalue hv
        rw [hafter, hcolon, hbehindColon, hfirst]
        exact ⟨_, .intro hinside hgap hgap' htaken, by simp⟩

theorem bracketed_accepted {α : Type} {IsPart : List Char → Prop}
    {part? : List Char → Option (α × List Char)} (hpart : Accepts IsPart part?) {closing : Char}
    {fuel : Nat} {cs : List Char} {xs : List α} {rest : List Char}
    (h : bracketed? closing part? fuel cs = some (xs, rest)) :
    ∃ gap, Blanks gap ∧
      (cs = gap ++ closing :: rest ∨
        ∃ taken, IsRow IsPart taken ∧ cs = gap ++ (taken ++ closing :: rest)) := by
  obtain ⟨gap, hgap, hcs⟩ := skip_split cs
  refine ⟨gap, hgap, ?_⟩
  unfold bracketed? at h
  split at h
  case h_1 => cases h
  case h_2 c behind hskip =>
    rw [hskip] at hcs
    by_cases hclosing : c = closing
    · rw [if_pos hclosing] at h
      cases h
      exact .inl (hclosing ▸ hcs)
    · rw [if_neg hclosing] at h
      obtain ⟨taken, htaken, hrow⟩ := row_accepted hpart h
      exact .inr ⟨taken, htaken, by rw [hcs, hrow]⟩

theorem value_accepted (fuel : Nat) : Accepts IsValue (value? fuel) := by
  induction fuel with
  | zero => exact nofun
  | succ fuel ih =>
    intro cs v rest h
    unfold value? at h
    split at h
    case h_1 behind =>
      obtain ⟨⟨s, after⟩, hs, hpair⟩ := Option.map_eq_some_iff.mp h
      cases hpair
      obtain ⟨inside, hinside, rfl⟩ := string?_inside hs
      exact ⟨_, .string hinside, by simp⟩
    case h_2 behind =>
      obtain ⟨⟨items, after⟩, hitems, hpair⟩ := Option.map_eq_some_iff.mp h
      cases hpair
      obtain ⟨gap, hgap, rfl | ⟨taken, htaken, rfl⟩⟩ := bracketed_accepted ih hitems
      · exact ⟨_, .emptyArray hgap, by simp⟩
      · exact ⟨_, .array hgap htaken, by simp⟩
    case h_3 behind =>
      obtain ⟨⟨members, after⟩, hmembers, hpair⟩ := Option.map_eq_some_iff.mp h
      cases hpair
      obtain ⟨gap, hgap, rfl | ⟨taken, htaken, rfl⟩⟩ :=
        bracketed_accepted (member_accepted ih) hmembers
      · exact ⟨_, .emptyObject hgap, by simp⟩
      · exact ⟨_, .object hgap htaken, by simp⟩
    case h_4 =>
      rcases Option.or_eq_some_iff.mp h with hword | ⟨-, hnumber⟩
      · exact word?_value hword
      · exact number?_value hnumber

/-- The reader accepts well-formed texts only. -/
theorem wellFormed_of_read? {text : String} {v : JsonValue} (h : read? text = some v) :
    WellFormed text := by
  unfold read? at h
  split at h
  case h_2 => cases h
  case h_1 value rest hvalue =>
    split at h
    case isFalse => cases h
    case isTrue hend =>
      obtain ⟨before, hbefore, htext⟩ := skip_split text.toList
      obtain ⟨taken, htaken, hfirst⟩ := value_accepted _ hvalue
      obtain ⟨after, hafter, hrest⟩ := skip_split rest
      rw [hend, List.append_nil] at hrest
      refine ⟨before, taken, after, hbefore, htaken, hafter, ?_⟩
      rw [htext, hfirst, hrest, List.append_assoc]

end Json

end PascalFront
