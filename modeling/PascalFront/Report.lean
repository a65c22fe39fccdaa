-- The layout of a diagnostic with the source lines that it is about. The text
-- is cut into lines at every kind of line separator, and the offsets of spans
-- are taken for counts of characters. The drawing is made of cells: a tab is as
-- wide as the way to the next tab stop, any other blank takes one column, and
-- every other character takes its own columns.
import PascalFront.Diagnostic
import PascalFront.Letters.Widths

namespace PascalFront.Report

/-! ## Source lines -/

/-- A line with its separator, and how many characters stand before it. -/
structure SourceLine where
  start : Nat
  chars : List Char
  deriving DecidableEq, Inhabited

/-- The characters that end a line. -/
def isSeparator (c : Char) : Bool :=
  c == '\n' || c == '\r' || c == '\x0b' || c == '\x0c' || c == '\u0085' || c == '\u2028' ||
    c == '\u2029'

/-- The lines of a text, where `begun` holds the line that is not over yet, last character first.
A carriage return and a line feed end a line together. -/
def cutFrom (begun : List Char) : List Char → List (List Char)
  | [] => if begun.isEmpty then [] else [begun.reverse]
  | '\r' :: '\n' :: rest => ('\n' :: '\r' :: begun).reverse :: cutFrom [] rest
  | c :: rest =>
    if isSeparator c then (c :: begun).reverse :: cutFrom [] rest else cutFrom (c :: begun) rest

/-- Lines with their starts, the first of them at `start`. -/
def numberFrom (start : Nat) : List (List Char) → List SourceLine
  | [] => []
  | cs :: rest => ⟨start, cs⟩ :: numberFrom (start + cs.length) rest

/-- A text in lines. -/
structure Source where
  lines : List SourceLine
  size : Nat

def Source.ofText (text : String) : Source :=
  ⟨numberFrom 0 (cutFrom [] text.toList), text.length⟩

/-- The index of the last line that starts at or before an offset within the text. -/
def Source.lineAt? (source : Source) (offset : Nat) : Option Nat :=
  if offset ≤ source.size then
    match (source.lines.takeWhile (·.start ≤ offset)).length with
    | 0 => none
    | k + 1 => some k
  else none

def Source.line (source : Source) (index : Nat) : SourceLine := source.lines.getD index default

/-! ## Cells -/

/-- Tab stops are this far apart. -/
def tabStop : Nat := 4

namespace SourceLine

/-- The characters without the blanks at the end. -/
def trimmed (l : SourceLine) : List Char := (l.chars.reverse.dropWhile isBlank).reverse

/-- How wide a character with an index is. -/
def widthOf (c : Char) (index : Nat) : Nat :=
  if c = '\t' then tabStop - index % tabStop
  else if isBlank c then 1
  else columnsOf c

/-- How wide the place with an index is; behind the last character every place is one wide. -/
def width (l : SourceLine) (index : Nat) : Nat :=
  match l.trimmed[index]? with
  | some c => widthOf c index
  | none => 1

/-- The columns of the first places of a line. -/
def reach (l : SourceLine) : Nat → Nat
  | 0 => 0
  | places + 1 => l.reach places + l.width places

/-- One character as it is drawn. -/
def cell (c : Char) (index : Nat) : List Char :=
  if isBlank c then List.replicate (widthOf c index) ' ' else [c]

/-- The line as it is drawn. -/
def shown (l : SourceLine) : List Char := l.trimmed.zipIdx.flatMap fun (c, i) => cell c i

end SourceLine

/-! ## Rows of a drawing -/

abbrev Row := List Char

def blanks (n : Nat) : Row := List.replicate n ' '

def bar (n : Nat) : Row := List.replicate n '─'

/-- `width` columns, with `first` in the first of them. -/
def headed (width : Nat) (first tail : Char) : Row :=
  match width with
  | 0 => []
  | rest + 1 => first :: List.replicate rest tail

/-- How the rows of one report begin, by the width of its largest line number. -/
structure Margin where
  digits : Nat

namespace Margin

def outside (m : Margin) : Row := blanks (m.digits + 2)

/-- The margin of a row that shows no line. -/
def empty (m : Margin) : Row := m.outside ++ ['│', ' ']

/-- The margin of a row that shows the line with an index. -/
def numbered (m : Margin) (index : Nat) : Row :=
  let number := (toString (index + 1)).toList
  ' ' :: blanks (m.digits - number.length) ++ number ++ [' ', '│', ' ']

end Margin

/-! ## A label on one line -/

/-- The drawing under a line: from cell `start` up to cell `stop`, with the arrow in `middle`. -/
structure Underline where
  start : Nat
  stop : Nat
  middle : Nat

namespace Underline

def covers (u : Underline) (index : Nat) : Bool := u.start ≤ index && index < u.stop

/-- The part of the upper row under one character. -/
def upper (u : Underline) (width index : Nat) : Row :=
  if index = u.middle then
    if u.covers index then headed width '┬' '─' else headed width '│' ' '
  else if u.covers index then bar width
  else blanks width

/-- The part of the lower row under one character. -/
def lower (u : Underline) (width index : Nat) : Row :=
  if index < u.middle then blanks width
  else if index = u.middle then headed width '╰' '─'
  else bar width

/-- Both rows, which end two cells behind the underlined text. -/
def rows (u : Underline) (l : SourceLine) (text : Row) : Row × Row :=
  let cells := List.range (u.stop + 2)
  (cells.flatMap fun i => u.upper (l.width i) i,
    cells.flatMap (fun i => u.lower (l.width i) i) ++ ' ' :: text)

end Underline

/-- The rows for a label within the line with an index. A label that does not fit into the line
leaves an empty row. -/
def singleLine (m : Margin) (source : Source) (index : Nat) (label : Label) : List Row :=
  let l := source.line index
  if l.start ≤ label.span.start ∧ label.span.stop ≤ l.start + l.chars.length then
    let u : Underline := ⟨label.span.start - l.start, label.span.stop - l.start,
      (label.span.start + label.span.stop) / 2 - l.start⟩
    let (upper, lower) := u.rows l label.text.toList
    [m.numbered index ++ l.shown, m.empty ++ upper, m.empty ++ lower]
  else [m.empty]

/-! ## A label over several lines -/

/-- The rows that close a label at the line with an index: the line, and the remark on the whole
reach of the label. -/
def closing (m : Margin) (source : Source) (index : Nat) (label : Label) : List Row :=
  let l := source.line index
  let reach := l.reach (l.chars.length + 2)
  [m.numbered index ++ '├' :: '─' :: '▶' :: ' ' :: l.shown,
    m.empty ++ '│' :: blanks (3 + reach),
    m.empty ++ '╰' :: bar (3 + reach) ++ ' ' :: label.text.toList]

/-- The rows for a label from the line with index `a` to the later line with index `b`. One row
stands for all lines that are left out: those between the two, and the last one when the label
ends behind it, for then there is no line that the label ends on. -/
def severalLines (m : Margin) (source : Source) (a b : Nat) (label : Label) : List Row :=
  let last := source.line b
  let isClosed := label.span.stop ≤ last.start + last.chars.length
  [m.numbered a ++ '╭' :: '─' :: '▶' :: ' ' :: (source.line a).shown] ++
    (if a + 1 < b ∨ ¬isClosed then [m.outside ++ ['┆', ' ', '┆'] ++ blanks 3] else []) ++
    (if isClosed then closing m source b label else [])

/-! ## The whole report -/

/-- Why a report cannot be laid out. -/
inductive LayoutError where
  | reversedLabel
  deriving DecidableEq

def LayoutError.message : LayoutError → String
  | reversedLabel => "Label start is after its end"

/-- The first row: the code, if there is one, and the message. -/
def headline (d : Diagnostic) : Row :=
  let code := match d.cause with
    | some cause => "[" ++ cause.code ++ "] "
    | none => ""
  (code ++ "Error: " ++ d.message).toList

/-- The line and column of an offset, and question marks outside the text. -/
def location (source : Source) (offset : Nat) : String :=
  match source.lineAt? offset with
  | some index => Position.describe ⟨index + 1, offset - (source.line index).start + 1⟩
  | none => "?:?"

/-- The rows for the help, under a label on the lines with the indices `a` to `b`. -/
def helpRows (m : Margin) (source : Source) (a b : Nat) (label : Label) (help : String) :
    List Row :=
  let lead :=
    if a = b then m.empty
    else if source.lines.length > 1 ∧ (source.line 1).start = label.span.start then
      m.empty ++ '│' :: blanks 3
    else m.empty ++ blanks 4
  [lead, lead ++ ("Help: " ++ help).toList]

/-- The rows under the headline, when the label lies on the lines with the indices `a` to `b`. -/
def body (source : Source) (filename : String) (d : Diagnostic) (label : Label) (a b : Nat) :
    List Row :=
  let m : Margin := ⟨(toString (b + 1)).length⟩
  let place := filename ++ ":" ++ location source d.span.start
  [m.outside ++ '╭' :: '─' :: '[' :: place.toList ++ [']'], m.outside ++ ['│']] ++
    (if a = b then singleLine m source a label else severalLines m source a b label) ++
    (d.help.map (helpRows m source a b label)).getD [] ++
    [bar (m.digits + 2) ++ ['╯']]

/-- The lines that a label reaches, if the text has them. -/
def reach? (source : Source) (span : Span) : Option (Nat × Nat) :=
  match source.lineAt? span.start with
  | none => none
  | some a =>
    if span.start = span.stop then some (a, a)
    else (source.lineAt? (span.stop - 1)).map fun b => (a, b)

/-- The rows of a report. -/
def rows (source : Source) (filename : String) (d : Diagnostic) : Except LayoutError (List Row) :=
  match d.labels with
  | [] => .ok [headline d]
  | label :: _ =>
    if label.span.stop < label.span.start then .error .reversedLabel
    else
      match reach? source label.span with
      | none => .ok [headline d]
      | some (a, b) => .ok (headline d :: body source filename d label a b)

/-- The text of a report, every row with a line feed. -/
def render (text filename : String) (d : Diagnostic) : Except LayoutError String :=
  (rows (.ofText text) filename d).map fun rs => String.ofList (rs.flatMap (· ++ ['\n']))

end PascalFront.Report
