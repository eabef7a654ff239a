import ExprVet.Report.Source

/-! # Drawings of findings

A finding with a place is drawn into its text: the lines it touches with their numbers, and an arrow
from the place to the word `here`. A place on one line is underlined; for a place on several lines
an arrow in the margin joins the first of them to the last.

```text
Error: undeclared identifier
   ╭─[ <unknown>:1:5 ]
   │
 1 │ x + y
   │     ┬
   │     ╰── here
───╯
``` -/

namespace ExprVet.Report

/-- The place of a finding, in characters. -/
inductive Mark where
  /-- From one column of a line up to another one. -/
  | onLine (line : SourceLine) (start stop : Nat)
  /-- From a column of a line up to a later line. -/
  | across (first : SourceLine) (start : Nat) (last : SourceLine)
  deriving DecidableEq, Repr

namespace Mark

/-- The mark for a span of a text. A span that ends before it starts is empty. -/
def ofSpan? (text : List Char) (span : Span) : Option Mark := do
  let first ← lineAt? text span.start
  let start := first.column span.start
  if span.stop ≤ span.start then return onLine first start start
  let last ← lineAt? text (span.stop - 1)
  if first.number = last.number then return onLine first start (last.column span.stop)
  return across first start last

def firstLine : Mark → SourceLine
  | onLine line _ _ => line
  | across first _ _ => first

def lastLine : Mark → SourceLine
  | onLine line _ _ => line
  | across _ _ last => last

def column : Mark → Nat
  | onLine _ start _ => start
  | across _ start _ => start

end Mark

/-- The word at the end of every arrow. -/
def label : List Char := " here".toList

/-- The glyphs under a character of a marked line. -/
def underline (start stop index : Nat) : Char × Char :=
  if index = (start + stop) / 2 then if start < stop then ('┬', '─') else ('│', ' ')
  else if start ≤ index ∧ index < stop then ('─', '─')
  else (' ', ' ')

/-- The glyphs of the arrow to the label. -/
def arrow (start stop index : Nat) : Char × Char :=
  let middle := (start + stop) / 2
  if index < middle then (' ', ' ') else if index = middle then ('╰', '─') else ('─', '─')

/-- The space left of the frame, for line numbers of some width. -/
def gutter (width : Nat) : List Char := List.replicate (width + 2) ' '

/-- The start of a row with a line number. -/
def numberedGutter (width number : Nat) : List Char :=
  let digits := (toString number).toList
  ' ' :: List.replicate (width - digits.length) ' ' ++ digits ++ [' ']

/-- The rows between the opening and the closing row of the frame. -/
def markRows (width : Nat) : Mark → List (List Char)
  | .onLine line start stop =>
      let side := gutter width ++ "│ ".toList
      let count := stop + 2
      [numberedGutter width line.number ++ "│ ".toList ++ line.drawn,
        side ++ line.row count (underline start stop),
        side ++ line.row count (arrow start stop) ++ label]
  | .across first _ last =>
      let side := gutter width ++ "│ ".toList
      let count := last.chars.length + 2
      [numberedGutter width first.number ++ "│ ╭─▶ ".toList ++ first.drawn] ++
        (if first.number + 1 < last.number then [gutter width ++ "┆ ┆   ".toList] else []) ++
        [numberedGutter width last.number ++ "│ ├─▶ ".toList ++ last.drawn,
          side ++ "│   ".toList ++ last.row count fun _ => (' ', ' '),
          side ++ "╰───".toList ++ last.row count (fun _ => ('─', '─')) ++ label]

/-- The frame around a mark. -/
def frame (mark : Mark) : List (List Char) :=
  let width := (toString mark.lastLine.number).length
  let place := toString mark.firstLine.number ++ ":" ++ toString (mark.column + 1)
  [gutter width ++ ("╭─[ <unknown>:" ++ place ++ " ]").toList, gutter width ++ ['│']] ++
    markRows width mark ++ [List.replicate (width + 2) '─' ++ ['╯']]

/-- The drawing of a span under a title. A span that starts behind the text has no drawing but the
title. -/
def draw (title : String) (text : String) (span : Span) : String :=
  let rows := ((Mark.ofSpan? text.toList span).map frame).getD []
  "\n".intercalate (title :: rows.map String.ofList)

end ExprVet.Report
