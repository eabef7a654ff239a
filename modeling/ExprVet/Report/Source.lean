import ExprVet.Span
import ExprVet.Text.Blank
import ExprVet.Text.Bytes
import ExprVet.Text.Width

/-! # Lines of a drawn text

A drawing shows the lines of a text that a span touches. A line keeps the break that ends it, so the
lines together are the text, and positions in bytes can be turned into positions in characters. -/

namespace ExprVet.Report

/-- Whether a character ends a line in a drawing. -/
def breaksLine (c : Char) : Bool :=
  (0x0a ≤ c.toNat && c.toNat ≤ 0x0d) || c.toNat == 0x85 || c.toNat == 0x2028 || c.toNat == 0x2029

/-- The lines of a text, each with its break. A carriage return and a newline are one break. -/
def brokenLines : List Char → List (List Char)
  | [] => []
  | c :: rest =>
      if breaksLine c && !(c == '\r' && rest.head? == some '\n') then [c] :: brokenLines rest
      else
        match brokenLines rest with
        | [] => [[c]]
        | line :: lines => (c :: line) :: lines

theorem flatten_brokenLines (cs : List Char) : (brokenLines cs).flatten = cs := by
  induction cs with
  | nil => rfl
  | cons c rest ih =>
      unfold brokenLines
      split
      · simp [ih]
      · split
        · next h => simp [h] at ih; simp [← ih]
        · next line lines h => simp [h] at ih; simp [← ih]

/-- A line of a text with its place there. -/
structure SourceLine where
  /-- Counted from one. -/
  number : Nat
  /-- The byte of the text at which the line starts. -/
  start : Nat
  /-- The characters with the break. -/
  chars : List Char
  deriving DecidableEq, Repr

/-- Numbers lines, the first of which starts at a byte of the text. -/
def placed (number start : Nat) : List (List Char) → List SourceLine
  | [] => []
  | chars :: rest =>
      ⟨number, start, chars⟩ :: placed (number + 1) (start + Text.byteLength chars) rest

/-- The lines of a text. An empty text has one empty line. -/
def sourceLines (text : List Char) : List SourceLine :=
  if text.isEmpty then [⟨1, 0, []⟩] else placed 1 0 (brokenLines text)

/-- The line on which a byte of the text stands; the end of the text stands on the last line. -/
def lineAt? (text : List Char) (byte : Nat) : Option SourceLine :=
  if byte ≤ Text.byteLength text then
    ((sourceLines text).filter (·.start ≤ byte)).getLast?
  else none

namespace SourceLine

/-- The number of characters on the line before a byte of the text. -/
def column (line : SourceLine) (byte : Nat) : Nat := Text.charsBefore (byte - line.start) line.chars

/-- The characters that are drawn. -/
def shown (line : SourceLine) : List Char := Text.trimEnd line.chars

/-- How many columns character number `index` of a line takes. A tab reaches up to the next
multiple of four characters. -/
def charColumns (index : Nat) (c : Char) : Nat :=
  if c == '\t' then 4 - index % 4 else if Text.isBlank c then 1 else Text.columns c

/-- How many columns stand for character number `index`, also after the drawn characters. -/
def columnsAt (line : SourceLine) (index : Nat) : Nat :=
  (line.shown[index]?.map (charColumns index)).getD 1

/-- The drawn characters, blanks as spaces. -/
def drawn (line : SourceLine) : List Char :=
  line.shown.zipIdx.flatMap fun (c, index) =>
    if Text.isBlank c then List.replicate (charColumns index c) ' ' else [c]

/-- A row below a line that follows the columns of its first characters. A character is marked by a
glyph, and by another one where it takes more columns. -/
def row (line : SourceLine) (count : Nat) (glyph : Nat → Char × Char) : List Char :=
  (List.range count).flatMap fun index =>
    match line.columnsAt index with
    | 0 => []
    | more + 1 => (glyph index).1 :: List.replicate more (glyph index).2

end SourceLine

end ExprVet.Report
