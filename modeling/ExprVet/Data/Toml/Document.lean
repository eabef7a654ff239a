import ExprVet.Data.Toml.Quoted
import ExprVet.Data.Toml.Table

/-! # Documents

A document has one statement to a line: a header that opens a table or an entry for the table opened
last. Values in brackets and braces may run over several lines and contain comments. -/

namespace ExprVet.Data.Toml

/-- Reads something at the start of a text. -/
abbrev Reader := StateT (List Char) Option

def peek : Reader (Option Char) := return (← get).head?

/-- Reads a character if it comes next. -/
def accept (c : Char) : Reader Bool := fun cs =>
  match cs with
  | d :: rest => if c = d then some (true, rest) else some (false, cs)
  | [] => some (false, [])

/-- Reads a character that must come next. -/
def expect (c : Char) : Reader Unit := do guard (← accept c)

def spaces : Reader Unit := modify (·.dropWhile isSpace)

def takeWhile (p : Char → Bool) : Reader (List Char) := fun cs =>
  let taken := cs.takeWhile p
  some (taken, cs.drop taken.length)

/-- What a comment may consist of goes up to the next break. -/
def isInLine (c : Char) : Bool := c != '\n' && c != '\r'

/-- The text after a comment whose sign has been read. -/
def afterComment? (cs : List Char) : Option (List Char) :=
  if (cs.takeWhile isInLine).all isPlain then some (cs.dropWhile isInLine) else none

/-- The text after the blanks, breaks and comments that it starts with. -/
def afterGap? : List Char → Option (List Char)
  | [] => some []
  | '#' :: cs =>
      if (cs.takeWhile isInLine).all isPlain then afterGap? (cs.dropWhile isInLine) else none
  | '\r' :: '\n' :: cs => afterGap? cs
  | '\n' :: cs => afterGap? cs
  | c :: cs => if isSpace c then afterGap? cs else some (c :: cs)
termination_by cs => cs.length
decreasing_by
  · have := (List.dropWhile_sublist isInLine (l := cs)).length_le
    simp only [List.length_cons]
    omega
  all_goals simp; try omega

def gap : Reader Unit := fun cs => (afterGap? cs).map ((), ·)

/-- Reads what may stand at the end of a line, with the break. -/
def lineEnd : Reader Unit := do
  spaces
  if ← accept '#' then fun cs => (afterComment? cs).map ((), ·)
  let cs ← get
  guard (cs.isEmpty || startsWithBreak cs)
  set (dropBreak cs)

def isKeyChar (c : Char) : Bool :=
  isDigit c || ('a' ≤ c && c ≤ 'z') || ('A' ≤ c && c ≤ 'Z') || c == '_' || c == '-'

/-- Reads a key without dots. -/
def simpleKey : Reader String := do
  match ← peek with
  | some '"' | some '\'' => return String.ofList (← quotedLine)
  | _ =>
      let key ← takeWhile isKeyChar
      guard !key.isEmpty
      return String.ofList key

/-- How deep brackets and braces may stand inside each other, and how many parts a key may have. -/
def maxDepth : Nat := 80

/-- Reads the parts of a dotted key, at most so many. -/
def keyParts : Nat → Reader (List String)
  | 0 => failure
  | fuel + 1 => do
      spaces
      let key ← simpleKey
      spaces
      if ← accept '.' then return key :: (← keyParts fuel) else return [key]

/-- Reads a dotted key. -/
def dottedKey : Reader (List String) := keyParts maxDepth

/-- What an unquoted scalar consists of. -/
def isScalarChar (c : Char) : Bool := isKeyChar c || c == '+' || c == '.' || c == ':'

/-- Reads an unquoted scalar. Between a date and a time there may be a space. -/
def scalar : Reader Value := do
  let word ← takeWhile isScalarChar
  match (← get) with
  | ' ' :: c :: _ =>
      if isDate word && isDigit c then
        let _ ← accept ' '
        let time ← takeWhile isScalarChar
        fun cs => (scalar? (word ++ ' ' :: time)).map (·, cs)
      else fun cs => (scalar? word).map (·, cs)
  | _ => fun cs => (scalar? word).map (·, cs)

/-- Reads items up to a closing character. A comma may follow the last one. -/
def items {α : Type} (item : Reader α) (closing : Char) : Nat → Reader (List α)
  | 0 => failure
  | fuel + 1 => do
      gap
      if ← accept closing then return []
      let first ← item
      gap
      if ← accept ',' then return first :: (← items item closing fuel)
      expect closing
      return [first]

/-- Reads a key and its value. What `between` reads may surround the equals sign. -/
def entry (between : Reader Unit) (value : Reader Value) : Reader (List String × Value) := do
  let key ← dottedKey
  between
  expect '='
  between
  return (key, ← value)

/-- Reads a quoted text or an unquoted scalar. -/
def simpleValue : Reader Value := do
  match ← peek with
  | some '"' | some '\'' => return .str (String.ofList (← quotedText))
  | _ => scalar

/-- Reads a value in which brackets and braces stand inside each other up to a depth. -/
def valueUpTo : Nat → Reader Value
  | 0 => simpleValue
  | depth + 1 => do
      match ← peek with
      | some '[' =>
          expect '['
          return .list (← items (valueUpTo depth) ']' (← get).length)
      | some '\x7b' =>
          expect '\x7b'
          let pairs ← items (entry gap (valueUpTo depth)) '\x7d' (← get).length
          let entries ← Entries.putAll [] pairs
          return .table (entriesToValues entries)
      | _ => simpleValue

def value : Reader Value := valueUpTo maxDepth

inductive Statement where
  /-- The header of a table. -/
  | table (path : List String)
  /-- The header of one more table in a list. -/
  | next (path : List String)
  | entry (path : List String) (value : Value)
  deriving Repr

/-- Reads a line, which may hold no statement. -/
def statement? : Reader (Option Statement) := do
  spaces
  match ← get with
  | '[' :: '[' :: rest =>
      set rest
      let path ← dottedKey
      expect ']'
      expect ']'
      lineEnd
      return some (.next path)
  | '[' :: rest =>
      set rest
      let path ← dottedKey
      expect ']'
      lineEnd
      return some (.table path)
  | cs =>
      if cs.isEmpty || cs.head? == some '#' || startsWithBreak cs then
        lineEnd
        return none
      let (path, value) ← entry spaces value
      lineEnd
      return some (.entry path value)

/-- The statements on so many lines at most. -/
def statements : Nat → List Char → Option (List Statement)
  | _, [] => some []
  | 0, _ => none
  | fuel + 1, cs => do
      let (first, rest) ← statement?.run cs
      return first.toList ++ (← statements fuel rest)

/-- The table opened last and the whole table so far. -/
structure Building where
  path : List String
  root : Entries
  deriving Repr

/-- Carries out a statement. -/
def Building.apply (b : Building) : Statement → Option Building
  | .table path => do
      return ⟨path, ← b.root.openTable path.dropLast (← path.getLast?)⟩
  | .next path => do
      return ⟨path, ← b.root.openNext path.dropLast (← path.getLast?)⟩
  | .entry path value => do
      return { b with root := ← b.root.under (Entries.put value path) b.path }

/-- The table that a document describes; nothing if it is not well formed. -/
def read (text : String) : Option Value := do
  let cs := match text.toList with
    | '\ufeff' :: cs => cs
    | cs => cs
  let building ← (← statements cs.length cs).foldlM Building.apply ⟨[], []⟩
  return .table (entriesToValues building.root)

end ExprVet.Data.Toml
