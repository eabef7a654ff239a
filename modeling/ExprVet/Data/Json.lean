import ExprVet.Data.Value

/-! # Data as JSON text

Lists and tables are spread over lines, each level two spaces deeper than the one around it; empty
ones stay on their line. -/

namespace ExprVet.Data.Json

def hexDigit (n : Nat) : Char := (Nat.toDigits 16 (n % 16)).headD '0'

/-- The written form of one character in a JSON string. -/
def escapeChar (c : Char) : List Char :=
  match c with
  | '"' => ['\\', '"']
  | '\\' => ['\\', '\\']
  | '\x08' => ['\\', 'b']
  | '\x0c' => ['\\', 'f']
  | '\n' => ['\\', 'n']
  | '\r' => ['\\', 'r']
  | '\t' => ['\\', 't']
  | c =>
      if c.toNat < 0x20 then
        ['\\', 'u', '0', '0', hexDigit (c.toNat / 16), hexDigit c.toNat]
      else [c]

def quoted (text : String) : String :=
  String.ofList ('"' :: text.toList.flatMap escapeChar ++ ['"'])

/-- The start of a line at a level of nesting. -/
def lineStart (level : Nat) : String := String.ofList ('\n' :: List.replicate (2 * level) ' ')

/-- Puts written items between brackets, each on a line of its own. -/
def bracketed (opening closing : String) (level : Nat) : List String → String
  | [] => opening ++ closing
  | items =>
      opening ++ ",".intercalate (items.map (lineStart (level + 1) ++ ·)) ++ lineStart level ++
        closing

mutual

/-- The text of a value that stands at a level of nesting. -/
def textAt (level : Nat) : Value → String
  | .null | .opaqueScalar => "null"
  | .bool true => "true"
  | .bool false => "false"
  | .int n => toString n
  | .str s => quoted s
  | .list items => bracketed "[" "]" level (itemTexts (level + 1) items)
  | .table entries => bracketed "\x7b" "\x7d" level (entryTexts (level + 1) entries)

def itemTexts (level : Nat) : List Value → List String
  | [] => []
  | item :: items => textAt level item :: itemTexts level items

def entryTexts (level : Nat) : List (String × Value) → List String
  | [] => []
  | (key, value) :: entries =>
      (quoted key ++ ": " ++ textAt level value) :: entryTexts level entries

end

def text (value : Value) : String := textAt 0 value

end ExprVet.Data.Json
