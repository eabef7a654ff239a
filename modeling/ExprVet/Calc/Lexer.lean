import ExprVet.Calc.Token
import ExprVet.Text.Bytes

/-! # Reading tokens

Tokens are read from left to right, each as long as possible, and blanks between them are skipped.
Text that starts no token becomes an error token as long as the part of it that could still have
become one, so reading never fails and loses nothing but blanks. -/

namespace ExprVet.Calc

/-- The blanks that separate tokens: space, tab, carriage return, newline and form feed. -/
def isSeparator (c : Char) : Bool :=
  c == ' ' || c == '\t' || c == '\r' || c == '\n' || c == '\x0c'

def isDigit (c : Char) : Bool := '0' ≤ c && c ≤ '9'

def isNameStart (c : Char) : Bool :=
  ('A' ≤ c && c ≤ 'Z') || ('a' ≤ c && c ≤ 'z') || c == '_'

def isNameChar (c : Char) : Bool := isNameStart c || isDigit c

/-- The largest value of an integer literal. -/
def maxInt : Nat := 0x7fff_ffff_ffff_ffff

/-- A word is a keyword or a name. -/
def wordToken (word : List Char) : Token :=
  match String.ofList word with
  | "if" => .kwIf
  | "then" => .kwThen
  | "else" => .kwElse
  | "true" => .kwTrue
  | "false" => .kwFalse
  | name => .ident name

/-- The contents of a string literal with its escapes resolved; nothing for an unknown escape. -/
def unescape : List Char → Option (List Char)
  | [] => some []
  | '\\' :: 'n' :: cs => (unescape cs).map ('\n' :: ·)
  | '\\' :: 't' :: cs => (unescape cs).map ('\t' :: ·)
  | '\\' :: '\\' :: cs => (unescape cs).map ('\\' :: ·)
  | '\\' :: '"' :: cs => (unescape cs).map ('"' :: ·)
  | c :: cs => if c = '\\' then none else (unescape cs).map (c :: ·)

/-- The extent of a string literal, counted from after its opening quote. -/
inductive StringEnd where
  /-- The literal ends with a quote after this many characters of contents. -/
  | closed (contents : Nat)
  /-- No literal can be completed beyond this many characters. -/
  | unclosed (length : Nat)
  deriving DecidableEq, Repr

def StringEnd.add (n : Nat) : StringEnd → StringEnd
  | closed contents => closed (contents + n)
  | unclosed length => unclosed (length + n)

/-- Where the string literal ends whose opening quote stands just before the text.
A backslash takes the next character with it, but not a newline. -/
def stringEnd : List Char → StringEnd
  | [] => .unclosed 0
  | '"' :: _ => .closed 0
  | '\\' :: c :: cs => if c = '\n' then .unclosed 1 else (stringEnd cs).add 2
  | '\\' :: [] => .unclosed 1
  | _ :: cs => (stringEnd cs).add 1

/-- A token that is one character longer when `next` follows. -/
def orLonger (next : Char) (long short : Token) : List Char → Token × Nat
  | c :: _ => if c = next then (long, 1) else (short, 0)
  | [] => (short, 0)

/-- The number literal that starts with digit `c`. -/
def numberToken (c : Char) (cs : List Char) : Token × Nat :=
  let digits := cs.takeWhile isDigit
  let fraction := match cs.drop digits.length with
    | '.' :: rest => rest.takeWhile isDigit
    | _ => []
  if fraction.isEmpty then
    let value := digitsValue (c :: digits)
    (if value ≤ maxInt then .int value else .error, digits.length)
  else (.float ⟨c :: digits, fraction⟩, digits.length + 1 + fraction.length)

/-- The string literal whose opening quote stands just before the text. -/
def stringToken (cs : List Char) : Token × Nat :=
  match stringEnd cs with
  | .closed contents =>
      (((unescape (cs.take contents)).map fun text => .str (String.ofList text)).getD .error,
        contents + 1)
  | .unclosed length => (.error, length)

/-- The token that starts with the separator-free character `c`, and how many characters of the
text after `c` belong to it. -/
def firstToken (c : Char) (cs : List Char) : Token × Nat :=
  if isNameStart c then
    let word := cs.takeWhile isNameChar
    (wordToken (c :: word), word.length)
  else if isDigit c then numberToken c cs
  else match c with
    | '"' => stringToken cs
    | '|' => orLonger '|' .or .pipe cs
    | '-' => orLonger '>' .arrow .minus cs
    | '<' => orLonger '=' .ltEq .lt cs
    | '>' => orLonger '=' .gtEq .gt cs
    | '!' => orLonger '=' .notEq .bang cs
    | '=' => orLonger '=' .eqEq .error cs
    | '&' => orLonger '&' .and .error cs
    | ':' => (.colon, 0)
    | ',' => (.comma, 0)
    | '.' => (.dot, 0)
    | '(' => (.lparen, 0)
    | ')' => (.rparen, 0)
    | '\x7b' => (.lbrace, 0)
    | '\x7d' => (.rbrace, 0)
    | '+' => (.plus, 0)
    | '*' => (.star, 0)
    | '/' => (.slash, 0)
    | '%' => (.percent, 0)
    | _ => (.error, 0)

/-- The tokens of a text whose first byte is byte `offset` of the source. -/
def lexemes (offset : Nat) : List Char → List Lexeme
  | [] => []
  | c :: cs =>
      if isSeparator c then lexemes (offset + c.utf8Size) cs
      else
        let (token, more) := firstToken c cs
        let text := c :: cs.take more
        let stop := offset + Text.byteLength text
        ⟨token, text, ⟨offset, stop⟩⟩ :: lexemes stop (cs.drop more)
termination_by cs => cs.length
decreasing_by all_goals simp; try omega

/-- The tokens of a source text. -/
def tokenize (source : String) : List Lexeme := lexemes 0 source.toList

end ExprVet.Calc
