import ExprVet.Decimal.Text
import ExprVet.Span
import ExprVet.Text.Quoted

/-! # Tokens of calc

Calc expressions are read as tokens: keywords, literals, names, punctuation and operators. Text that
forms no token is kept as an error token, so that it can be reported where it stands. -/

namespace ExprVet.Calc

/-- The number that a text of ASCII digits denotes. -/
def digitsValue (digits : List Char) : Nat :=
  digits.foldl (fun n c => 10 * n + (c.toNat - '0'.toNat)) 0

/-- A decimal numeral as written: the digits before and after its point. -/
structure Numeral where
  whole : List Char
  fraction : List Char
  deriving DecidableEq, Repr

namespace Numeral

/-- The binary value nearest to the numeral. -/
def value (n : Numeral) : Decimal.Binary64 :=
  .ofQuotient (digitsValue (n.whole ++ n.fraction)) (Nat.pow 10 n.fraction.length)

def text (n : Numeral) : String := n.value.text .plain

end Numeral

inductive Token where
  | kwIf | kwThen | kwElse | kwTrue | kwFalse
  | float (value : Numeral)
  | int (value : Nat)
  | str (value : String)
  | ident (name : String)
  | pipe | arrow | colon | comma | dot | lparen | rparen | lbrace | rbrace
  | lt | gt | ltEq | gtEq | eqEq | notEq | and | or | bang | plus | minus | star | slash | percent
  /-- Text that forms no token. -/
  | error
  deriving DecidableEq, Repr

namespace Token

def isOperator : Token → Bool
  | lt | gt | ltEq | gtEq | eqEq | notEq | and | or | bang | plus | minus | star | slash
  | percent => true
  | _ => false

/-- The token as it is named in messages. -/
def text : Token → String
  | kwIf => "if"
  | kwThen => "then"
  | kwElse => "else"
  | kwTrue => "true"
  | kwFalse => "false"
  | float value => value.text
  | int value => toString value
  | str value => Text.quoted value
  | ident name => name
  | pipe => "|"
  | arrow => "->"
  | colon => ":"
  | comma => ","
  | dot => "."
  | lparen => "("
  | rparen => ")"
  | lbrace => "\x7b"
  | rbrace => "\x7d"
  | lt => "<"
  | gt => ">"
  | ltEq => "<="
  | gtEq => ">="
  | eqEq => "=="
  | notEq => "!="
  | and => "&&"
  | or => "||"
  | bang => "!"
  | plus => "+"
  | minus => "-"
  | star => "*"
  | slash => "/"
  | percent => "%"
  | error => "<error>"

end Token

/-- A token with the text it was read from and the place of that text. -/
structure Lexeme where
  token : Token
  text : List Char
  span : Span
  deriving DecidableEq, Repr

end ExprVet.Calc
