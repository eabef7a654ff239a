import ExprVet.Calc.Lexer
import ExprVet.Calc.Parser.Expr

/-! # Parsing lambdas

```text
lambda = ( "||" | "|" [ param { "," param } [ "," ] ] "|" ) "->" type "{" expr "}"
param  = ident ":" type
```

Error tokens are reported and set aside before the rest is parsed, so that one bad character does
not also become a parse error. -/

namespace ExprVet.Calc

/-- A syntax error with its place in the source. -/
structure SyntaxError where
  span : Span
  message : String
  deriving DecidableEq, Repr

def SyntaxError.text (error : SyntaxError) : String :=
  error.message ++ " at " ++ toString error.span.start ++ ".." ++ toString error.span.stop

namespace Parser

def parameter : Parser Param := labelled .parameter do
  let ((name, type), span) ← spanned do
    let (name, _) ← select identToken
    let _ ← token .colon
    return (name, ← type)
  return ⟨name, type, span⟩

def noParameters : Parser (List Param) := do
  let _ ← token .or
  return []

def parameters : Parser (List Param) := do
  let _ ← token .pipe
  let params ← separatedOrNone parameter (token .comma)
  let _ ← token .pipe
  return params

def lambda : Parser Lambda := labelled .wrapper do
  let params ← orElse noParameters parameters
  let _ ← token .arrow
  let ret ← type
  let brace ← token .lbrace
  let body ← expr
  let _ ← token .rbrace
  return ⟨params, ret, body, brace.stop⟩

/-- The value that all tokens form, or the pending expectations. -/
def run {α : Type} (p : Parser α) (start : Nat) (tokens : List Lexeme) :
    Except (Option Pending) α :=
  let whole : Parser α := do
    let value ← p
    endOfInput
    return value
  match whole ⟨start, tokens⟩ none with
  | (some (value, _), _) => .ok value
  | (none, pending) => .error pending

end Parser

/-- What is wrong with the text of an error token. -/
def lexicalMessage (text : List Char) : String :=
  match text with
  | '"' :: rest =>
      if rest.getLast? = some '"' then "invalid escape in string literal"
      else "unterminated string literal"
  | c :: _ =>
      if isDigit c then "integer literal `" ++ String.ofList text ++ "` out of range"
      else "unexpected character `" ++ String.ofList text ++ "`"
  | [] => "unexpected character ``"

/-- The error for an error token of a wrapper. The brace that closes the wrapper is not part of it.
-/
def lexicalError (close : Nat) (lexeme : Lexeme) : SyntaxError :=
  if close < lexeme.span.stop then
    ⟨⟨lexeme.span.start, close⟩, lexicalMessage lexeme.text.dropLast⟩
  else ⟨lexeme.span, lexicalMessage lexeme.text⟩

/-- The error of a failed parse: the place is the token found or, when none was left, the stretch
from the end of the source back to the end of the last token. -/
def parseError (sourceEnd : Nat) (tokens : List Lexeme) (pending : Pending) : SyntaxError :=
  let span := match pending.rest with
    | lexeme :: _ => lexeme.span
    | [] => ⟨sourceEnd, (tokens.getLast?.map (·.span.stop)).getD sourceEnd⟩
  ⟨span, pending.message⟩

/-- The lambda that the tokens of a wrapper form, if they do, and all syntax errors: those of the
error tokens in order, then at most one of the parse. -/
def parseWrapper (close sourceEnd : Nat) (lexemes : List Lexeme) :
    Option Lambda × List SyntaxError :=
  let (bad, good) := lexemes.partition (·.token == .error)
  let lexical := bad.map (lexicalError close)
  match Parser.lambda.run 0 good with
  | .ok lambda => (some lambda, lexical)
  | .error pending =>
      (none, lexical ++ (pending.map (parseError sourceEnd good)).toList)

end ExprVet.Calc
