import ExprVet.Calc.Parser.Type

/-! # Parsing expressions

Loosest binding first:

```text
expr        = conjunction { "||" conjunction }
conjunction = comparison { "&&" comparison }
comparison  = sum [ cmp_op sum ]
sum         = product { ("+" | "-") product }
product     = unary { ("*" | "/" | "%") unary }
unary       = { "-" | "!" } atom
atom        = literal | call | ident | if_expr | "(" expr ")"
call        = ident "(" [ expr { "," expr } [ "," ] ] ")"
```

Comparisons do not chain. Each level takes the parser for whole expressions as an argument; it is
used only after a token, so the tokens that are left bound the depth. -/

namespace ExprVet.Calc.Parser

def literalToken : Token → Option Literal
  | .int value => some (.int value)
  | .float value => some (.float value)
  | .str value => some (.str value)
  | .kwTrue => some (.bool true)
  | .kwFalse => some (.bool false)
  | _ => none

def prefixToken : Token → Option UnaryOp
  | .minus => some .neg
  | .bang => some .not
  | _ => none

def productToken : Token → Option BinaryOp
  | .star => some .mul
  | .slash => some .div
  | .percent => some .rem
  | _ => none

def sumToken : Token → Option BinaryOp
  | .plus => some .add
  | .minus => some .sub
  | _ => none

def comparisonToken : Token → Option BinaryOp
  | .eqEq => some .eq
  | .notEq => some .notEq
  | .lt => some .lt
  | .gt => some .gt
  | .ltEq => some .ltEq
  | .gtEq => some .gtEq
  | _ => none

/-- An operand with the operators and operands after it, grouped to the left. -/
def chain (operand : Parser Expr) (op : Parser BinaryOp) : Parser Expr := do
  let first ← operand
  let more ← many do
    let op ← op
    return (op, ← operand)
  return more.foldl (fun left (op, right) => .joined op left right) first

def operator (accept : Token → Option BinaryOp) : Parser BinaryOp := do
  let (op, _) ← select accept
  return op

def name : Parser (String × Span) := labelled .identifier (select identToken)

def literal : Parser Expr := labelled .literal do
  let (value, span) ← select literalToken
  return .literal value span

def variableName : Parser Expr := do
  let (name, span) ← name
  return .ident name span

section Levels

variable (expr : Parser Expr)

def arguments : Parser (List Expr) := do
  let _ ← token .lparen
  let args ← separatedOrNone expr (token .comma)
  let _ ← token .rparen
  return args

def call : Parser Expr := labelled .call do
  let (((callee, calleeSpan), args), span) ← spanned do
    let callee ← name
    return (callee, ← arguments expr)
  return .call callee calleeSpan args span

def conditional : Parser Expr := labelled .conditional do
  let ((condition, thenBranch, elseBranch), span) ← spanned do
    let _ ← token .kwIf
    let condition ← expr
    let _ ← token .kwThen
    let thenBranch ← expr
    let _ ← token .kwElse
    return (condition, thenBranch, ← expr)
  return .conditional condition thenBranch elseBranch span

def parenthesised : Parser Expr := do
  let _ ← token .lparen
  let inner ← expr
  let _ ← token .rparen
  return inner

def atom : Parser Expr :=
  orElse literal <| orElse (call expr) <| orElse variableName <|
    orElse (conditional expr) (parenthesised expr)

def unary : Parser Expr := do
  let ops ← many (select prefixToken)
  let operand ← atom expr
  return ops.foldr (fun (op, span) operand => .unary op operand (span.join operand.span)) operand

def product : Parser Expr := chain (unary expr) (operator productToken)

def sum : Parser Expr := chain (product expr) (operator sumToken)

def comparison : Parser Expr := do
  let left ← sum expr
  let right ← optional do
    let op ← operator comparisonToken
    return (op, ← sum expr)
  return match right with
    | some (op, right) => .joined op left right
    | none => left

def conjunction : Parser Expr :=
  chain (comparison expr) (do let _ ← token .and; return .and)

def disjunction : Parser Expr :=
  chain (conjunction expr) (do let _ ← token .or; return .or)

end Levels

/-- Expressions nested at most `depth` deep. -/
def exprUpTo : Nat → Parser Expr
  | 0 => fail
  | depth + 1 => labelled .expression (disjunction (exprUpTo depth))

/-- An expression. -/
def expr : Parser Expr := fun cursor => exprUpTo (cursor.rest.length + 1) cursor

end ExprVet.Calc.Parser
