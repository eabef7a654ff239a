import ExprVet.Calc.Token

/-! # Syntax of calc

A snippet is a calc expression. To be checked it is the body of a lambda whose header declares the
variables and the result type, `|a: Int, b: Str| -> Bool {body}`. Every node has the place it was
read from. -/

namespace ExprVet.Calc

/-- A type as written: a dotted path with optional arguments. -/
structure TypeRef where
  path : String
  args : List TypeRef
  span : Span
  deriving Repr

structure Param where
  name : String
  type : TypeRef
  span : Span
  deriving Repr

inductive Literal where
  | int (value : Nat)
  | float (value : Numeral)
  | str (value : String)
  | bool (value : Bool)
  deriving DecidableEq, Repr

inductive UnaryOp where
  | neg | not
  deriving DecidableEq, Repr

inductive BinaryOp where
  | add | sub | mul | div | rem | eq | notEq | lt | gt | ltEq | gtEq | and | or
  deriving DecidableEq, Repr

inductive Expr where
  | literal (value : Literal) (span : Span)
  | ident (name : String) (span : Span)
  | unary (op : UnaryOp) (operand : Expr) (span : Span)
  | binary (op : BinaryOp) (left right : Expr) (span : Span)
  | conditional (condition thenBranch elseBranch : Expr) (span : Span)
  | call (callee : String) (calleeSpan : Span) (args : List Expr) (span : Span)
  deriving Repr

structure Lambda where
  params : List Param
  ret : TypeRef
  body : Expr
  /-- The byte just after the opening brace of the body. -/
  bodyOffset : Nat
  deriving Repr

/-- `name<first, second>`, or the name alone where there are no arguments. -/
def applied (name : String) : List String → String
  | [] => name
  | args => name ++ "<" ++ ", ".intercalate args ++ ">"

mutual

/-- The type as it is named in messages. -/
def TypeRef.text : TypeRef → String
  | ⟨path, args, _⟩ => applied path (TypeRef.texts args)

def TypeRef.texts : List TypeRef → List String
  | [] => []
  | type :: types => type.text :: TypeRef.texts types

end

def UnaryOp.text : UnaryOp → String
  | neg => "-"
  | not => "!"

def BinaryOp.text : BinaryOp → String
  | add => "+"
  | sub => "-"
  | mul => "*"
  | div => "/"
  | rem => "%"
  | eq => "=="
  | notEq => "!="
  | lt => "<"
  | gt => ">"
  | ltEq => "<="
  | gtEq => ">="
  | and => "&&"
  | or => "||"

namespace Expr

def span : Expr → Span
  | literal _ span | ident _ span | unary _ _ span | binary _ _ _ span
  | conditional _ _ _ span | call _ _ _ span => span

/-- A binary expression reaches from the start of its left operand to the end of its right one. -/
def joined (op : BinaryOp) (left right : Expr) : Expr :=
  binary op left right (left.span.join right.span)

def isZeroLiteral : Expr → Bool
  | literal (.int value) _ => value == 0
  | literal (.float value) _ => value.value.isZero
  | _ => false

mutual

/-- Whether a variable occurs anywhere in the expression. -/
def mentionsVariable : Expr → Bool
  | literal _ _ => false
  | ident _ _ => true
  | unary _ operand _ => operand.mentionsVariable
  | binary _ left right _ => left.mentionsVariable || right.mentionsVariable
  | conditional condition thenBranch elseBranch _ =>
      condition.mentionsVariable || thenBranch.mentionsVariable || elseBranch.mentionsVariable
  | call _ _ args _ => anyMentionsVariable args

def anyMentionsVariable : List Expr → Bool
  | [] => false
  | arg :: args => arg.mentionsVariable || anyMentionsVariable args

end

end Expr

end ExprVet.Calc
