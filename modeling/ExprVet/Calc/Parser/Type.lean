import ExprVet.Calc.Expr
import ExprVet.Calc.Parser

/-! # Parsing types

```text
type = ident { "." ident } [ "<" type { "," type } ">" ]
```
-/

namespace ExprVet.Calc.Parser

def identToken : Token → Option String
  | .ident name => some name
  | _ => none

/-- A dotted path as one text. -/
def path : Parser String := do
  let segments ← separated (select identToken) (token .dot)
  return ".".intercalate (segments.map Prod.fst)

/-- A type whose arguments are read by `inner`. -/
def typeWith (inner : Parser TypeRef) : Parser TypeRef := do
  let ((path, args), span) ← spanned do
    let path ← path
    let args ← optional do
      let _ ← token .lt
      let args ← separated inner (token .comma)
      let _ ← token .gt
      return args
    return (path, args.getD [])
  return ⟨path, args, span⟩

/-- Types nested at most `depth` deep. -/
def typeUpTo : Nat → Parser TypeRef
  | 0 => fail
  | depth + 1 => typeWith (typeUpTo depth)

/-- A type. Each level of nesting takes a token, so the tokens that are left bound the depth. -/
def type : Parser TypeRef :=
  labelled .type fun cursor => typeUpTo (cursor.rest.length + 1) cursor

end ExprVet.Calc.Parser
