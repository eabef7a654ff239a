import ExprVet.Calc.Builtin
import ExprVet.Calc.ValueType
import ExprVet.Diagnostic

/-! # Findings of the checker

| code | severity | meaning |
|------|----------|---------|
| E001 | error    | syntax error |
| E002 | error    | unknown type |
| E100 | error    | undeclared identifier |
| E104 | error    | unknown function |
| E105 | error    | wrong argument count |
| E200 | error    | type mismatch in an operator or argument |
| E201 | error    | non-boolean condition |
| E202 | error    | mismatched `if` branches |
| E300 | error    | result not convertible to the return type |
| W300 | warning  | division by literal zero |
| W400 | warning  | imported namespace provided by no referenced module |
| I001 | info     | constant expression |
-/

namespace ExprVet.Calc

inductive Finding where
  | syntaxError (message : String)
  | unknownType (path : String)
  | undeclared (name : String)
  | unknownFunction (callee : String)
  | argumentCount (callee : String) (arity found : Nat)
  | unaryOperand (op : UnaryOp) (operand : ValueType)
  | binaryOperands (op : BinaryOp) (left right : ValueType)
  | argumentType (callee : String) (position : Nat) (expected found : ValueType)
  | argumentNotNumeric (callee : String) (position : Nat) (found : ValueType)
  | conditionType (found : ValueType)
  | branchTypes (thenBranch elseBranch : ValueType)
  | resultType (found expected : ValueType)
  | zeroDivision
  | missingNamespace (name : String)
  | constant
  deriving DecidableEq, Repr

namespace Finding

def severity : Finding → Severity
  | zeroDivision | missingNamespace _ => .warning
  | constant => .info
  | _ => .error

def code : Finding → String
  | syntaxError _ => "E001"
  | unknownType _ => "E002"
  | undeclared _ => "E100"
  | unknownFunction _ => "E104"
  | argumentCount _ _ _ => "E105"
  | unaryOperand _ _ | binaryOperands _ _ _ => "E200"
  | argumentType _ _ _ _ | argumentNotNumeric _ _ _ => "E200"
  | conditionType _ => "E201"
  | branchTypes _ _ => "E202"
  | resultType _ _ => "E300"
  | zeroDivision => "W300"
  | missingNamespace _ => "W400"
  | constant => "I001"

private def ticked (text : String) : String := "`" ++ text ++ "`"

def message : Finding → String
  | syntaxError message => message
  | unknownType path => "unknown type " ++ ticked path ++ "; no referenced module exports it"
  | undeclared name => "undeclared identifier " ++ ticked name
  | unknownFunction callee => "unknown function " ++ ticked callee
  | argumentCount callee arity found =>
      ticked callee ++ " expects " ++ toString arity ++ " argument" ++
        (if arity = 1 then "" else "s") ++ ", found " ++ toString found
  | unaryOperand op operand =>
      "operator " ++ ticked op.text ++ " cannot be applied to " ++ ticked operand.text
  | binaryOperands op left right =>
      "operator " ++ ticked op.text ++ " cannot be applied to " ++ ticked left.text ++ " and " ++
        ticked right.text
  | argumentType callee position expected found =>
      "argument " ++ toString position ++ " of " ++ ticked callee ++ " must be " ++
        ticked expected.text ++ ", found " ++ ticked found.text
  | argumentNotNumeric callee position found =>
      "argument " ++ toString position ++ " of " ++ ticked callee ++ " must be numeric, found " ++
        ticked found.text
  | conditionType found => "condition must be `Bool`, found " ++ ticked found.text
  | branchTypes thenBranch elseBranch =>
      "`if` branches have mismatched types " ++ ticked thenBranch.text ++ " and " ++
        ticked elseBranch.text
  | resultType found expected =>
      "expression of type " ++ ticked found.text ++ " cannot be converted to " ++
        ticked expected.text
  | zeroDivision => "division by literal zero"
  | missingNamespace name =>
      "namespace " ++ ticked name ++ " is not provided by any referenced module"
  | constant => "expression is constant"

end Finding

/-- A finding with its place in the checked source, if it has one. -/
structure Located where
  finding : Finding
  span : Option Span
  deriving DecidableEq, Repr

def Finding.at (finding : Finding) (span : Span) : Located := ⟨finding, some span⟩

end ExprVet.Calc
