/-! # Builtin functions of calc -/

namespace ExprVet.Calc

inductive Builtin where
  | len | upper | lower | str | abs | min | max
  deriving DecidableEq, Repr

namespace Builtin

def text : Builtin → String
  | len => "len"
  | upper => "upper"
  | lower => "lower"
  | str => "str"
  | abs => "abs"
  | min => "min"
  | max => "max"

def ofName? : String → Option Builtin
  | "len" => some len
  | "upper" => some upper
  | "lower" => some lower
  | "str" => some str
  | "abs" => some abs
  | "min" => some min
  | "max" => some max
  | _ => none

@[simp] theorem ofName?_text (builtin : Builtin) : ofName? builtin.text = some builtin := by
  cases builtin <;> rfl

/-- The number of arguments. -/
def arity : Builtin → Nat
  | min | max => 2
  | _ => 1

end Builtin

end ExprVet.Calc
