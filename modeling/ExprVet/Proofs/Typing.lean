import ExprVet.Calc.Checker
import ExprVet.Proofs.Inheritance

/-!
# The typing rules of calc

The rules say which expressions have which type, without the order in which a checker looks at them
and without a stand-in for types that cannot be told. They are stated over whatever declares the
variables.

## Implementation notes

Two exported types may inherit from each other. The branches of a conditional then fit both ways and
the branch after `else` decides, so an expression has at most one type.
-/

namespace ExprVet.Calc

inductive Numeric : ValueType → Prop
  | int : Numeric .int
  | float : Numeric .float

/-- The type of an arithmetic result. -/
inductive ArithmeticRule : ValueType → ValueType → ValueType → Prop
  | int : ArithmeticRule .int .int .int
  | float {left right : ValueType} (hl : Numeric left) (hr : Numeric right)
      (h : ¬ (left = .int ∧ right = .int)) : ArithmeticRule left right .float

inductive UnaryRule : UnaryOp → ValueType → ValueType → Prop
  | neg {type : ValueType} (h : Numeric type) : UnaryRule .neg type type
  | not : UnaryRule .not .bool .bool

inductive BinaryRule : BinaryOp → ValueType → ValueType → ValueType → Prop
  | concat : BinaryRule .add .str .str .str
  | arithmetic {op : BinaryOp} {left right type : ValueType}
      (hop : op ∈ [BinaryOp.add, .sub, .mul, .div, .rem]) (h : ArithmeticRule left right type) :
      BinaryRule op left right type
  | equality {op : BinaryOp} {left right : ValueType} (hop : op ∈ [BinaryOp.eq, .notEq])
      (h : left = right ∨ (Numeric left ∧ Numeric right) ∨ left = .any ∨ right = .any) :
      BinaryRule op left right .bool
  | ordering {op : BinaryOp} {left right : ValueType}
      (hop : op ∈ [BinaryOp.lt, .gt, .ltEq, .gtEq])
      (h : (Numeric left ∧ Numeric right) ∨ (left = .str ∧ right = .str)) :
      BinaryRule op left right .bool
  | logic {op : BinaryOp} (hop : op ∈ [BinaryOp.and, .or]) : BinaryRule op .bool .bool .bool

/-- The common type of two branches. -/
inductive CommonType (exports : Exports) : ValueType → ValueType → ValueType → Prop
  | same (type : ValueType) : CommonType exports type type type
  | mixed {first second : ValueType} (hf : Numeric first) (hs : Numeric second)
      (hne : first ≠ second) : CommonType exports first second .float
  | second {first second : ValueType} (hne : first ≠ second)
      (hnum : ¬ (Numeric first ∧ Numeric second)) (h : Assignable exports first second) :
      CommonType exports first second second
  | first {first second : ValueType} (hne : first ≠ second)
      (hnum : ¬ (Numeric first ∧ Numeric second)) (hnot : ¬ Assignable exports first second)
      (h : Assignable exports second first) : CommonType exports first second first

/-- The signatures of the builtin functions. -/
inductive CallRule : String → List ValueType → ValueType → Prop
  | len : CallRule "len" [.str] .int
  | upper : CallRule "upper" [.str] .str
  | lower : CallRule "lower" [.str] .str
  | str (type : ValueType) : CallRule "str" [type] .str
  | abs {type : ValueType} (h : Numeric type) : CallRule "abs" [type] type
  | min {left right type : ValueType} (h : ArithmeticRule left right type) :
      CallRule "min" [left, right] type
  | max {left right type : ValueType} (h : ArithmeticRule left right type) :
      CallRule "max" [left, right] type

mutual

/-- An expression has a type, for variables declared with their types. -/
inductive HasType (exports : Exports) (declares : String → ValueType → Prop) :
    Expr → ValueType → Prop
  | int (value : Nat) (span : Span) : HasType exports declares (.literal (.int value) span) .int
  | float (value : Numeral) (span : Span) :
      HasType exports declares (.literal (.float value) span) .float
  | str (value : String) (span : Span) :
      HasType exports declares (.literal (.str value) span) .str
  | bool (value : Bool) (span : Span) :
      HasType exports declares (.literal (.bool value) span) .bool
  | ident {name : String} {type : ValueType} (span : Span) (h : declares name type) :
      HasType exports declares (.ident name span) type
  | unary {op : UnaryOp} {operand : Expr} {inner type : ValueType} (span : Span)
      (ho : HasType exports declares operand inner) (h : UnaryRule op inner type) :
      HasType exports declares (.unary op operand span) type
  | binary {op : BinaryOp} {left right : Expr} {first second type : ValueType} (span : Span)
      (hl : HasType exports declares left first) (hr : HasType exports declares right second)
      (h : BinaryRule op first second type) :
      HasType exports declares (.binary op left right span) type
  | conditional {condition thenBranch elseBranch : Expr} {first second type : ValueType}
      (span : Span) (hc : HasType exports declares condition .bool)
      (ht : HasType exports declares thenBranch first)
      (he : HasType exports declares elseBranch second) (h : CommonType exports first second type) :
      HasType exports declares (.conditional condition thenBranch elseBranch span) type
  | call {callee : String} {args : List Expr} {types : List ValueType} {type : ValueType}
      (calleeSpan span : Span) (ha : HasTypes exports declares args types)
      (h : CallRule callee types type) : HasType exports declares (.call callee calleeSpan args span) type

inductive HasTypes (exports : Exports) (declares : String → ValueType → Prop) :
    List Expr → List ValueType → Prop
  | nil : HasTypes exports declares [] []
  | cons {arg : Expr} {args : List Expr} {type : ValueType} {types : List ValueType}
      (h : HasType exports declares arg type) (hs : HasTypes exports declares args types) :
      HasTypes exports declares (arg :: args) (type :: types)

end

mutual

/-- A written type denotes a type: a primitive type by its name, or an exported type. -/
inductive Denotes (exports : Exports) : TypeRef → ValueType → Prop
  | primitive {path : String} {type : ValueType} (span : Span)
      (h : ValueType.primitive? path = some type) : Denotes exports ⟨path, [], span⟩ type
  | exported {path : String} {args : List TypeRef} {types : List ValueType} {bases : List String}
      (span : Span) (hp : ValueType.primitive? path = none ∨ args ≠ [])
      (hl : exports.lookup path = some bases) (ha : DenotesAll exports args types) :
      Denotes exports ⟨path, args, span⟩ (.named path types)

inductive DenotesAll (exports : Exports) : List TypeRef → List ValueType → Prop
  | nil : DenotesAll exports [] []
  | cons {arg : TypeRef} {args : List TypeRef} {type : ValueType} {types : List ValueType}
      (h : Denotes exports arg type) (hs : DenotesAll exports args types) :
      DenotesAll exports (arg :: args) (type :: types)

end

/-- The parameters declare a variable with a type; of two with one name the later does. -/
def Declares (exports : Exports) (params : List Param) (name : String) (type : ValueType) : Prop :=
  ∃ param, params.reverse.find? (·.name == name) = some param ∧ Denotes exports param.type type

/-- A lambda whose body has a type that may be used where its result type is expected. -/
def WellTyped (exports : Exports) (lambda : Lambda) (type : ValueType) : Prop :=
  HasType exports (Declares exports lambda.params) lambda.body type ∧
    ∃ ret, Denotes exports lambda.ret ret ∧ Assignable exports type ret

end ExprVet.Calc
