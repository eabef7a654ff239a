import ExprVet.Calc.Finding
import ExprVet.Calc.Tree

/-! # Checking a wrapper

The header of a wrapper declares the variables and the result type; the body is given a type from
them. Checking a node yields its type and everything found in it, what is found in its parts first.
A node whose type cannot be told has the type `unknown`, about which nothing further is found. -/

namespace ExprVet.Calc

/-- What the checker knows of the referenced modules. -/
structure Surroundings where
  exports : Exports
  namespaces : List String
  deriving Repr

def Surroundings.ofModules (modules : List ModuleInfo) : Surroundings :=
  ⟨.ofModules modules, modules.flatMap (·.namespaces)⟩

/-- Declared variables; of two with one name the first counts. -/
abbrev Variables := List (String × ValueType)

/-- A value together with what was found on the way to it. -/
abbrev Checked (α : Type) := α × List Located

mutual

/-- The type that a written type denotes. -/
def resolveType (exports : Exports) : TypeRef → Checked ValueType
  | ⟨path, args, span⟩ =>
      match ValueType.primitive? path, args with
      | some type, [] => (type, [])
      | _, _ =>
          match exports.lookup path with
          | none => (.unknown, [(Finding.unknownType path).at span])
          | some _ =>
              let (args, found) := resolveTypes exports args
              (.named path args, found)

def resolveTypes (exports : Exports) : List TypeRef → Checked (List ValueType)
  | [] => ([], [])
  | type :: types =>
      let (first, found) := resolveType exports type
      let (rest, more) := resolveTypes exports types
      (first :: rest, found ++ more)

end

/-- The type of an arithmetic result, for numeric operands. -/
def arithmetic (left right : ValueType) : Option ValueType :=
  match left, right with
  | .int, .int => some .int
  | _, _ => if left.isNumeric && right.isNumeric then some .float else none

/-- The type of a binary expression, for operands that the operator accepts. -/
def BinaryOp.result (op : BinaryOp) (left right : ValueType) : Option ValueType :=
  let boolWhen (holds : Bool) := if holds then some ValueType.bool else none
  match op with
  | .add => if left = .str ∧ right = .str then some .str else arithmetic left right
  | .sub | .mul | .div | .rem => arithmetic left right
  | .eq | .notEq =>
      boolWhen (left = right || (left.isNumeric && right.isNumeric) || left = .any || right = .any)
  | .lt | .gt | .ltEq | .gtEq =>
      boolWhen ((left.isNumeric && right.isNumeric) || (left = .str && right = .str))
  | .and | .or => boolWhen (left = .bool && right = .bool)

/-- The type of a binary expression with an operand of unknown type. -/
def BinaryOp.unknownResult : BinaryOp → ValueType
  | .add | .sub | .mul | .div | .rem => .unknown
  | _ => .bool

def BinaryOp.divides : BinaryOp → Bool
  | .div | .rem => true
  | _ => false

def checkUnary (op : UnaryOp) (operand : ValueType) (span : Span) : Checked ValueType :=
  match op, operand with
  | _, .unknown => (.unknown, [])
  | .neg, .int => (.int, [])
  | .neg, .float => (.float, [])
  | .not, .bool => (.bool, [])
  | _, _ => (.unknown, [(Finding.unaryOperand op operand).at span])

def checkBinary (op : BinaryOp) (left right : ValueType) (span : Span) : Checked ValueType :=
  if left = .unknown ∨ right = .unknown then (op.unknownResult, [])
  else
    match op.result left right with
    | some type => (type, [])
    | none => (.unknown, [(Finding.binaryOperands op left right).at span])

/-- The common type of the branches of a conditional. -/
def checkBranches (exports : Exports) (thenBranch elseBranch : ValueType) (span : Span) :
    Checked ValueType :=
  if thenBranch = .unknown then (elseBranch, [])
  else if elseBranch = .unknown ∨ thenBranch = elseBranch then (thenBranch, [])
  else if thenBranch.isNumeric && elseBranch.isNumeric then (.float, [])
  else if exports.assignable thenBranch elseBranch then (elseBranch, [])
  else if exports.assignable elseBranch thenBranch then (thenBranch, [])
  else (.unknown, [(Finding.branchTypes thenBranch elseBranch).at span])

def checkCondition (condition : ValueType) (span : Span) : List Located :=
  if condition = .bool ∨ condition = .unknown then []
  else [(Finding.conditionType condition).at span]

def checkArgument (exports : Exports) (callee : String) (position : Nat)
    (expected found : ValueType) (span : Span) : List Located :=
  if exports.assignable found expected then []
  else [(Finding.argumentType callee position expected found).at span]

def checkNumeric (callee : String) (position : Nat) (found : ValueType) (span : Span) :
    List Located :=
  if found.isNumeric then [] else [(Finding.argumentNotNumeric callee position found).at span]

/-- The type of a call of a builtin with as many arguments as it takes. -/
def Builtin.apply (exports : Exports) (builtin : Builtin) (args : List (ValueType × Span)) :
    Checked ValueType :=
  let callee := builtin.text
  match builtin, args with
  | .len, [(type, span)] => (.int, checkArgument exports callee 1 .str type span)
  | .upper, [(type, span)] | .lower, [(type, span)] =>
      (.str, checkArgument exports callee 1 .str type span)
  | .str, [_] => (.str, [])
  | .abs, [(type, span)] =>
      if type.isNumeric ∨ type = .unknown then (type, [])
      else (.unknown, checkNumeric callee 1 type span)
  | .min, [(left, leftSpan), (right, rightSpan)] | .max, [(left, leftSpan), (right, rightSpan)] =>
      if left = .unknown ∨ right = .unknown then (.unknown, [])
      else
        match arithmetic left right with
        | some type => (type, [])
        | none =>
            (.unknown, checkNumeric callee 1 left leftSpan ++ checkNumeric callee 2 right rightSpan)
  | _, _ => (.unknown, [])

def checkCall (exports : Exports) (callee : String) (calleeSpan : Span)
    (args : List (ValueType × Span)) (span : Span) : Checked ValueType :=
  match Builtin.ofName? callee with
  | none => (.unknown, [(Finding.unknownFunction callee).at calleeSpan])
  | some builtin =>
      if args.length = builtin.arity then builtin.apply exports args
      else (.unknown, [(Finding.argumentCount callee builtin.arity args.length).at span])

mutual

/-- The type of an expression and what is found in it. -/
def infer (exports : Exports) (declared : Variables) : Expr → Checked ValueType
  | .literal (.int _) _ => (.int, [])
  | .literal (.float _) _ => (.float, [])
  | .literal (.str _) _ => (.str, [])
  | .literal (.bool _) _ => (.bool, [])
  | .ident name span =>
      match declared.lookup name with
      | some type => (type, [])
      | none => (.unknown, [(Finding.undeclared name).at span])
  | .unary op operand span =>
      let (type, inOperand) := infer exports declared operand
      let (result, found) := checkUnary op type span
      (result, inOperand ++ found)
  | .binary op left right span =>
      let (leftType, inLeft) := infer exports declared left
      let (rightType, inRight) := infer exports declared right
      let division :=
        if op.divides && right.isZeroLiteral then [Finding.zeroDivision.at right.span] else []
      let (result, found) := checkBinary op leftType rightType span
      (result, inLeft ++ inRight ++ division ++ found)
  | .conditional condition thenBranch elseBranch span =>
      let (conditionType, inCondition) := infer exports declared condition
      let (thenType, inThen) := infer exports declared thenBranch
      let (elseType, inElse) := infer exports declared elseBranch
      let (result, found) := checkBranches exports thenType elseType span
      (result, inCondition ++ checkCondition conditionType condition.span ++ inThen ++ inElse ++
        found)
  | .call callee calleeSpan args span =>
      let (types, inArgs) := inferAll exports declared args
      let (result, found) := checkCall exports callee calleeSpan types span
      (result, inArgs ++ found)

def inferAll (exports : Exports) (declared : Variables) :
    List Expr → Checked (List (ValueType × Span))
  | [] => ([], [])
  | arg :: args =>
      let (type, inArg) := infer exports declared arg
      let (types, inArgs) := inferAll exports declared args
      ((type, arg.span) :: types, inArg ++ inArgs)

end

/-- The variables that some parameters declare; of two with one name the later counts. -/
def declare (exports : Exports) (declared : Variables) : List Param → Checked Variables
  | [] => (declared, [])
  | param :: params =>
      let (type, found) := resolveType exports param.type
      let (all, more) := declare exports ((param.name, type) :: declared) params
      (all, found ++ more)

def Located.isError (located : Located) : Bool := located.finding.severity == .error

/-- What is found in the body of a lambda, for declared variables and a result type. -/
def checkBody (exports : Exports) (declared : Variables) (ret : ValueType) (body : Expr) :
    List Located :=
  let (type, found) := infer exports declared body
  let result :=
    if exports.assignable type ret then [] else [(Finding.resultType type ret).at body.span]
  let note :=
    if body.mentionsVariable || (found ++ result).any Located.isError then []
    else [Finding.constant.at body.span]
  found ++ result ++ note

def checkLambda (exports : Exports) (lambda : Lambda) : List Located :=
  let (declared, inParams) := declare exports [] lambda.params
  let (ret, inRet) := resolveType exports lambda.ret
  inParams ++ inRet ++ checkBody exports declared ret lambda.body

/-- Everything found in a tree, placed in its source. -/
def findings (tree : Tree) (modules : List ModuleInfo) (imports : List String) : List Located :=
  let surroundings := Surroundings.ofModules modules
  let inSyntax :=
    tree.syntaxErrors.map fun error => (Finding.syntaxError error.message).at error.span
  let missing := imports.filter (· ∉ surroundings.namespaces)
  let inLambda := (tree.lambda.map (checkLambda surroundings.exports)).getD []
  inSyntax ++ missing.map (fun name => ⟨.missingNamespace name, none⟩) ++ inLambda

/-- A finding as a diagnostic, placed in the snippet if it lies there. -/
def Located.toDiagnostic (tree : Tree) (located : Located) : Diagnostic :=
  ⟨located.finding.severity, located.finding.code, located.finding.message,
    located.span.bind tree.snippetSpan⟩

/-- The diagnostics of a tree against referenced modules and imported namespaces. -/
def check (tree : Tree) (modules : List ModuleInfo) (imports : List String) : List Diagnostic :=
  (findings tree modules imports).map (Located.toDiagnostic tree)

end ExprVet.Calc
