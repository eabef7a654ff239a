import ExprVet.Calc.Expr
import ExprVet.Data.Value

/-! # Semantic types

A semantic type is how the host describes the type of a variable or of a result: a qualified name,
the module that defines it, its generic arguments and its direct bases. -/

namespace ExprVet

/-- The identity of a module. -/
abbrev ModuleId := String

/-- The module of the primitive types. -/
def coreModule : ModuleId := "core"

structure SemanticType where
  name : String
  module : ModuleId
  args : List SemanticType
  bases : List SemanticType
  deriving Repr, Inhabited

namespace SemanticType

def named (name : String) (module : ModuleId) : SemanticType := ⟨name, module, [], []⟩

def integer : SemanticType := named "core.Integer" coreModule
def float : SemanticType := named "core.Float" coreModule
def boolean : SemanticType := named "core.Boolean" coreModule
def string : SemanticType := named "core.String" coreModule
def object : SemanticType := named "core.Object" coreModule

mutual

/-- The name with its arguments. -/
def text : SemanticType → String
  | ⟨name, _, args, _⟩ => Calc.applied name (texts args)

def texts : List SemanticType → List String
  | [] => []
  | type :: types => type.text :: texts types

end

/-- The part of the name after its last dot. -/
def shortName (type : SemanticType) : String := (type.name.splitOn ".").getLastD type.name

/-- The part of the name before its last dot, if there is one. -/
def namespace? (type : SemanticType) : Option String :=
  match (type.name.splitOn ".").dropLast with
  | [] => none
  | segments => some (".".intercalate segments)

mutual

/-- The number of types that a type is made of. -/
def size : SemanticType → Nat
  | ⟨_, _, args, bases⟩ => sizes args + sizes bases + 1

def sizes : List SemanticType → Nat
  | [] => 0
  | type :: types => type.size + sizes types

end

@[simp] theorem sizes_append (xs ys : List SemanticType) :
    sizes (xs ++ ys) = sizes xs + sizes ys := by
  induction xs with
  | nil => simp [sizes]
  | cons x xs ih => simp [sizes, ih, Nat.add_assoc]

theorem size_eq (type : SemanticType) : type.size = sizes type.args + sizes type.bases + 1 := by
  cases type
  simp [size]

/-- The types reached from a list of types through bases and arguments, depth first and bases before
arguments, leaving out every type with a name met before. -/
def reached (seen : List String) : List SemanticType → List SemanticType
  | [] => []
  | type :: rest =>
      if type.name ∈ seen then reached seen rest
      else type :: reached (type.name :: seen) (type.bases ++ (type.args ++ rest))
termination_by types => sizes types
decreasing_by
  · simp only [sizes, size_eq]
    omega
  · simp only [sizes, size_eq, sizes_append]
    omega

/-- The type itself and every type below it. -/
def hierarchy (type : SemanticType) : List SemanticType := reached [] [type]

/-- The modules that define a type of the hierarchy, each once. -/
def definingModules (type : SemanticType) : List ModuleId :=
  (type.hierarchy.map (·.module)).eraseDups

open Data

/-- A type that is nested at most `depth` deep. -/
def ofDataUpTo : Nat → Value → Option SemanticType
  | 0, _ => none
  | depth + 1, value => do
      let field ← value.fields? false ["name", "module", "args", "bases"]
      let types := Value.withDefault [] (Value.toList? (ofDataUpTo depth))
      return {
        name := ← Value.required Value.toStr? (field "name")
        module := ← Value.required Value.toStr? (field "module")
        args := ← types (field "args")
        bases := ← types (field "bases") }

def ofData? (value : Value) : Option SemanticType := ofDataUpTo value.depth value

mutual

def toData : SemanticType → Value
  | ⟨name, module, args, bases⟩ => .table
      [("name", .str name), ("module", .str module), ("args", .list (listToData args)),
        ("bases", .list (listToData bases))]

def listToData : List SemanticType → List Value
  | [] => []
  | type :: types => type.toData :: listToData types

end

end SemanticType

end ExprVet
