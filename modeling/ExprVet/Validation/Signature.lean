import ExprVet.Calc.Tree
import ExprVet.SemanticType
import ExprVet.Text.Quoted

/-! # Wrappers around snippets

The variables that a snippet mentions become the parameters of a lambda, the expected type becomes
its result, and the snippet itself, unchanged, its body. -/

namespace ExprVet

/-- A variable of a snippet with its declared type. -/
structure Binding where
  name : String
  type : SemanticType
  deriving Repr

/-- The names that the environment knows, with their types. -/
def resolveNames (environment : String → Option SemanticType) (names : List String) :
    List Binding :=
  names.filterMap fun name => (environment name).map (⟨name, ·⟩)

namespace SemanticType

/-- The name of a type in calc, where the core types have names of their own. -/
def calcName : String → String
  | "core.Integer" => "Int"
  | "core.Float" => "Float"
  | "core.Boolean" => "Bool"
  | "core.String" => "Str"
  | "core.Object" => "Any"
  | name => name

mutual

/-- The type as it is written in calc. -/
def calcText : SemanticType → String
  | ⟨name, _, args, _⟩ => Calc.applied (calcName name) (calcTexts args)

def calcTexts : List SemanticType → List String
  | [] => []
  | type :: types => type.calcText :: calcTexts types

end

end SemanticType

/-- The parameters of a wrapper and its result, as texts. The result is the last of the types. -/
structure Signature where
  names : List String
  types : List String
  deriving DecidableEq, Repr

namespace Signature

def build (bindings : List Binding) (result : SemanticType) (render : SemanticType → String) :
    Signature :=
  ⟨bindings.map (·.name), bindings.map (fun b => render b.type) ++ [render result]⟩

def result? (signature : Signature) : Option String := signature.types.getLast?

def parameters (signature : Signature) : List (String × String) :=
  signature.names.zip signature.types

/-- The source of a wrapper. The body stands directly after the opening brace, so that a place in it
differs from the place in the source by one offset. -/
def wrapper (signature : Signature) (body : String) : String :=
  let params := signature.names.zip signature.types.dropLast
  "|" ++ ", ".intercalate (params.map fun (name, type) => name ++ ": " ++ type) ++ "| -> " ++
    signature.result?.getD "Any" ++ " \x7b" ++ body ++ "\x7d"

end Signature

/-- The wrapper of a snippet for given variables and an expected type. -/
def synthesize (bindings : List Binding) (expected : SemanticType) (body : String) : String :=
  (Signature.build bindings expected SemanticType.calcText).wrapper body

/-- What is to be validated: the snippet with its imports, its variables and the expected type. -/
structure Descriptor where
  text : String
  imports : List String
  environment : String → Option SemanticType
  expected : SemanticType

namespace Descriptor

def discovery (descriptor : Descriptor) : Calc.Tree := .discovery descriptor.text

/-- The variables of the snippet that the environment knows. -/
def bindings (descriptor : Descriptor) : List Binding :=
  resolveNames descriptor.environment descriptor.discovery.identifiers

def wrapper (descriptor : Descriptor) : String :=
  synthesize descriptor.bindings descriptor.expected descriptor.text

/-- A one-line account of the descriptor, without its environment. -/
def summary (descriptor : Descriptor) : String :=
  "ExpressionDescriptor \x7b raw_text: " ++ Text.quoted descriptor.text ++ ", local_imports: [" ++
    ", ".intercalate (descriptor.imports.map Text.quoted) ++ "], expected: " ++
    Text.quoted descriptor.expected.name ++ ", .. \x7d"

end Descriptor

end ExprVet
