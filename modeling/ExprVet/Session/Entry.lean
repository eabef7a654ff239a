import ExprVet.SemanticType
import ExprVet.Text.Alphanumeric
import ExprVet.Text.Blank

/-! # Types and variables as they are typed in -/

namespace ExprVet

/-- The module of a qualified name is the part before its first dot. -/
def moduleOfName (name : String) : ModuleId :=
  match Text.cutAt? (· == '.') name.toList with
  | some (first, _) => String.ofList first
  | none => name

/-- A type without arguments or bases, given by its qualified name. -/
def SemanticType.ofName (name : String) : SemanticType := .named name (moduleOfName name)

/-- A text without the blanks at its ends. -/
def trimmed (text : String) : String := String.ofList (Text.trim text.toList)

/-- A type as typed in: the name of a primitive type or a qualified name. -/
def SemanticType.ofEntry (text : String) : SemanticType :=
  match trimmed text with
  | "Int" => .integer
  | "Float" => .float
  | "Bool" => .boolean
  | "Str" => .string
  | "Any" => .object
  | name => .ofName name

inductive EntryError where
  /-- The text is not a name and a type with a colon between them. -/
  | notABinding (text : String)
  | notAnIdentifier (name : String)
  deriving DecidableEq, Repr

def EntryError.message : EntryError → String
  | notABinding text => "expected `name: Type`, got `" ++ text ++ "`"
  | notAnIdentifier name => "`" ++ name ++ "` is not an identifier"

/-- A variable as typed in, `name: Type`. -/
def parseBinding (text : String) : Except EntryError (String × SemanticType) :=
  match Text.cutAt? (· == ':') text.toList with
  | none => .error (.notABinding text)
  | some (before, after) =>
      let name := Text.trim before
      let type := Text.trim after
      if name.isEmpty || type.isEmpty then .error (.notABinding text)
      else if name.all fun c => Text.isAlphanumeric c || c == '_' then
        .ok (String.ofList name, .ofEntry (String.ofList type))
      else .error (.notAnIdentifier (String.ofList name))

end ExprVet
