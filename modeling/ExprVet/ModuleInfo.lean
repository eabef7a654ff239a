import ExprVet.SemanticType

/-! # Modules and references

A module contributes namespaces and exported types. What a snippet is checked against is a
reference: the description of a module together with the serial number of the load that produced it,
so that two loads of one module can be told apart. -/

namespace ExprVet

structure TypeExport where
  name : String
  /-- The qualified names of the direct bases. -/
  bases : List String
  deriving DecidableEq, Repr

structure ModuleInfo where
  id : ModuleId
  namespaces : List String
  types : List TypeExport
  deriving DecidableEq, Repr

namespace ModuleInfo

/-- The exported type with a qualified name. -/
def findType? (info : ModuleInfo) (name : String) : Option TypeExport :=
  info.types.find? (·.name == name)

def providesNamespace (info : ModuleInfo) (name : String) : Bool := info.namespaces.contains name

/-- The module that is always there. The primitive types are built into the language, so it only
contributes its namespace and the root of all types. -/
def core : ModuleInfo := ⟨coreModule, [coreModule], [⟨"core.Object", []⟩]⟩

end ModuleInfo

structure Reference where
  serial : Nat
  info : ModuleInfo
  deriving DecidableEq, Repr

namespace Reference

def module (reference : Reference) : ModuleId := reference.info.id

/-- Whether two references come from the very same load. -/
def same (a b : Reference) : Bool := a.serial == b.serial

end Reference

open Data

def TypeExport.ofData? (surplus : Bool) (value : Value) : Option TypeExport := do
  let field ← value.fields? surplus ["name", "bases"]
  return {
    name := ← Value.required Value.toStr? (field "name")
    bases := ← Value.withDefault [] (Value.toList? Value.toStr?) (field "bases") }

def TypeExport.toData (type : TypeExport) : Value :=
  .table [("name", .str type.name), ("bases", .list (type.bases.map .str))]

def ModuleInfo.ofData? (surplus : Bool) (value : Value) : Option ModuleInfo := do
  let field ← value.fields? surplus ["id", "namespaces", "types"]
  return {
    id := ← Value.required Value.toStr? (field "id")
    namespaces := ← Value.withDefault [] (Value.toList? Value.toStr?) (field "namespaces")
    types := ← Value.withDefault [] (Value.toList? (TypeExport.ofData? surplus)) (field "types") }

def ModuleInfo.toData (info : ModuleInfo) : Value :=
  .table [("id", .str info.id), ("namespaces", .list (info.namespaces.map .str)),
    ("types", .list (info.types.map TypeExport.toData))]

end ExprVet
