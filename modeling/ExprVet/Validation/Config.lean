import ExprVet.ModuleInfo

/-! # Configuration of a validator -/

namespace ExprVet

open Data

structure ValidatorConfig where
  /-- Modules that every snippet is checked against. -/
  defaultModules : List ModuleId
  /-- Further modules that the application always wants. -/
  additionalModules : List ModuleId
  /-- Whether validation errors tell their place in the snippet. -/
  attachSpans : Bool
  deriving DecidableEq, Repr

namespace ValidatorConfig

/-- The core module and no places. -/
def standard : ValidatorConfig := ⟨[coreModule], [], false⟩

/-- No modules but those that a snippet asks for. -/
def bare : ValidatorConfig := ⟨[], [], false⟩

def withModule (config : ValidatorConfig) (module : ModuleId) : ValidatorConfig :=
  { config with additionalModules := config.additionalModules ++ [module] }

def withSpans (config : ValidatorConfig) (attach : Bool) : ValidatorConfig :=
  { config with attachSpans := attach }

/-- The default modules and then the additional ones, each once. -/
def seedModules (config : ValidatorConfig) : List ModuleId :=
  (config.defaultModules ++ config.additionalModules).eraseDups

/-- A setting that is left out has its standard value. -/
def ofData? (surplus : Bool) (value : Value) : Option ValidatorConfig := do
  let field ← value.fields? surplus ["default_modules", "additional_modules", "attach_spans"]
  let ids := Value.toList? Value.toStr?
  return {
    defaultModules := ← Value.withDefault standard.defaultModules ids (field "default_modules")
    additionalModules :=
      ← Value.withDefault standard.additionalModules ids (field "additional_modules")
    attachSpans := ← Value.withDefault standard.attachSpans Value.toBool? (field "attach_spans") }

def toData (config : ValidatorConfig) : Value :=
  .table [("default_modules", .list (config.defaultModules.map .str)),
    ("additional_modules", .list (config.additionalModules.map .str)),
    ("attach_spans", .bool config.attachSpans)]

end ValidatorConfig

end ExprVet
