import ExprVet.Data.Toml.Document
import ExprVet.Validation.Catalog
import ExprVet.Validation.Config

/-! # Configuration of a session -/

namespace ExprVet

open Data

structure SessionConfig where
  /-- Whether output is coloured. -/
  color : Bool
  /-- Whether the history of input lines is kept. -/
  history : Bool
  validator : ValidatorConfig
  /-- Modules of the catalog besides the core module. -/
  modules : List ModuleInfo
  deriving DecidableEq, Repr

namespace SessionConfig

/-- Places are told unless the configuration of the validator says otherwise. -/
def standard : SessionConfig := ⟨true, true, ValidatorConfig.standard.withSpans true, []⟩

/-- Without colours and history, for output that is not read on a terminal. -/
def quiet : SessionConfig := { standard with color := false, history := false }

def withModule (config : SessionConfig) (info : ModuleInfo) : SessionConfig :=
  { config with modules := config.modules ++ [info] }

/-- The core module and the configured ones, of which the latest definition counts. -/
def catalog (config : SessionConfig) : Catalog := (Catalog.withCore 0).addAll config.modules

/-- A setting that is left out has its standard value. -/
def ofData? (surplus : Bool) (value : Value) : Option SessionConfig := do
  let field ← value.fields? surplus ["color", "history", "validator", "modules"]
  return {
    color := ← Value.withDefault standard.color Value.toBool? (field "color")
    history := ← Value.withDefault standard.history Value.toBool? (field "history")
    validator :=
      ← Value.withDefault standard.validator (ValidatorConfig.ofData? surplus) (field "validator")
    modules :=
      ← Value.withDefault [] (Value.toList? (ModuleInfo.ofData? surplus)) (field "modules") }

/-- The configuration in the text of a file, where lists may hold more than a record needs. -/
def ofText? (text : String) : Option SessionConfig := (Toml.read text).bind (ofData? true)

def toData (config : SessionConfig) : Value :=
  .table [("color", .bool config.color), ("history", .bool config.history),
    ("validator", config.validator.toData), ("modules", .list (config.modules.map (·.toData)))]

end SessionConfig

end ExprVet
