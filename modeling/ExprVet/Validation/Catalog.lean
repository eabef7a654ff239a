import ExprVet.Data.Ordered
import ExprVet.Validation.Error

/-! # The catalog of modules

The catalog holds the modules that can be loaded. A load describes a module by a fresh reference;
the number of loads shows how often that was needed. -/

namespace ExprVet

open Data

structure Catalog where
  /-- The known modules, in the order of their identities. -/
  modules : List ModuleInfo
  /-- How many modules have been described. -/
  loads : Nat
  /-- The serial number of the first reference that this catalog makes. -/
  firstSerial : Nat
  deriving Repr

namespace Catalog

/-- A catalog without any module, whose references are numbered from `firstSerial` on. -/
def empty (firstSerial : Nat) : Catalog := ⟨[], 0, firstSerial⟩

/-- Adds a module or replaces the one with its identity. -/
def add (catalog : Catalog) (info : ModuleInfo) : Catalog :=
  { catalog with modules := insertOver ModuleInfo.id info catalog.modules }

def addAll (catalog : Catalog) (infos : List ModuleInfo) : Catalog := infos.foldl add catalog

/-- A catalog with the core module only. -/
def withCore (firstSerial : Nat) : Catalog := (empty firstSerial).add .core

def find? (catalog : Catalog) (module : ModuleId) : Option ModuleInfo :=
  findKey? ModuleInfo.id module catalog.modules

def contains (catalog : Catalog) (module : ModuleId) : Bool := (catalog.find? module).isSome

def ids (catalog : Catalog) : List ModuleId := catalog.modules.map (·.id)

/-- A fresh reference for a module. Only a success counts as a load. -/
def describe (catalog : Catalog) (module : ModuleId) : Except EngineError Reference × Catalog :=
  match catalog.find? module with
  | none => (.error (.moduleNotFound module), catalog)
  | some info =>
      (.ok ⟨catalog.firstSerial + catalog.loads, info⟩, { catalog with loads := catalog.loads + 1 })

end Catalog

end ExprVet
