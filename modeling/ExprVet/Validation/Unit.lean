import ExprVet.Calc.Checker
import ExprVet.Data.Ordered
import ExprVet.Validation.Error

/-! # Compilation units

A unit collects what one snippet is checked against. It moves through phases, each with a type of
its own:

```text
empty --begin(discovery tree)--> discovery
      --finalize(wrapper tree)--> final --diagnose--> diagnosed
```

so that a unit cannot be diagnosed before its wrapper is installed. Installing a tree takes the
place of the tree before. -/

namespace ExprVet

open Data

structure CompilationUnit where
  trees : List Calc.Tree
  imports : List String
  /-- Attached references in the order of their modules, one for each module. -/
  references : List Reference
  deriving Repr

namespace CompilationUnit

/-- A unit with nothing but imports. -/
def empty (imports : List String) : CompilationUnit := ⟨[], imports, []⟩

/-- A unit that starts with a tree to be replaced. -/
def withPlaceholder (imports : List String) (placeholder : Calc.Tree) : CompilationUnit :=
  ⟨[placeholder], imports, []⟩

def tree? (unit : CompilationUnit) : Option Calc.Tree := unit.trees.head?

def reference? (unit : CompilationUnit) (module : ModuleId) : Option Reference :=
  findKey? Reference.module module unit.references

def hasReference (unit : CompilationUnit) (module : ModuleId) : Bool :=
  (unit.reference? module).isSome

/-- Attaches references of modules that have none yet. Returns how many these are. -/
def addReferences (unit : CompilationUnit) (references : List Reference) : Nat × CompilationUnit :=
  let (added, all) := insertAllNew Reference.module unit.references references
  (added, { unit with references := all })

def attach (unit : CompilationUnit) (references : List Reference) : CompilationUnit :=
  (unit.addReferences references).2

def countNew (unit : CompilationUnit) (references : List Reference) : Nat :=
  (unit.addReferences references).1

/-- Puts a tree in the place of the first one, or makes it the first one. -/
def install (unit : CompilationUnit) (tree : Calc.Tree) : CompilationUnit :=
  { unit with trees := tree :: unit.trees.tail }

end CompilationUnit

/-- A unit that holds the snippet as read on its own. -/
structure DiscoveryUnit where
  unit : CompilationUnit
  deriving Repr

/-- A unit that holds the wrapper of the snippet. -/
structure FinalUnit where
  unit : CompilationUnit
  deriving Repr

/-- A checked unit with everything that was found. -/
structure Compiled where
  unit : CompilationUnit
  diagnostics : List Diagnostic
  deriving Repr

def CompilationUnit.begin (unit : CompilationUnit) (discovery : Calc.Tree) : DiscoveryUnit :=
  ⟨unit.install discovery⟩

/-- What the checker finds in a unit. It needs a wrapper to check. -/
def CompilationUnit.diagnostics (unit : CompilationUnit) : Except EngineError (List Diagnostic) :=
  match unit.tree? with
  | none => .error .missingTree
  | some tree =>
      if tree.body.isNone then .error .notAWrapper
      else .ok (Calc.check tree (unit.references.map (·.info)) unit.imports)

namespace DiscoveryUnit

def tree? (d : DiscoveryUnit) : Option Calc.Tree := d.unit.tree?

def finalize (d : DiscoveryUnit) (wrapper : Calc.Tree) : FinalUnit := ⟨d.unit.install wrapper⟩

end DiscoveryUnit

namespace FinalUnit

def attach (final : FinalUnit) (references : List Reference) : FinalUnit :=
  ⟨final.unit.attach references⟩

def diagnose (final : FinalUnit) : Except EngineError Compiled := do
  return ⟨final.unit, ← final.unit.diagnostics⟩

end FinalUnit

end ExprVet
