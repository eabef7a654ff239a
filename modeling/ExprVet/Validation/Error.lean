import ExprVet.ModuleInfo

/-! # Failures of validation

Findings about a snippet are never failures. A failure means that a module cannot be described or
that the wrapper around a snippet cannot be checked at all. -/

namespace ExprVet

inductive EngineError where
  | moduleNotFound (module : ModuleId)
  | malformedSource (source : String)
  | missingTree
  | notAWrapper
  deriving DecidableEq, Repr

def EngineError.message : EngineError → String
  | moduleNotFound module => "module not found: " ++ module
  | malformedSource source => "malformed wrapper source: " ++ source
  | missingTree => "compilation unit has no syntax tree"
  | notAWrapper =>
      "internal compiler fault: compilation unit holds a discovery tree, not a wrapper"

/-- The failure of a whole validation. -/
structure ValidationFailure where
  language : String
  cause : EngineError
  deriving DecidableEq, Repr

def ValidationFailure.message (failure : ValidationFailure) : String :=
  failure.language ++ " engine failed: " ++ failure.cause.message

end ExprVet
