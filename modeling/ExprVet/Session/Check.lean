import ExprVet.Session.Config
import ExprVet.Session.Failure
import ExprVet.Validation.Validator

/-! # Checking one snippet

A check stands on its own: it has its own catalog, an empty cache and one activity. -/

namespace ExprVet

/-- A snippet with everything that it is checked against. -/
structure CheckRequest where
  text : String
  expected : SemanticType
  declarations : List (String × SemanticType)
  imports : List String
  modules : List ModuleId
  deriving Repr

namespace CheckRequest

/-- What a single activity with these imports and modules puts into effect. -/
def host (request : CheckRequest) : HostContext :=
  (⟨[], ⟨"check", request.imports, request.modules⟩⟩ : Activity).context

def toRequest (request : CheckRequest) : Request :=
  ⟨request.host, (VariableScope.empty.declareAll request.declarations).lookup, request.expected,
    request.text⟩

end CheckRequest

/-- A validator for the configured catalog, with the cache that it has filled. -/
def SessionConfig.validatorAndCache (config : SessionConfig) : Validator × ReferenceCache :=
  Validator.create config.catalog config.validator .empty

/-- The validation errors of one snippet. -/
def check (config : SessionConfig) (request : CheckRequest) :
    Except SessionFailure (List ValidationError) :=
  let (validator, cache) := config.validatorAndCache
  (validator.validate cache request.toRequest).1.mapError .validation

end ExprVet
