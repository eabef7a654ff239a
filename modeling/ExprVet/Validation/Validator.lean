import ExprVet.Validation.Cache
import ExprVet.Validation.Config
import ExprVet.Validation.Host
import ExprVet.Validation.Signature
import ExprVet.Validation.Translator
import ExprVet.Validation.Unit

/-! # Validating snippets

A validation loads the modules that define the expected type and those of the host, looks for the
variables of the snippet, wraps it into a lambda that declares them, checks that lambda against the
loaded modules and translates what was found. References are shared through a cache, and the catalog
counts loads, so both are passed along. -/

namespace ExprVet

/-- The name of the language in failures. -/
def languageName : String := "calc"

structure Validator where
  catalog : Catalog
  /-- References that every unit starts with. -/
  template : List Reference
  translator : Translator
  deriving Repr

/-- One snippet to validate. -/
structure Request where
  host : HostContext
  environment : String → Option SemanticType
  expected : SemanticType
  text : String

namespace Request

def descriptor (request : Request) : Descriptor :=
  ⟨request.text, request.host.imports, request.environment, request.expected⟩

/-- The modules that a request asks for besides the template. -/
def modules (request : Request) : List ModuleId :=
  request.expected.definingModules ++ request.host.modules

/-- The checked unit of a request, for a template and the references of the modules it asks for. -/
def compile (request : Request) (template required : List Reference) :
    Except ValidationFailure Compiled :=
  let descriptor := request.descriptor
  let discovery :=
    ((CompilationUnit.empty descriptor.imports).attach template).begin descriptor.discovery
  let source := descriptor.wrapper
  match Calc.Tree.wrapper? source with
  | none => .error ⟨languageName, .malformedSource source⟩
  | some wrapper =>
      (((discovery.finalize wrapper).attach required).diagnose).mapError (⟨languageName, ·⟩)

end Request

namespace Validator

/-- A validator whose seed modules are loaded right away, as far as they can be. -/
def create (catalog : Catalog) (config : ValidatorConfig) (cache : ReferenceCache) :
    Validator × ReferenceCache :=
  let (template, cache, catalog) := cache.ensureAll catalog config.seedModules
  (⟨catalog, template, if config.attachSpans then .located else .plain⟩, cache)

/-- Checks a snippet without translating what is found. -/
def compile (validator : Validator) (cache : ReferenceCache) (request : Request) :
    Except ValidationFailure Compiled × Validator × ReferenceCache :=
  let (required, cache, catalog) := cache.ensureAll validator.catalog request.modules
  (request.compile validator.template required, { validator with catalog }, cache)

/-- Validates a snippet. -/
def validate (validator : Validator) (cache : ReferenceCache) (request : Request) :
    Except ValidationFailure (List ValidationError) × Validator × ReferenceCache :=
  let (result, after, cache) := validator.compile cache request
  (result.map fun compiled => validator.translator.translate compiled.diagnostics, after, cache)

end Validator

end ExprVet
