import ExprVet.Proofs.References
import ExprVet.Scenario.Outcome

/-!
# Validation does not depend on history

A validator and its cache change with every call: references are made, and the catalog counts them.
`Service.Settled` names what no call changes. The catalog knows the modules that it knew in the
beginning, the cache describes modules as the catalog does, and the template holds the seed modules
that could be loaded. An answer depends on nothing else, and of the environment on the variables of
the snippet only.
-/

namespace ExprVet

/-- What a validator can be asked for. -/
inductive Call where
  | validate (request : Request)
  | compile (request : Request)

/-- A validator with the cache that it works on. -/
structure Service where
  validator : Validator
  cache : ReferenceCache

namespace Service

/-- A new validator on an empty cache of its own. -/
def start (catalog : Catalog) (config : ValidatorConfig) : Service :=
  let (validator, cache) := Validator.create catalog config .empty
  ⟨validator, cache⟩

/-- What one call leaves behind. -/
def serve (service : Service) : Call → Service
  | .validate request =>
      let (_, validator, cache) := service.validator.validate service.cache request
      ⟨validator, cache⟩
  | .compile request =>
      let (_, validator, cache) := service.validator.compile service.cache request
      ⟨validator, cache⟩

/-- What some calls leave behind, one after the other. -/
def serveAll (service : Service) (calls : List Call) : Service := calls.foldl serve service

/-- The errors of a snippet, or the failure. -/
def answer (service : Service) (request : Request) :
    Except ValidationFailure (List ValidationError) :=
  (service.validator.validate service.cache request).1

/-- What stays true of a validator for a catalog and a configuration. -/
structure Settled (catalog : Catalog) (config : ValidatorConfig) (service : Service) : Prop where
  modules : service.validator.catalog.modules = catalog.modules
  template : service.validator.template.map (·.info) =
    config.seedModules.filterMap catalog.find?
  translator : service.validator.translator = if config.attachSpans then .located else .plain
  faithful : service.cache.Faithful service.validator.catalog

theorem settled_start (catalog : Catalog) (config : ValidatorConfig) :
    (start catalog config).Settled catalog config := by
  have hempty := ReferenceCache.faithful_empty catalog
  constructor
  · exact ReferenceCache.ensureAll_modules .empty catalog config.seedModules
  · exact ReferenceCache.infos_ensureAll hempty config.seedModules
  · rfl
  · exact hempty.ensureAll config.seedModules

theorem serve_validate (service : Service) (request : Request) :
    service.serve (.validate request) = service.serve (.compile request) := rfl

theorem Settled.serve {catalog : Catalog} {config : ValidatorConfig} {service : Service}
    (h : service.Settled catalog config) (call : Call) :
    (service.serve call).Settled catalog config := by
  have hcompile (request : Request) : (service.serve (.compile request)).Settled catalog config := by
    constructor
    · exact (ReferenceCache.ensureAll_modules service.cache _ request.modules).trans h.modules
    · exact h.template
    · exact h.translator
    · exact h.faithful.ensureAll request.modules
  cases call with
  | validate request =>
      rw [serve_validate]
      exact hcompile request
  | compile request => exact hcompile request

theorem Settled.serveAll {catalog : Catalog} {config : ValidatorConfig} {service : Service}
    (h : service.Settled catalog config) (calls : List Call) :
    (service.serveAll calls).Settled catalog config := by
  induction calls generalizing service with
  | nil => exact h
  | cons call calls ih => exact ih (h.serve call)

end Service

/-- The environment is asked for the variables of the snippet only. -/
theorem Descriptor.bindings_congr {first second : Descriptor} (htext : first.text = second.text)
    (hagree : ∀ name ∈ (Calc.Tree.discovery first.text).identifiers,
      first.environment name = second.environment name) : first.bindings = second.bindings := by
  have hidentifiers : second.discovery.identifiers = first.discovery.identifiers := by
    rw [discovery, discovery, htext]
  rw [bindings, bindings, resolveNames, resolveNames, hidentifiers]
  apply List.filterMap_congr
  intro name hmem
  rw [hagree name hmem]

theorem Request.wrapper_congr {request : Request} {environment : String → Option SemanticType}
    (hagree : ∀ name ∈ (Calc.Tree.discovery request.text).identifiers,
      request.environment name = environment name) :
    request.descriptor.wrapper = { request with environment }.descriptor.wrapper := by
  have hbindings : request.descriptor.bindings = { request with environment }.descriptor.bindings :=
    Descriptor.bindings_congr rfl hagree
  rw [Descriptor.wrapper, Descriptor.wrapper, hbindings]
  rfl

namespace Service

/-- What a validator in order answers, from the catalog and the configuration alone. -/
def answerOf (catalog : Catalog) (config : ValidatorConfig) (request : Request) :
    Except ValidationFailure (List ValidationError) :=
  let translator : Translator := if config.attachSpans then .located else .plain
  match Calc.Tree.wrapper? request.descriptor.wrapper with
  | none => .error ⟨languageName, .malformedSource request.descriptor.wrapper⟩
  | some tree =>
      let infos := Request.attachedInfos (config.seedModules.filterMap catalog.find?)
        (request.modules.filterMap catalog.find?)
      .ok (translator.translate (Calc.check tree infos request.host.imports))

theorem answer_eq_map (service : Service) (request : Request) :
    service.answer request =
      (request.compile service.validator.template
        (service.cache.ensureAll service.validator.catalog request.modules).1).map
          fun compiled => service.validator.translator.translate compiled.diagnostics :=
  rfl

theorem Settled.answer_eq {catalog : Catalog} {config : ValidatorConfig} {service : Service}
    (h : service.Settled catalog config) (request : Request) :
    service.answer request = answerOf catalog config request := by
  have hrequired : (service.cache.ensureAll service.validator.catalog request.modules).1.map
      (·.info) = request.modules.filterMap catalog.find? := by
    rw [ReferenceCache.infos_ensureAll h.faithful]
    apply List.filterMap_congr
    intro module _
    exact Catalog.find?_congr h.modules module
  rw [answer_eq_map, Request.compile_eq, answerOf]
  cases Calc.Tree.wrapper? request.descriptor.wrapper with
  | none => rfl
  | some tree =>
      simp only [Except.map, Request.infos_unit]
      rw [h.template, hrequired, h.translator]

theorem answerOf_congr {first second : Catalog} (hmodules : first.modules = second.modules)
    (config : ValidatorConfig) {request : Request} {environment : String → Option SemanticType}
    (hagree : ∀ name ∈ (Calc.Tree.discovery request.text).identifiers,
      request.environment name = environment name) :
    answerOf first config request = answerOf second config { request with environment } := by
  have hfind : first.find? = second.find? := funext (Catalog.find?_congr hmodules)
  have hwrapper := Request.wrapper_congr hagree
  rw [answerOf, answerOf, hfind, ← hwrapper]
  rfl

/-- Two validators made from the same modules and the same configuration give the same answer,
whatever they were asked before and whatever their environments say of names that are no variables
of the snippet. -/
theorem answer_independent_of_history {first second : Catalog}
    (hmodules : first.modules = second.modules) (config : ValidatorConfig)
    (earlier other : List Call) (request : Request) (environment : String → Option SemanticType)
    (hagree : ∀ name ∈ (Calc.Tree.discovery request.text).identifiers,
      request.environment name = environment name) :
    ((start first config).serveAll earlier).answer request =
      ((start second config).serveAll other).answer { request with environment } := by
  have hfirst := (settled_start first config).serveAll earlier
  have hsecond := (settled_start second config).serveAll other
  rw [hfirst.answer_eq, hsecond.answer_eq]
  exact answerOf_congr hmodules config hagree

/-- Integer variables of some names. -/
def integers (names : List String) (name : String) : Option SemanticType :=
  if name ∈ names then some .integer else none

/-- A sum whose only variable is an integer. -/
def sumRequest : Request := ⟨.none, integers ["x"], .integer, "x + 1"⟩

theorem sumRequest_identifiers :
    (Calc.Tree.discovery sumRequest.text).identifiers = ["x"] := by
  decide +kernel

/-- After two calls and with a further variable the sum is answered as by a new validator. -/
theorem sumRequest_answer_independent_of_history :
    ((start (.withCore 0) .standard).serveAll
        [.compile { sumRequest with text := "y" }, .validate sumRequest]).answer sumRequest =
      ((start (.withCore 7) .standard).serveAll []).answer
        { sumRequest with environment := integers ["x", "y"] } := by
  have hmodules : (Catalog.withCore 0).modules = (Catalog.withCore 7).modules := rfl
  have hagree : ∀ name ∈ (Calc.Tree.discovery sumRequest.text).identifiers,
      sumRequest.environment name = integers ["x", "y"] name := by
    intro name hmem
    rw [sumRequest_identifiers, List.mem_singleton] at hmem
    rw [hmem]
    rfl
  exact answer_independent_of_history hmodules .standard _ [] sumRequest _ hagree

end Service

namespace Scenario

/-- The outcome of a case that a validator runs. -/
def Case.outcome (case : Case) (service : Service) : Outcome :=
  (case.run service.validator service.cache).1

/-- What running a case leaves behind, if anything, is what one call leaves behind. -/
theorem Case.run_snd (case : Case) (service : Service) :
    (case.run service.validator service.cache).2 = (service.validator, service.cache) ∨
      (case.run service.validator service.cache).2 =
        ((service.serve (.validate case.request)).validator,
          (service.serve (.validate case.request)).cache) := by
  rw [run]
  cases case.skip with
  | some reason => exact .inl rfl
  | none =>
      by_cases hproblems : case.problems.isEmpty
      · right
        simp only [hproblems, if_true]
        rfl
      · left
        simp only [hproblems]
        rfl

theorem Case.outcome_eq {catalog : Catalog} {config : ValidatorConfig} {first second : Service}
    (hfirst : first.Settled catalog config) (hsecond : second.Settled catalog config)
    (case : Case) : case.outcome first = case.outcome second := by
  have hanswer : first.answer case.request = second.answer case.request := by
    rw [hfirst.answer_eq, hsecond.answer_eq]
  simp only [Service.answer] at hanswer
  simp only [outcome, run]
  cases case.skip with
  | some reason => rfl
  | none =>
      by_cases hproblems : case.problems.isEmpty
      · simp only [hproblems, if_true, hanswer]
      · simp only [hproblems, Bool.false_eq_true, if_false]

/-- Cases that ran before a case do not change its outcome. -/
theorem runAll_eq_map {catalog : Catalog} {config : ValidatorConfig} {service : Service}
    (h : service.Settled catalog config) (cases : List Case) :
    runAll service.validator service.cache cases =
      cases.map fun case => (case, case.outcome (.start catalog config)) := by
  induction cases generalizing service with
  | nil => rfl
  | cons case cases ih =>
      have hrun : runAll service.validator service.cache (case :: cases) =
          (case, case.outcome service) ::
            runAll (case.run service.validator service.cache).2.1
              (case.run service.validator service.cache).2.2 cases := rfl
      rw [hrun, List.map_cons, Case.outcome_eq h (Service.settled_start catalog config)]
      obtain hafter | hafter := case.run_snd service
      · rw [hafter, ih h]
      · rw [hafter, ih (h.serve (.validate case.request))]

theorem runWith_eq_map (catalog : Catalog) (cases : List Case) :
    runWith catalog cases =
      cases.map fun case => (case, case.outcome (.start catalog .standard)) :=
  runAll_eq_map (Service.settled_start catalog .standard) cases

end Scenario

end ExprVet
