import ExprVet.Proofs.ReturnTypes

/-!
# What a snippet is compiled against

Validators of one process share a cache that only grows. A unit takes the references of its
validator's template and of the modules that its request asks for, and nothing else that others have
put into the cache. Since a stored reference is never replaced, what is attached is what the cache
holds, however the calls of the validators follow one another.
-/

namespace ExprVet

/-- The validators of a process, numbered as they are made, and the cache that they share. -/
structure Process where
  cache : ReferenceCache
  validators : List Validator

namespace Process

/-- What can happen in a process. -/
inductive Event where
  /-- A validator is made for a catalog and a configuration. -/
  | create (catalog : Catalog) (config : ValidatorConfig)
  /-- The validator with some number is called. -/
  | call (number : Nat) (call : Call)

def start : Process := ⟨.empty, []⟩

def step (process : Process) : Event → Process
  | .create catalog config =>
      let (validator, cache) := Validator.create catalog config process.cache
      ⟨cache, process.validators ++ [validator]⟩
  | .call number call =>
      match process.validators[number]? with
      | none => process
      | some validator =>
          let after := (Service.mk validator process.cache).serve call
          ⟨after.cache, process.validators.set number after.validator⟩

def run (process : Process) (events : List Event) : Process := events.foldl step process

/-- Every validator works on the cache, which validators have filled. -/
structure Orderly (process : Process) : Prop where
  filled : process.cache.Filled
  serves : ∀ validator ∈ process.validators, Serves validator process.cache

theorem orderly_start : start.Orderly := by
  constructor
  · exact .empty
  · intro validator hmem
    cases hmem

/-- What a call leaves behind does not depend on whether the findings are translated. -/
theorem serve_eq (validator : Validator) (cache : ReferenceCache) (call : Call) :
    ∃ request, (Service.mk validator cache).serve call =
      ⟨(validator.compile cache request).2.1, (validator.compile cache request).2.2⟩ := by
  cases call with
  | validate request => exact ⟨request, rfl⟩
  | compile request => exact ⟨request, rfl⟩

theorem Orderly.step {process : Process} (h : process.Orderly) (event : Event) :
    (process.step event).Orderly := by
  cases event with
  | create catalog config =>
      constructor
      · exact h.filled.ensureAll catalog config.seedModules
      · intro validator hmem
        rcases List.mem_append.mp hmem with hold | hnew
        · exact (h.serves validator hold).elsewhere catalog config.seedModules
            validator.catalog.loads
        · rw [List.mem_singleton.mp hnew]
          exact .create h.filled catalog config
  | call number call =>
      simp only [Process.step]
      cases hcalled : process.validators[number]? with
      | none => exact h
      | some called =>
          obtain ⟨request, hserve⟩ := serve_eq called process.cache call
          have hserves := h.serves called (List.mem_of_getElem? hcalled)
          simp only [hserve]
          constructor
          · exact h.filled.ensureAll called.catalog request.modules
          · intro validator hmem
            rcases List.mem_or_eq_of_mem_set hmem with hold | hnew
            · exact (h.serves validator hold).elsewhere called.catalog request.modules
                validator.catalog.loads
            · rw [hnew]
              exact hserves.call request

theorem Orderly.run {process : Process} (h : process.Orderly) (events : List Event) :
    (process.run events).Orderly := by
  induction events generalizing process with
  | nil => exact h
  | cons event events ih => exact ih (h.step event)

/-- The validator with some number has a template and the modules of a catalog. -/
def Keeps (template : List Reference) (catalog : Catalog) (number : Nat) (process : Process) :
    Prop :=
  ∃ kept, process.validators[number]? = some kept ∧ kept.template = template ∧
    kept.catalog.modules = catalog.modules

section Keeps

variable {template : List Reference} {catalog : Catalog} {number : Nat} {process : Process}

theorem Keeps.step (h : Keeps template catalog number process) (event : Event) :
    Keeps template catalog number (process.step event) := by
  obtain ⟨kept, hkept, htemplate, hmodules⟩ := h
  have hlt : number < process.validators.length := (List.getElem?_eq_some_iff.mp hkept).1
  cases event with
  | create other config =>
      exact ⟨kept, by rw [← hkept]; exact List.getElem?_append_left hlt, htemplate, hmodules⟩
  | call called call =>
      simp only [Process.step]
      cases hcalled : process.validators[called]? with
      | none => exact ⟨kept, hkept, htemplate, hmodules⟩
      | some other =>
          obtain ⟨request, hserve⟩ := serve_eq other process.cache call
          simp only [hserve]
          by_cases hsame : called = number
          · subst hsame
            obtain rfl : kept = other := Option.some.inj (hkept.symm.trans hcalled)
            refine ⟨_, List.getElem?_set_self hlt, htemplate, ?_⟩
            exact (ReferenceCache.ensureAll_modules _ _ request.modules).trans hmodules
          · exact ⟨kept, by rw [List.getElem?_set_ne hsame, hkept], htemplate, hmodules⟩

theorem Keeps.run (h : Keeps template catalog number process) (events : List Event) :
    Keeps template catalog number (process.run events) := by
  induction events generalizing process with
  | nil => exact h
  | cons event events ih => exact ih (h.step event)

end Keeps

theorem keeps_create (process : Process) (catalog : Catalog) (config : ValidatorConfig) :
    Keeps (Validator.create catalog config process.cache).1.template catalog
      process.validators.length (process.step (.create catalog config)) :=
  ⟨_, List.getElem?_concat_length, rfl,
    ReferenceCache.ensureAll_modules process.cache catalog config.seedModules⟩

/-- The template holds the seed modules that are in the cache already or can be described. -/
theorem mem_template_create {cache : ReferenceCache} (h : cache.Filled) (catalog : Catalog)
    (config : ValidatorConfig) (module : ModuleId) :
    module ∈ (Validator.create catalog config cache).1.template.map (·.module) ↔
      module ∈ config.seedModules ∧
        (cache.contains module = true ∨ catalog.contains module = true) := by
  have hloaded := ReferenceCache.mem_map_module_ensureAll h.keyed catalog config.seedModules module
  refine hloaded.trans (and_congr_right fun hmem => ?_)
  exact ReferenceCache.contains_ensureAll_iff hmem cache

/-- A compiled unit refers to the modules of the template and to those of the request that are in
the cache afterwards. -/
theorem mem_references_of_compile {validator : Validator} {cache : ReferenceCache}
    (h : cache.Filled) {request : Request} {compiled : Compiled}
    (hcompiled : (validator.compile cache request).1 = .ok compiled) (module : ModuleId) :
    module ∈ compiled.unit.references.map (·.module) ↔
      module ∈ validator.template.map (·.module) ∨
        (module ∈ request.modules ∧
          (validator.compile cache request).2.2.contains module = true) := by
  obtain ⟨tree, -, hunit, -⟩ := Request.exists_wrapper_of_compile hcompiled
  have hrequired := ReferenceCache.mem_map_module_ensureAll h.keyed validator.catalog
    request.modules module
  rw [hunit, Request.references_unit, CompilationUnit.mem_map_module_attach,
    CompilationUnit.mem_map_module_attach, hrequired]
  simp only [CompilationUnit.empty, List.map_nil, List.not_mem_nil, false_or]
  rfl

/-- A compilation succeeds where the wrapper can be read, whatever the validator. -/
theorem exists_compiled (validator : Validator) (cache : ReferenceCache) {request : Request}
    (h : (Calc.Tree.wrapper? request.descriptor.wrapper).isSome = true) :
    ∃ compiled, (validator.compile cache request).1 = .ok compiled := by
  obtain ⟨tree, htree⟩ := Option.isSome_iff_exists.mp h
  simp only [Validator.compile, Request.compile_eq, htree]
  exact ⟨_, rfl⟩

/-- Whatever happens in a process before and after a validator is made, its units refer to exactly
the seed modules that it could load in the beginning and to those modules of the expected type and
of the host that are in the cache. Each reference is the one that the cache holds, and whether a
module can be had does not depend on the others. -/
theorem attached_exactly_as_needed (earlier later : List Event) (catalog : Catalog)
    (config : ValidatorConfig) :
    let before := start.run earlier
    let now := (before.step (.create catalog config)).run later
    ∃ validator, now.validators[before.validators.length]? = some validator ∧
      (∀ module, module ∈ validator.template.map (·.module) ↔
        module ∈ config.seedModules ∧
          (before.cache.contains module = true ∨ catalog.contains module = true)) ∧
      ∀ request compiled, (validator.compile now.cache request).1 = .ok compiled →
        let after := (validator.compile now.cache request).2.2
        (∀ module, module ∈ compiled.unit.references.map (·.module) ↔
          module ∈ validator.template.map (·.module) ∨
            (module ∈ request.expected.definingModules ++ request.host.modules ∧
              after.contains module = true)) ∧
        (∀ reference ∈ compiled.unit.references,
          after.get? reference.module = some reference) ∧
        ∀ module ∈ request.expected.definingModules ++ request.host.modules,
          (after.contains module = true ↔
            now.cache.contains module = true ∨ catalog.contains module = true) := by
  intro before now
  have hbefore : before.Orderly := orderly_start.run earlier
  have hnow : now.Orderly := (hbefore.step (.create catalog config)).run later
  obtain ⟨validator, hnumber, htemplate, hmodules⟩ := (keeps_create before catalog config).run later
  refine ⟨validator, hnumber, ?_, ?_⟩
  · intro module
    rw [htemplate]
    exact mem_template_create hbefore.filled catalog config module
  · intro request compiled hcompiled after
    have hserves := hnow.serves validator (List.mem_of_getElem? hnumber)
    refine ⟨mem_references_of_compile hnow.filled hcompiled,
      storedIn_of_compile hserves hcompiled, ?_⟩
    intro module hmem
    have hknown : validator.catalog.contains module = catalog.contains module :=
      congrArg Option.isSome (Catalog.find?_congr hmodules module)
    rw [← hknown]
    exact ReferenceCache.contains_ensureAll_iff hmem now.cache

/-- A catalog with two modules besides the core module. -/
def drawingCatalog : Catalog :=
  (Catalog.withCore 0).addAll [⟨"geo", ["geo"], []⟩, ⟨"text", ["text"], []⟩]

/-- A number for a host that declares some modules. -/
def numberRequest (modules : List ModuleId) : Request :=
  ⟨⟨[], modules⟩, fun _ => none, .integer, "1"⟩

/-- The second validator of a process needs a module that nobody can load and one that it can; the
cache holds a third one from a call of the first validator. -/
theorem drawing_attached_exactly_as_needed :
    let before := start.run
      [.create drawingCatalog .standard, .call 0 (.compile (numberRequest ["text"]))]
    let now := (before.step (.create drawingCatalog .bare)).run [.call 0 (.validate (numberRequest []))]
    let request := numberRequest ["missing", "geo"]
    ∃ validator compiled, now.validators[1]? = some validator ∧
      (validator.compile now.cache request).1 = .ok compiled ∧
      now.cache.contains "text" = true ∧
      ∀ module, module ∈ compiled.unit.references.map (·.module) ↔
        module = "core" ∨ module = "geo" := by
  intro before now request
  obtain ⟨validator, hnumber, htemplate, hunit⟩ := attached_exactly_as_needed
    [.create drawingCatalog .standard, .call 0 (.compile (numberRequest ["text"]))]
    [.call 0 (.validate (numberRequest []))] drawingCatalog .bare
  have hwrapper : (Calc.Tree.wrapper? request.descriptor.wrapper).isSome = true := by
    decide +kernel
  obtain ⟨compiled, hcompiled⟩ := exists_compiled validator now.cache hwrapper
  obtain ⟨hattached, -, hloaded⟩ := hunit request compiled hcompiled
  refine ⟨validator, compiled, hnumber, hcompiled, by decide +kernel, ?_⟩
  intro module
  have hasked : request.expected.definingModules ++ request.host.modules =
      ["core", "missing", "geo"] := by
    decide +kernel
  have hseeds : ValidatorConfig.bare.seedModules = [] := rfl
  have hcore : now.cache.contains "core" = true := by decide +kernel
  have hgeo : drawingCatalog.contains "geo" = true := by decide +kernel
  have hmissing : ¬ (now.cache.contains "missing" = true ∨
      drawingCatalog.contains "missing" = true) := by
    decide +kernel
  rw [hattached module, htemplate module, hseeds]
  rw [hasked] at hloaded ⊢
  constructor
  · rintro (⟨hmem, -⟩ | ⟨hmem, hcached⟩)
    · cases hmem
    · rw [hloaded module hmem] at hcached
      simp only [List.mem_cons, List.not_mem_nil, or_false] at hmem
      rcases hmem with rfl | rfl | rfl
      · exact .inl rfl
      · exact absurd hcached hmissing
      · exact .inr rfl
  · rintro (rfl | rfl)
    · exact .inr ⟨by simp, (hloaded "core" (by simp)).mpr (.inl hcore)⟩
    · exact .inr ⟨by simp, (hloaded "geo" (by simp)).mpr (.inr hgeo)⟩

end Process

end ExprVet
