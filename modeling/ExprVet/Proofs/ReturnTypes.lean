import ExprVet.Proofs.Hierarchy
import ExprVet.Proofs.History
import ExprVet.Proofs.NameFindings

/-!
# Modules of the expected type

A compilation asks for the modules of the hierarchy of the expected type. What it asks for is
attached as far as it can be described, and a type exported by an attached module is never unknown.
So all types below the expected type are provided for exactly when the modules of its hierarchy are
complete, that is when the search hides nothing.

## Implementation notes

A cache may be shared, and a module that it holds is not described again. So a type is exported by
its own module when the stored description of that module exports it, or the catalog's where none is
stored.
-/

namespace ExprVet

open Data

namespace ReferenceCache

/-- Caches that validators have filled, each from its own catalog. -/
inductive Filled : ReferenceCache → Prop
  | empty : Filled .empty
  | ensureAll {cache : ReferenceCache} (h : Filled cache) (catalog : Catalog)
      (modules : List ModuleId) : Filled (cache.ensureAll catalog modules).2.1

theorem Filled.keyed {cache : ReferenceCache} (h : cache.Filled) : cache.Keyed := by
  induction h with
  | empty => exact keyed_empty
  | ensureAll _ catalog modules ih => exact ih.ensureAll catalog modules

/-- What a module is described by: its stored reference, or the catalog where there is none. -/
def description (cache : ReferenceCache) (catalog : Catalog) (module : ModuleId) :
    Option ModuleInfo :=
  ((cache.get? module).map (·.info)).or (catalog.find? module)

/-- A module that was ensured is stored with its description. -/
theorem info_of_ensureAll {cache : ReferenceCache} {catalog : Catalog} {module : ModuleId}
    {info : ModuleInfo} (h : cache.description catalog module = some info)
    {modules : List ModuleId} (hmem : module ∈ modules) :
    ∃ reference, (cache.ensureAll catalog modules).2.1.get? module = some reference ∧
      reference.info = info := by
  rw [description] at h
  cases hget : cache.get? module with
  | some stored =>
      rw [hget] at h
      exact ⟨stored, get?_ensureAll_of_some hget catalog modules, by simpa using h⟩
  | none =>
      rw [hget, Option.map_none, Option.none_or] at h
      obtain ⟨reference, hafter⟩ := exists_get?_ensureAll h hmem cache
      refine ⟨reference, hafter, ?_⟩
      rcases get?_ensureAll_eq_some hafter with hold | hfind
      · rw [hget] at hold
        cases hold
      · rw [h] at hfind
        exact (Option.some.inj hfind).symm

/-- Ensuring modules changes no description. -/
theorem description_ensureAll (cache : ReferenceCache) (catalog : Catalog)
    (modules : List ModuleId) :
    (cache.ensureAll catalog modules).2.1.description (cache.ensureAll catalog modules).2.2 =
      cache.description catalog := by
  funext module
  rw [description, description, Catalog.find?_congr (ensureAll_modules cache catalog modules)]
  cases hget : cache.get? module with
  | some stored => rw [get?_ensureAll_of_some hget]
  | none =>
      cases hafter : (cache.ensureAll catalog modules).2.1.get? module with
      | none => rfl
      | some reference =>
          rcases get?_ensureAll_eq_some hafter with hold | hfind
          · rw [hget] at hold
            cases hold
          · rw [hfind]
            rfl

/-- The descriptions of some modules are handed out, whatever else is stored. -/
theorem map_info_ensureAll (cache : ReferenceCache) (catalog : Catalog)
    (modules : List ModuleId) :
    (cache.ensureAll catalog modules).1.map (·.info) =
      modules.filterMap (cache.description catalog) := by
  rw [ensureAll_fst, List.map_filterMap]
  apply List.filterMap_congr
  intro module hmem
  cases hdescription : cache.description catalog module with
  | some info =>
      obtain ⟨reference, hget, hinfo⟩ := info_of_ensureAll hdescription hmem
      rw [hget, Option.map_some, hinfo]
  | none =>
      simp only [description, Option.or_eq_none_iff, Option.map_eq_none_iff] at hdescription
      rw [get?_ensureAll_of_none hdescription.2 hdescription.1, Option.map_none]

end ReferenceCache

/-- A validator at work on a cache that it may share. -/
inductive Serves : Validator → ReferenceCache → Prop
  /-- It is made on a cache that others may have filled. -/
  | create {cache : ReferenceCache} (h : cache.Filled) (catalog : Catalog)
      (config : ValidatorConfig) :
      Serves (Validator.create catalog config cache).1 (Validator.create catalog config cache).2
  /-- It has compiled or validated a snippet. -/
  | call {validator : Validator} {cache : ReferenceCache} (h : Serves validator cache)
      (request : Request) :
      Serves (validator.compile cache request).2.1 (validator.compile cache request).2.2
  /-- Another validator has filled the cache, and may have loaded from the same catalog. -/
  | elsewhere {validator : Validator} {cache : ReferenceCache} (h : Serves validator cache)
      (catalog : Catalog) (modules : List ModuleId) (loads : Nat) :
      Serves { validator with catalog := { validator.catalog with loads } }
        (cache.ensureAll catalog modules).2.1

/-- Every reference is the one that a cache holds for the module it describes. -/
def StoredIn (cache : ReferenceCache) (references : List Reference) : Prop :=
  ∀ reference ∈ references, cache.get? reference.module = some reference

theorem StoredIn.ensureAll {cache : ReferenceCache} {references : List Reference}
    (h : StoredIn cache references) (catalog : Catalog) (modules : List ModuleId) :
    StoredIn (cache.ensureAll catalog modules).2.1 references := by
  intro reference hmem
  exact ReferenceCache.get?_ensureAll_of_some (h reference hmem) catalog modules

theorem storedIn_ensureAll_fst {cache : ReferenceCache} (h : cache.Keyed) (catalog : Catalog)
    (modules : List ModuleId) :
    StoredIn (cache.ensureAll catalog modules).2.1 (cache.ensureAll catalog modules).1 := by
  intro reference hmem
  rw [ReferenceCache.ensureAll_fst] at hmem
  obtain ⟨module, -, hget⟩ := List.mem_filterMap.mp hmem
  rw [h.ensureAll catalog modules module reference hget]
  exact hget

theorem Serves.filled {validator : Validator} {cache : ReferenceCache} (h : Serves validator cache) :
    cache.Filled := by
  induction h with
  | create h catalog config => exact h.ensureAll catalog config.seedModules
  | @call validator _ _ request ih => exact ih.ensureAll validator.catalog request.modules
  | elsewhere _ catalog modules _ ih => exact ih.ensureAll catalog modules

/-- The template stays stored, whoever fills the cache. -/
theorem Serves.storedIn_template {validator : Validator} {cache : ReferenceCache}
    (h : Serves validator cache) : StoredIn cache validator.template := by
  induction h with
  | create h catalog config => exact storedIn_ensureAll_fst h.keyed catalog config.seedModules
  | @call validator _ _ request ih => exact ih.ensureAll validator.catalog request.modules
  | elsewhere _ catalog modules _ ih => exact ih.ensureAll catalog modules

section Compile

variable {validator : Validator} {cache : ReferenceCache} {request : Request} {compiled : Compiled}

/-- All that is attached to a compiled unit is stored in the cache. -/
theorem storedIn_of_compile (h : Serves validator cache)
    (hcompiled : (validator.compile cache request).1 = .ok compiled) :
    StoredIn (cache.ensureAll validator.catalog request.modules).2.1 compiled.unit.references := by
  obtain ⟨tree, -, hunit, -⟩ := Request.exists_wrapper_of_compile hcompiled
  intro reference hmem
  rw [hunit, Request.references_unit] at hmem
  rcases CompilationUnit.mem_or_mem_of_mem_attach hmem with htemplate | hrequired
  · rcases CompilationUnit.mem_or_mem_of_mem_attach htemplate with hnone | htemplate
    · cases hnone
    · exact h.storedIn_template.ensureAll validator.catalog request.modules reference htemplate
  · exact storedIn_ensureAll_fst h.filled.keyed validator.catalog request.modules reference
      hrequired

/-- The description of every module that a request asks for is attached. -/
theorem description_mem_of_compile (h : Serves validator cache)
    (hcompiled : (validator.compile cache request).1 = .ok compiled) {module : ModuleId}
    (hmem : module ∈ request.modules) {info : ModuleInfo}
    (hinfo : cache.description validator.catalog module = some info) :
    ∃ found ∈ compiled.unit.references, found.module = module ∧ found.info = info := by
  obtain ⟨reference, hget, hreference⟩ := ReferenceCache.info_of_ensureAll hinfo hmem
  have hmodule : reference.module = module :=
    h.filled.keyed.ensureAll validator.catalog request.modules module reference hget
  have hrequired : reference ∈ (cache.ensureAll validator.catalog request.modules).1 := by
    rw [ReferenceCache.ensureAll_fst]
    exact List.mem_filterMap.mpr ⟨module, hmem, hget⟩
  obtain ⟨tree, -, hunit, -⟩ := Request.exists_wrapper_of_compile hcompiled
  obtain ⟨found, hfound, hsame⟩ : ∃ found ∈ compiled.unit.references,
      found.module = reference.module := by
    rw [hunit, Request.references_unit]
    exact CompilationUnit.exists_reference_attach hrequired
  have hstored := storedIn_of_compile h hcompiled found hfound
  rw [hsame, hmodule, hget] at hstored
  obtain rfl : reference = found := Option.some.inj hstored
  exact ⟨reference, hfound, hmodule, hreference⟩

theorem lookup_ne_none_of_export {infos : List ModuleInfo} {info : ModuleInfo} {name : String}
    (hinfo : info ∈ infos) (hexport : (info.findType? name).isSome = true) :
    (Calc.Exports.ofModules infos).lookup name ≠ none := by
  rw [ModuleInfo.findType?, List.find?_isSome] at hexport
  obtain ⟨type, htype, hname⟩ := hexport
  intro hnone
  rw [List.lookup_eq_none_iff] at hnone
  have hentry : (type.name, type.bases) ∈ Calc.Exports.ofModules infos := by
    rw [Calc.Exports.ofModules, List.mem_reverse]
    exact List.mem_map_of_mem (List.mem_flatMap.mpr ⟨info, hinfo, htype⟩)
  have hne := hnone _ hentry
  simp only [beq_iff_eq] at hname
  simp [hname] at hne

theorem unknownType_message_inj {first second : String}
    (h : (Calc.Finding.unknownType first).message = (Calc.Finding.unknownType second).message) :
    first = second := by
  have htext : "unknown type " ++ ("\x60" ++ first ++ "\x60") ++ "; no referenced module exports it" =
      "unknown type " ++ ("\x60" ++ second ++ "\x60") ++ "; no referenced module exports it" := h
  simpa using htext

/-- A type that its own module exports is not reported when the module was asked for. -/
theorem not_unknown_of_compile (h : Serves validator cache)
    (hcompiled : (validator.compile cache request).1 = .ok compiled) {module : ModuleId}
    (hmem : module ∈ request.modules) {info : ModuleInfo}
    (hinfo : cache.description validator.catalog module = some info) {name : String}
    (hexport : (info.findType? name).isSome = true) :
    ∀ d ∈ compiled.diagnostics, d.code = "E002" →
      d.message ≠ (Calc.Finding.unknownType name).message := by
  intro d hd hcode hmessage
  obtain ⟨found, hfound, -, hdescribed⟩ := description_mem_of_compile h hcompiled hmem hinfo
  obtain ⟨tree, -, -, hdiagnostics⟩ := Request.exists_wrapper_of_compile hcompiled
  rw [hdiagnostics, Calc.check, List.mem_map] at hd
  obtain ⟨located, hlocated, rfl⟩ := hd
  obtain ⟨path, hpath⟩ := (Calc.Finding.code_eq_unknownType_iff located.finding).mp hcode
  have hnone := Calc.lookup_of_unknownType_mem_findings hlocated hpath
  simp only [Calc.Located.toDiagnostic, hpath] at hmessage
  obtain rfl := unknownType_message_inj hmessage
  have hattached : info ∈ compiled.unit.references.map (·.info) := by
    rw [← hdescribed]
    exact List.mem_map_of_mem hfound
  exact lookup_ne_none_of_export hattached hexport hnone

end Compile

namespace SemanticType

/-- All that lies below an expected type is provided for: its module is one of the modules of the
type, hence it is attached wherever it can be described, and no type that its own module exports is
reported as unknown. -/
structure Propagates (type : SemanticType) : Prop where
  complete : ∀ below, type.Reaches below → below.module ∈ type.definingModules
  attached : ∀ {validator cache request compiled}, Serves validator cache →
    request.expected = type → (validator.compile cache request).1 = .ok compiled →
    ∀ below, type.Reaches below → validator.catalog.contains below.module = true →
      compiled.unit.hasReference below.module = true
  known : ∀ {validator cache request compiled}, Serves validator cache →
    request.expected = type → (validator.compile cache request).1 = .ok compiled →
    ∀ below info, type.Reaches below →
      cache.description validator.catalog below.module = some info →
      (info.findType? below.name).isSome = true →
      ∀ d ∈ compiled.diagnostics, d.code = "E002" →
        d.message ≠ (Calc.Finding.unknownType below.name).message

theorem mem_request_modules {request : Request} {module : ModuleId}
    (h : module ∈ request.expected.definingModules) : module ∈ request.modules :=
  List.mem_append_left _ h

theorem ModulesComplete.propagates {type : SemanticType} (h : type.ModulesComplete) :
    type.Propagates := by
  constructor
  · exact h
  · rintro validator cache request compiled hserves rfl hcompiled below hbelow hcontains
    have hmem := mem_request_modules (h below hbelow)
    obtain ⟨described, hfind⟩ := Option.isSome_iff_exists.mp hcontains
    obtain ⟨info, hinfo⟩ : ∃ info, cache.description validator.catalog below.module = some info := by
      rw [ReferenceCache.description, hfind]
      cases cache.get? below.module with
      | some stored => exact ⟨stored.info, rfl⟩
      | none => exact ⟨described, rfl⟩
    obtain ⟨found, hfound, hmodule, -⟩ := description_mem_of_compile hserves hcompiled hmem hinfo
    exact CompilationUnit.hasReference_iff.mpr (List.mem_map.mpr ⟨found, hfound, hmodule⟩)
  · rintro validator cache request compiled hserves rfl hcompiled below info hbelow hinfo hexport
    exact not_unknown_of_compile hserves hcompiled (mem_request_modules (h below hbelow)) hinfo
      hexport

/-- What lies below an expected type is provided for exactly when everything below the types that
the search passes over is defined in modules of types that it meets. -/
theorem propagates_iff_nothingHidden (type : SemanticType) :
    type.Propagates ↔ type.NothingHidden := by
  constructor
  · intro h
    exact type.modulesComplete_iff.mp h.complete
  · intro h
    exact (type.modulesComplete_iff.mpr h).propagates

/-- `coll.List<coll.List<geo.Square>>` -/
def nestedSquares : SemanticType :=
  ⟨"coll.List", "coll", [⟨"coll.List", "coll", [named "geo.Square" "geo"], []⟩], []⟩

/-- A variable of lists of lists of squares, expected to be just that. -/
def nestedSquaresRequest : Request :=
  ⟨.none, fun name => if name = "xs" then some nestedSquares else none, nestedSquares, "xs"⟩

def squareCatalog : Catalog :=
  (Catalog.withCore 0).addAll
    [⟨"coll", ["coll"], [⟨"coll.List", []⟩]⟩, ⟨"geo", ["geo"], [⟨"geo.Square", []⟩]⟩]

theorem nestedSquares_definingModules : nestedSquares.definingModules = ["coll"] := by
  decide +kernel

/-- Inside a list of lists the element type is hidden: the inner list is passed over, its module is
not asked for, and the squares that it exports are unknown. -/
theorem nestedSquares_hides_square :
    ¬ nestedSquares.Propagates ∧
      (Service.start squareCatalog .standard).answer nestedSquaresRequest =
        .ok (List.replicate 2
          ⟨"E002: " ++ (Calc.Finding.unknownType "geo.Square").message, false, none⟩) := by
  constructor
  · intro h
    let square := named "geo.Square" "geo"
    let squares : SemanticType := ⟨"coll.List", "coll", [square], []⟩
    have houter : squares ∈ nestedSquares.parts := List.mem_singleton_self squares
    have hinner : square ∈ squares.parts := List.mem_singleton_self square
    have hbelow : nestedSquares.Reaches square := .head houter (.single hinner)
    have hcomplete := h.complete _ hbelow
    rw [nestedSquares_definingModules] at hcomplete
    exact absurd hcomplete (by decide)
  · decide +kernel

/-- It is provided for where a name stands for one type only. -/
theorem propagates_of_names {type : SemanticType}
    (h : ∀ a b, type.Reaches a → type.Reaches b → a.name = b.name → a = b) : type.Propagates :=
  (type.modulesComplete_iff.mpr (nothingHidden_of_names h)).propagates

end SemanticType

end ExprVet
