import ExprVet.Proofs.History

/-!
# What is loaded

A validator that has its cache to itself loads a module when it is asked for the first time, and
never again. `Accounts` relates what the catalog has counted and what the cache holds to the modules
that were asked for. Ensuring one module keeps the accounts, whether the module is stored already,
can be described or is unknown; so do the seed modules, each call and any sequence of calls.
-/

namespace ExprVet

/-- The modules that a call asks for. -/
def Call.modules : Call → List ModuleId
  | .validate request | .compile request =>
      request.expected.definingModules ++ request.host.modules

/-- The catalog and the cache are what asking for some modules makes of a catalog and an empty
cache. -/
structure Accounts (catalog : Catalog) (asked : List ModuleId) (cache : ReferenceCache)
    (now : Catalog) : Prop where
  modules : now.modules = catalog.modules
  stored : ∀ module, module ∈ cache.entries.map Prod.fst ↔
    module ∈ asked ∧ catalog.contains module = true
  nodup : (cache.entries.map Prod.fst).Nodup
  loads : now.loads = catalog.loads + cache.size
  faithful : cache.Faithful catalog

namespace Accounts

variable {catalog now : Catalog} {asked : List ModuleId} {cache : ReferenceCache}

theorem empty (catalog : Catalog) : Accounts catalog [] .empty catalog := by
  constructor
  · rfl
  · simp [ReferenceCache.empty]
  · exact List.nodup_nil
  · rfl
  · exact ReferenceCache.faithful_empty catalog

theorem contains_iff (h : Accounts catalog asked cache now) (module : ModuleId) :
    cache.contains module = true ↔ module ∈ asked ∧ catalog.contains module = true := by
  rw [← h.stored, ReferenceCache.contains, ReferenceCache.get?, Option.isSome_iff_ne_none, ne_eq,
    Data.lookup_eq_none_iff_not_mem, not_not]

/-- A module that is stored already or unknown to the catalog changes nothing when asked for. -/
theorem ask (h : Accounts catalog asked cache now) {module : ModuleId}
    (hstored : catalog.contains module = true → cache.contains module = true) :
    Accounts catalog (asked ++ [module]) cache now := by
  refine ⟨h.modules, fun other => ?_, h.nodup, h.loads, h.faithful⟩
  rw [h.stored, List.mem_append, List.mem_singleton]
  constructor
  · exact fun ⟨hasked, hknown⟩ => ⟨.inl hasked, hknown⟩
  · rintro ⟨hasked | rfl, hknown⟩
    · exact ⟨hasked, hknown⟩
    · exact (h.contains_iff other).mp (hstored hknown)

/-- A module that is not stored yet is loaded once and stored. -/
theorem load (h : Accounts catalog asked cache now) {module : ModuleId} {info : ModuleInfo}
    (hget : cache.get? module = none) (hfind : catalog.find? module = some info) (serial : Nat) :
    Accounts catalog (asked ++ [module]) ⟨cache.entries ++ [(module, ⟨serial, info⟩)]⟩
      { now with loads := now.loads + 1 } := by
  have hknown : catalog.contains module = true := by
    rw [Catalog.contains, hfind]
    rfl
  constructor
  · exact h.modules
  · intro other
    rw [List.map_append, List.map_singleton, List.mem_append, List.mem_append, h.stored,
      or_and_right, List.mem_singleton]
    apply or_congr_right
    constructor
    · rintro rfl
      exact ⟨rfl, hknown⟩
    · exact And.left
  · exact ReferenceCache.nodup_append_fresh h.nodup hget _
  · simp only [ReferenceCache.size, List.length_append, List.length_singleton]
    rw [h.loads, ReferenceCache.size, Nat.add_assoc]
  · intro other reference hother
    by_cases hne : other = module
    · subst hne
      rw [ReferenceCache.get?_append_self hget] at hother
      cases hother
      exact hfind
    · rw [ReferenceCache.get?_append_of_ne hne] at hother
      exact h.faithful other reference hother

theorem ensure (h : Accounts catalog asked cache now) (module : ModuleId) :
    Accounts catalog (asked ++ [module]) (cache.ensure module (·.describe module) now).2.1
      (cache.ensure module (·.describe module) now).2.2 := by
  have hknown := Catalog.find?_congr h.modules module
  obtain ⟨stored, hget, he⟩ | ⟨info, hget, hfind, he⟩ | ⟨hget, hfind, he⟩ :=
    ReferenceCache.ensure_cases cache now module
  · rw [he]
    exact h.ask fun _ => by rw [ReferenceCache.contains, hget]; rfl
  · rw [he]
    exact h.load hget (hknown ▸ hfind) _
  · rw [he]
    exact h.ask fun hcontains => by simp [Catalog.contains, ← hknown, hfind] at hcontains

theorem ensureAll (h : Accounts catalog asked cache now) (modules : List ModuleId) :
    Accounts catalog (asked ++ modules) (cache.ensureAll now modules).2.1
      (cache.ensureAll now modules).2.2 := by
  induction modules generalizing asked cache now with
  | nil =>
      rw [List.append_nil]
      exact h
  | cons module modules ih =>
      simp only [ReferenceCache.ensureAll_cons]
      rw [← List.singleton_append, ← List.append_assoc]
      exact ih (h.ensure module)

end Accounts

namespace Service

theorem accounts_serve {catalog : Catalog} {asked : List ModuleId} {service : Service}
    (h : Accounts catalog asked service.cache service.validator.catalog) (call : Call) :
    Accounts catalog (asked ++ call.modules) (service.serve call).cache
      (service.serve call).validator.catalog := by
  cases call with
  | validate request => exact h.ensureAll request.modules
  | compile request => exact h.ensureAll request.modules

theorem accounts_serveAll {catalog : Catalog} {asked : List ModuleId} {service : Service}
    (h : Accounts catalog asked service.cache service.validator.catalog) (calls : List Call) :
    Accounts catalog (asked ++ calls.flatMap Call.modules) (service.serveAll calls).cache
      (service.serveAll calls).validator.catalog := by
  induction calls generalizing asked service with
  | nil =>
      rw [List.flatMap_nil, List.append_nil]
      exact h
  | cons call calls ih =>
      rw [List.flatMap_cons, ← List.append_assoc]
      exact ih (accounts_serve h call)

/-- A validator with a cache of its own stores exactly the modules of its catalog among the seed
modules and those that the calls up to now have asked for, each once. As many modules were loaded
since it was made as are stored, and each is stored under its own identity and as the catalog
defines it. -/
theorem loaded_once_when_requested (catalog : Catalog) (config : ValidatorConfig)
    (calls : List Call) :
    let service := (start catalog config).serveAll calls
    (∀ module, service.cache.contains module = true ↔
      module ∈ config.seedModules ++ calls.flatMap Call.modules ∧
        catalog.contains module = true) ∧
    (service.cache.entries.map Prod.fst).Nodup ∧
    service.validator.catalog.loads = catalog.loads + service.cache.size ∧
    ∀ module reference, service.cache.get? module = some reference →
      reference.module = module ∧ catalog.find? module = some reference.info := by
  intro service
  have hstart := (Accounts.empty catalog).ensureAll config.seedModules
  have haccounts : Accounts catalog (config.seedModules ++ calls.flatMap Call.modules)
      service.cache service.validator.catalog := accounts_serveAll hstart calls
  refine ⟨haccounts.contains_iff, haccounts.nodup, haccounts.loads, ?_⟩
  intro module reference hget
  have hfind := haccounts.faithful module reference hget
  exact ⟨Catalog.id_of_find? hfind, hfind⟩

end Service

end ExprVet
