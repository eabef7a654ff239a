import ExprVet.Validation.Catalog

/-! # The cache of references

Describing a module is the expensive part of a validation, so references are kept once made. The
cache only grows: the first reference stored for a module stays. -/

namespace ExprVet

open Data

structure ReferenceCache where
  /-- Modules with their references, in the order of storing. -/
  entries : List (ModuleId × Reference)
  deriving Repr

namespace ReferenceCache

def empty : ReferenceCache := ⟨[]⟩

def get? (cache : ReferenceCache) (module : ModuleId) : Option Reference :=
  cache.entries.lookup module

def contains (cache : ReferenceCache) (module : ModuleId) : Bool := (cache.get? module).isSome

def size (cache : ReferenceCache) : Nat := cache.entries.length

def isEmpty (cache : ReferenceCache) : Bool := cache.size == 0

/-- Stores a reference unless the module has one; either way yields the stored one. -/
def insertIfAbsent (cache : ReferenceCache) (module : ModuleId) (reference : Reference) :
    Reference × ReferenceCache :=
  match cache.get? module with
  | some stored => (stored, cache)
  | none => (reference, ⟨cache.entries ++ [(module, reference)]⟩)

/-- The stored reference of a module, which is described only when there is none. Where that fails
nothing is stored. The describer works on a state of its own. -/
def ensure {σ : Type} (cache : ReferenceCache) (module : ModuleId)
    (describe : σ → Except EngineError Reference × σ) (state : σ) :
    Option Reference × ReferenceCache × σ :=
  match cache.get? module with
  | some stored => (some stored, cache, state)
  | none =>
      match describe state with
      | (.ok reference, state) =>
          let (stored, cache) := cache.insertIfAbsent module reference
          (some stored, cache, state)
      | (.error _, state) => (none, cache, state)

/-- The references of some modules, described by a catalog where necessary. Modules that cannot be
described are left out. -/
def ensureAll (cache : ReferenceCache) (catalog : Catalog) :
    List ModuleId → List Reference × ReferenceCache × Catalog
  | [] => ([], cache, catalog)
  | module :: modules =>
      let (first, cache, catalog) := cache.ensure module (·.describe module) catalog
      let (rest, cache, catalog) := cache.ensureAll catalog modules
      (first.toList ++ rest, cache, catalog)

/-- Every stored reference, in the order of the modules that the references describe. -/
def references (cache : ReferenceCache) : List Reference :=
  (cache.entries.map Prod.snd).mergeSort fun a b => !(b.module < a.module)

/-- The modules that have a reference, in order. -/
def modules (cache : ReferenceCache) : List ModuleId := ordered (cache.entries.map Prod.fst)

@[simp] theorem get?_empty (module : ModuleId) : empty.get? module = none := rfl

theorem get?_insertIfAbsent_self (cache : ReferenceCache) (module : ModuleId)
    (reference : Reference) :
    (cache.insertIfAbsent module reference).2.get? module =
      some (cache.insertIfAbsent module reference).1 := by
  unfold insertIfAbsent
  cases h : cache.get? module with
  | some stored => exact h
  | none =>
      simp only [get?] at h ⊢
      simp [List.lookup_append, h]

/-- A stored reference is never replaced. -/
theorem get?_insertIfAbsent_of_some {cache : ReferenceCache} {other : ModuleId} {stored : Reference}
    (h : cache.get? other = some stored) (module : ModuleId) (reference : Reference) :
    (cache.insertIfAbsent module reference).2.get? other = some stored := by
  unfold insertIfAbsent
  cases cache.get? module with
  | some _ => exact h
  | none =>
      simp only [get?] at h ⊢
      simp [List.lookup_append, h]

end ReferenceCache

end ExprVet
