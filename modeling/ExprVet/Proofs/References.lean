import ExprVet.Validation.Validator
import Mathlib.Data.List.Basic
import Mathlib.Data.List.Nodup

/-!
# How references are gathered

Ensuring a module finds its reference, makes one from the catalog, or leaves everything as it is.
`ensure_cases` says so once; that a stored reference stays, that it belongs to the module it is
stored for and that it describes the module as the catalog does are read off from it, and carry over
to any list of modules. A unit takes the references in the order of their modules.
-/

namespace ExprVet

open Data

namespace Data

variable {α β : Type}

/-- An inserted item has its key in the list, by itself or by an item that was there before. -/
theorem exists_key_insertNew (key : α → String) (x : α) (xs : List α) :
    ∃ y ∈ insertNew key x xs, key y = key x := by
  induction xs with
  | nil => exact ⟨x, List.mem_cons_self, rfl⟩
  | cons y ys ih =>
      rw [insertNew]
      split
      · exact ⟨x, List.mem_cons_self, rfl⟩
      · split
        · obtain ⟨found, hmem, hkey⟩ := ih
          exact ⟨found, List.mem_cons_of_mem _ hmem, hkey⟩
        · rename_i hlt hgt
          exact ⟨y, List.mem_cons_self, String.le_antisymm hlt hgt⟩

theorem mem_insertNew_of_mem {key : α → String} {x y : α} {xs : List α} (h : y ∈ xs) :
    y ∈ insertNew key x xs := by
  induction xs with
  | nil => cases h
  | cons z zs ih =>
      rw [insertNew]
      split
      · exact List.mem_cons_of_mem _ h
      · split
        · rcases List.mem_cons.mp h with rfl | h
          · exact List.mem_cons_self
          · exact List.mem_cons_of_mem _ (ih h)
        · exact h

theorem mem_of_mem_insertNew {key : α → String} {x y : α} {xs : List α}
    (h : y ∈ insertNew key x xs) : y = x ∨ y ∈ xs := by
  induction xs with
  | nil => exact .inl (List.mem_singleton.mp h)
  | cons z zs ih =>
      rw [insertNew] at h
      split at h
      · exact List.mem_cons.mp h
      · split at h
        · rcases List.mem_cons.mp h with rfl | h
          · exact .inr List.mem_cons_self
          · exact (ih h).imp id (List.mem_cons_of_mem _)
        · exact .inr h

theorem pairwise_insertNew {key : α → String} (x : α) {xs : List α}
    (h : (xs.map key).Pairwise (· < ·)) : ((insertNew key x xs).map key).Pairwise (· < ·) := by
  induction xs with
  | nil => exact List.pairwise_singleton _ _
  | cons y ys ih =>
      obtain ⟨hfirst, hrest⟩ := List.pairwise_cons.mp h
      rw [insertNew]
      split
      · rename_i hlt
        refine List.pairwise_cons.mpr ⟨?_, h⟩
        rw [List.map_cons, List.forall_mem_cons]
        exact ⟨hlt, fun k hk => String.lt_trans hlt (hfirst k hk)⟩
      · split
        · rename_i hgt
          refine List.pairwise_cons.mpr ⟨fun k hk => ?_, ih hrest⟩
          obtain ⟨z, hz, rfl⟩ := List.mem_map.mp hk
          rcases mem_of_mem_insertNew hz with rfl | hz
          · exact hgt
          · exact hfirst _ (List.mem_map_of_mem hz)
        · exact h

theorem isSome_findKey?_iff {key : α → String} {k : String} {xs : List α} :
    (findKey? key k xs).isSome = true ↔ k ∈ xs.map key := by
  simp [findKey?, List.find?_isSome]

/-- Nothing is inserted into an ordered list that has the key. -/
theorem insertNew_of_mem {key : α → String} {x : α} {xs : List α}
    (hordered : (xs.map key).Pairwise (· < ·)) (h : key x ∈ xs.map key) :
    insertNew key x xs = xs := by
  induction xs with
  | nil => cases h
  | cons y ys ih =>
      obtain ⟨hfirst, hrest⟩ := List.pairwise_cons.mp hordered
      rcases List.mem_cons.mp h with heq | hmem
      · rw [insertNew, heq, if_neg (String.lt_irrefl _), if_neg (String.lt_irrefl _)]
      · have hlt := hfirst _ hmem
        rw [insertNew, if_neg (String.lt_asymm hlt), if_pos hlt, ih hrest hmem]

theorem length_insertNew {key : α → String} {x : α} {xs : List α} (h : key x ∉ xs.map key) :
    (insertNew key x xs).length = xs.length + 1 := by
  induction xs with
  | nil => rfl
  | cons y ys ih =>
      rw [List.map_cons, List.mem_cons, not_or] at h
      rw [insertNew]
      split
      · rfl
      · split
        · rw [List.length_cons, ih h.2, List.length_cons]
        · rename_i hlt hgt
          exact absurd (String.le_antisymm hgt hlt) h.1

/-- The count is the number of items by which the list grows. -/
theorem length_insertAllNew (key : α → String) (all xs : List α) :
    (insertAllNew key all xs).2.length = all.length + (insertAllNew key all xs).1 := by
  induction xs generalizing all with
  | nil => rfl
  | cons x xs ih =>
      rw [insertAllNew]
      split
      · exact ih all
      · rename_i hnew
        rw [isSome_findKey?_iff] at hnew
        dsimp only
        rw [ih, length_insertNew hnew, Nat.add_right_comm, Nat.add_assoc]

/-- Insertion looks at keys only. -/
theorem map_insertNew {key : α → String} {key' : β → String} {f : α → β}
    (h : ∀ a, key' (f a) = key a) (x : α) (xs : List α) :
    (insertNew key x xs).map f = insertNew key' (f x) (xs.map f) := by
  induction xs with
  | nil => rfl
  | cons y ys ih =>
      simp only [insertNew, List.map_cons, h]
      split
      · rfl
      · split
        · rw [List.map_cons, ih]
        · rfl

/-- A list of pairs has a value for its keys and for nothing else. -/
theorem lookup_eq_none_iff_not_mem {pairs : List (String × α)} {key : String} :
    pairs.lookup key = none ↔ key ∉ pairs.map Prod.fst := by
  rw [List.lookup_eq_none_iff, List.mem_map]
  constructor
  · rintro hnone ⟨pair, hmem, rfl⟩
    exact absurd (hnone pair hmem) (by simp)
  · intro hfresh pair hmem
    have hne : key ≠ pair.1 := fun heq => hfresh ⟨pair, hmem, heq.symm⟩
    simpa using hne

/-- A list with one more item has what it had, and that item where it ended. -/
theorem getElem?_concat_eq_some_iff {xs : List α} {last x : α} {index : Nat} :
    (xs ++ [last])[index]? = some x ↔ xs[index]? = some x ∨ index = xs.length ∧ x = last := by
  rcases Nat.lt_trichotomy index xs.length with hlt | rfl | hgt
  · rw [List.getElem?_append_left hlt, or_iff_left fun h => Nat.ne_of_lt hlt h.1]
  · simp [eq_comm]
  · have hnone : (xs ++ [last])[index]? = none := by
      rw [List.getElem?_eq_none_iff, List.length_append, List.length_singleton]
      exact hgt
    simp [hnone, List.getElem?_eq_none_iff.mpr (Nat.le_of_lt hgt), Nat.ne_of_gt hgt]

end Data

namespace Catalog

theorem id_of_find? {catalog : Catalog} {module : ModuleId} {info : ModuleInfo}
    (h : catalog.find? module = some info) : info.id = module := by
  simpa using List.find?_some h

theorem find?_congr {first second : Catalog} (h : first.modules = second.modules)
    (module : ModuleId) : first.find? module = second.find? module := by
  rw [find?, find?, h]

end Catalog

namespace ReferenceCache

/-- The reference that a catalog makes next for a module described by `info`. -/
def fresh (catalog : Catalog) (info : ModuleInfo) : Reference :=
  ⟨catalog.firstSerial + catalog.loads, info⟩

/-- What ensuring a module can do. -/
theorem ensure_cases (cache : ReferenceCache) (catalog : Catalog) (module : ModuleId) :
    (∃ stored, cache.get? module = some stored ∧
      cache.ensure module (·.describe module) catalog = (some stored, cache, catalog)) ∨
    (∃ info, cache.get? module = none ∧ catalog.find? module = some info ∧
      cache.ensure module (·.describe module) catalog =
        (some (fresh catalog info), ⟨cache.entries ++ [(module, fresh catalog info)]⟩,
          { catalog with loads := catalog.loads + 1 })) ∨
    (cache.get? module = none ∧ catalog.find? module = none ∧
      cache.ensure module (·.describe module) catalog = (none, cache, catalog)) := by
  cases hget : cache.get? module with
  | some stored => exact .inl ⟨stored, rfl, by simp [ensure, hget]⟩
  | none =>
      cases hfind : catalog.find? module with
      | some info =>
          refine .inr (.inl ⟨info, rfl, rfl, ?_⟩)
          simp [ensure, hget, Catalog.describe, hfind, insertIfAbsent, fresh]
      | none => exact .inr (.inr ⟨rfl, rfl, by simp [ensure, hget, Catalog.describe, hfind]⟩)

theorem get?_append_self {cache : ReferenceCache} {module : ModuleId} {reference : Reference}
    (h : cache.get? module = none) :
    get? ⟨cache.entries ++ [(module, reference)]⟩ module = some reference := by
  simp only [get?] at h ⊢
  simp [List.lookup_append, h]

theorem get?_append_of_ne {cache : ReferenceCache} {module other : ModuleId}
    {reference : Reference} (h : other ≠ module) :
    get? ⟨cache.entries ++ [(module, reference)]⟩ other = cache.get? other := by
  have hne : (other == module) = false := by simpa using h
  simp [get?, List.lookup_append, List.lookup_cons, hne]

/-- Storing a module that is not stored yet keeps the modules distinct. -/
theorem nodup_append_fresh {cache : ReferenceCache} (h : (cache.entries.map Prod.fst).Nodup)
    {module : ModuleId} (hget : cache.get? module = none) (reference : Reference) :
    ((cache.entries ++ [(module, reference)]).map Prod.fst).Nodup := by
  have hfresh : module ∉ cache.entries.map Prod.fst := lookup_eq_none_iff_not_mem.mp hget
  rw [List.map_append, List.map_singleton, ← List.concat_eq_append]
  exact List.Nodup.concat hfresh h

section Ensure

variable {cache : ReferenceCache} {catalog : Catalog} {module : ModuleId}

theorem ensure_modules :
    (cache.ensure module (·.describe module) catalog).2.2.modules = catalog.modules := by
  obtain ⟨stored, -, h⟩ | ⟨info, -, -, h⟩ | ⟨-, -, h⟩ := ensure_cases cache catalog module
  all_goals rw [h]

theorem get?_ensure_of_ne {other : ModuleId} (hne : other ≠ module) :
    (cache.ensure module (·.describe module) catalog).2.1.get? other = cache.get? other := by
  obtain ⟨stored, -, h⟩ | ⟨info, -, -, h⟩ | ⟨-, -, h⟩ := ensure_cases cache catalog module
  · rw [h]
  · rw [h, get?_append_of_ne hne]
  · rw [h]

/-- A stored reference is never replaced. -/
theorem get?_ensure_of_some {other : ModuleId} {stored : Reference}
    (hstored : cache.get? other = some stored) :
    (cache.ensure module (·.describe module) catalog).2.1.get? other = some stored := by
  by_cases hne : other = module
  · subst hne
    obtain ⟨found, -, h⟩ | ⟨info, hget, -, h⟩ | ⟨hget, -, h⟩ := ensure_cases cache catalog other
    · rw [h, hstored]
    · rw [hget] at hstored
      cases hstored
    · rw [hget] at hstored
      cases hstored
  · rw [get?_ensure_of_ne hne, hstored]

/-- A module that the catalog does not know gets no reference. -/
theorem get?_ensure_of_none {other : ModuleId} (hfind : catalog.find? other = none)
    (hget : cache.get? other = none) :
    (cache.ensure module (·.describe module) catalog).2.1.get? other = none := by
  by_cases hne : other = module
  · subst hne
    obtain ⟨found, hsome, -⟩ | ⟨info, -, hsome, -⟩ | ⟨-, -, h⟩ := ensure_cases cache catalog other
    · rw [hget] at hsome
      cases hsome
    · rw [hfind] at hsome
      cases hsome
    · rw [h, hget]
  · rw [get?_ensure_of_ne hne, hget]

end Ensure

/-- Every reference is stored for the module that it describes. -/
def Keyed (cache : ReferenceCache) : Prop :=
  ∀ module reference, cache.get? module = some reference → reference.module = module

/-- Every stored reference describes its module as a catalog does. -/
def Faithful (cache : ReferenceCache) (catalog : Catalog) : Prop :=
  ∀ module reference, cache.get? module = some reference →
    catalog.find? module = some reference.info

theorem keyed_empty : empty.Keyed := by
  intro module reference h
  cases h

theorem faithful_empty (catalog : Catalog) : empty.Faithful catalog := by
  intro module reference h
  cases h

/-- A reference found after ensuring a module was there before or is the catalog's own. -/
theorem get?_ensure_eq_some {cache : ReferenceCache} {catalog : Catalog} {module other : ModuleId}
    {reference : Reference}
    (h : (cache.ensure module (·.describe module) catalog).2.1.get? other = some reference) :
    cache.get? other = some reference ∨ catalog.find? other = some reference.info := by
  by_cases hne : other = module
  · subst hne
    obtain ⟨stored, hget, he⟩ | ⟨info, hget, hfind, he⟩ | ⟨hget, -, he⟩ :=
      ensure_cases cache catalog other
    · rw [he] at h
      exact .inl h
    · rw [he, get?_append_self hget] at h
      cases h
      exact .inr hfind
    · rw [he] at h
      exact .inl h
  · rw [get?_ensure_of_ne hne] at h
    exact .inl h

theorem ensureAll_cons (cache : ReferenceCache) (catalog : Catalog) (module : ModuleId)
    (modules : List ModuleId) :
    cache.ensureAll catalog (module :: modules) =
      let first := cache.ensure module (·.describe module) catalog
      let rest := first.2.1.ensureAll first.2.2 modules
      (first.1.toList ++ rest.1, rest.2) := rfl

theorem ensureAll_modules (cache : ReferenceCache) (catalog : Catalog) (modules : List ModuleId) :
    (cache.ensureAll catalog modules).2.2.modules = catalog.modules := by
  induction modules generalizing cache catalog with
  | nil => rfl
  | cons module modules ih =>
      simp only [ensureAll_cons]
      rw [ih, ensure_modules]

theorem get?_ensureAll_of_some {cache : ReferenceCache} {other : ModuleId} {stored : Reference}
    (h : cache.get? other = some stored) (catalog : Catalog) (modules : List ModuleId) :
    (cache.ensureAll catalog modules).2.1.get? other = some stored := by
  induction modules generalizing cache catalog with
  | nil => exact h
  | cons module modules ih =>
      simp only [ensureAll_cons]
      exact ih (get?_ensure_of_some h) _

theorem get?_ensureAll_of_none {cache : ReferenceCache} {catalog : Catalog} {other : ModuleId}
    (hfind : catalog.find? other = none) (hget : cache.get? other = none)
    (modules : List ModuleId) : (cache.ensureAll catalog modules).2.1.get? other = none := by
  induction modules generalizing cache catalog with
  | nil => exact hget
  | cons module modules ih =>
      simp only [ensureAll_cons]
      apply ih _ (get?_ensure_of_none hfind hget)
      rw [Catalog.find?_congr ensure_modules, hfind]

/-- What is handed out for some modules is what the cache holds for them in the end. -/
theorem ensureAll_fst (cache : ReferenceCache) (catalog : Catalog) (modules : List ModuleId) :
    (cache.ensureAll catalog modules).1 =
      modules.filterMap (cache.ensureAll catalog modules).2.1.get? := by
  induction modules generalizing cache catalog with
  | nil => rfl
  | cons module modules ih =>
      simp only [ensureAll_cons, List.filterMap_cons]
      rw [ih]
      have hkept : ((cache.ensure module (·.describe module) catalog).2.1.ensureAll
          (cache.ensure module (·.describe module) catalog).2.2 modules).2.1.get? module =
            (cache.ensure module (·.describe module) catalog).1 := by
        obtain ⟨stored, hget, h⟩ | ⟨info, hget, -, h⟩ | ⟨hget, hfind, h⟩ :=
          ensure_cases cache catalog module
        · rw [h]
          exact get?_ensureAll_of_some hget _ _
        · rw [h]
          exact get?_ensureAll_of_some (get?_append_self hget) _ _
        · rw [h]
          exact get?_ensureAll_of_none hfind hget _
      rw [hkept]
      cases (cache.ensure module (·.describe module) catalog).1 <;> rfl

/-- A reference found after ensuring some modules was there before or is the catalog's own. -/
theorem get?_ensureAll_eq_some {cache : ReferenceCache} {catalog : Catalog}
    {modules : List ModuleId} {other : ModuleId} {reference : Reference}
    (h : (cache.ensureAll catalog modules).2.1.get? other = some reference) :
    cache.get? other = some reference ∨ catalog.find? other = some reference.info := by
  induction modules generalizing cache catalog with
  | nil => exact .inl h
  | cons module modules ih =>
      simp only [ensureAll_cons] at h
      rcases ih h with hfirst | hfind
      · exact get?_ensure_eq_some hfirst
      · rw [Catalog.find?_congr ensure_modules] at hfind
        exact .inr hfind

theorem Keyed.ensureAll {cache : ReferenceCache} (h : cache.Keyed) (catalog : Catalog)
    (modules : List ModuleId) : (cache.ensureAll catalog modules).2.1.Keyed := by
  intro other reference hget
  rcases get?_ensureAll_eq_some hget with hold | hfind
  · exact h other reference hold
  · exact Catalog.id_of_find? hfind

theorem Faithful.ensureAll {cache : ReferenceCache} {catalog : Catalog} (h : cache.Faithful catalog)
    (modules : List ModuleId) : (cache.ensureAll catalog modules).2.1.Faithful
      (cache.ensureAll catalog modules).2.2 := by
  intro other reference hget
  rw [Catalog.find?_congr (ensureAll_modules cache catalog modules)]
  rcases get?_ensureAll_eq_some hget with hold | hfind
  · exact h other reference hold
  · exact hfind

/-- A module that the catalog knows has a reference once it was ensured. -/
theorem exists_get?_ensureAll {catalog : Catalog} {module : ModuleId} {info : ModuleInfo}
    (hfind : catalog.find? module = some info) {modules : List ModuleId} (hmem : module ∈ modules)
    (cache : ReferenceCache) :
    ∃ reference, (cache.ensureAll catalog modules).2.1.get? module = some reference := by
  induction modules generalizing cache catalog with
  | nil => cases hmem
  | cons first modules ih =>
      simp only [ensureAll_cons]
      rcases List.mem_cons.mp hmem with rfl | hmem
      · obtain ⟨stored, hget, h⟩ | ⟨found, hget, -, h⟩ | ⟨-, hnone, -⟩ :=
          ensure_cases cache catalog module
        · rw [h]
          exact ⟨stored, get?_ensureAll_of_some hget _ _⟩
        · rw [h]
          exact ⟨_, get?_ensureAll_of_some (get?_append_self hget) _ _⟩
        · rw [hfind] at hnone
          cases hnone
      · exact ih (by rw [Catalog.find?_congr ensure_modules, hfind]) hmem _

/-- From a faithful cache the modules of the catalog are handed out, whatever else is stored. -/
theorem infos_ensureAll {cache : ReferenceCache} {catalog : Catalog} (h : cache.Faithful catalog)
    (modules : List ModuleId) :
    (cache.ensureAll catalog modules).1.map (·.info) = modules.filterMap catalog.find? := by
  rw [ensureAll_fst, List.map_filterMap]
  apply List.filterMap_congr
  intro module hmem
  cases hget : (cache.ensureAll catalog modules).2.1.get? module with
  | some reference =>
      have hfaithful := h.ensureAll modules module reference hget
      rw [Catalog.find?_congr (ensureAll_modules cache catalog modules)] at hfaithful
      rw [hfaithful]
      rfl
  | none =>
      cases hfind : catalog.find? module with
      | none => rfl
      | some info =>
          obtain ⟨reference, hsome⟩ := exists_get?_ensureAll hfind hmem cache
          rw [hget] at hsome
          cases hsome

/-- A module that is asked for is stored in the end just if it was stored before or can be
described, whatever else is asked for. -/
theorem contains_ensureAll_iff {catalog : Catalog} {modules : List ModuleId} {module : ModuleId}
    (hmem : module ∈ modules) (cache : ReferenceCache) :
    (cache.ensureAll catalog modules).2.1.contains module = true ↔
      cache.contains module = true ∨ catalog.contains module = true := by
  simp only [contains, Catalog.contains, Option.isSome_iff_exists]
  constructor
  · rintro ⟨reference, hget⟩
    exact (get?_ensureAll_eq_some hget).imp (fun h => ⟨_, h⟩) fun h => ⟨_, h⟩
  · rintro (⟨stored, hget⟩ | ⟨info, hfind⟩)
    · exact ⟨stored, get?_ensureAll_of_some hget catalog modules⟩
    · exact exists_get?_ensureAll hfind hmem cache

/-- References are handed out for the modules asked for that are stored in the end. -/
theorem mem_map_module_ensureAll {cache : ReferenceCache} (h : cache.Keyed) (catalog : Catalog)
    (modules : List ModuleId) (module : ModuleId) :
    module ∈ (cache.ensureAll catalog modules).1.map (·.module) ↔
      module ∈ modules ∧ (cache.ensureAll catalog modules).2.1.contains module = true := by
  have hkeyed := h.ensureAll catalog modules
  rw [ensureAll_fst, List.map_filterMap, List.mem_filterMap, contains, Option.isSome_iff_exists]
  constructor
  · rintro ⟨asked, hmem, hsome⟩
    obtain ⟨reference, hget, rfl⟩ := Option.map_eq_some_iff.mp hsome
    rw [hkeyed asked reference hget]
    exact ⟨hmem, reference, hget⟩
  · rintro ⟨hmem, reference, hget⟩
    exact ⟨module, hmem, Option.map_eq_some_iff.mpr ⟨reference, hget, hkeyed _ _ hget⟩⟩

end ReferenceCache

namespace CompilationUnit

theorem hasReference_iff {unit : CompilationUnit} {module : ModuleId} :
    unit.hasReference module = true ↔ module ∈ unit.references.map (·.module) :=
  isSome_findKey?_iff

/-- References are attached one after the other. -/
theorem attach_cons (unit : CompilationUnit) (first : Reference) (rest : List Reference) :
    unit.attach (first :: rest) =
      if unit.hasReference first.module then unit.attach rest
      else attach { unit with references := insertNew Reference.module first unit.references }
        rest := by
  by_cases hold : unit.hasReference first.module = true
  · have hfound : (findKey? Reference.module first.module unit.references).isSome = true := hold
    rw [if_pos hold, attach, addReferences, insertAllNew, if_pos hfound]
    rfl
  · have hnone : ¬ (findKey? Reference.module first.module unit.references).isSome = true := hold
    rw [if_neg hold, attach, addReferences, insertAllNew, if_neg hnone]
    rfl

/-- A unit has as many references more as the call that attaches them counts. -/
theorem length_attach (unit : CompilationUnit) (references : List Reference) :
    (unit.attach references).references.length =
      unit.references.length + unit.countNew references :=
  length_insertAllNew Reference.module unit.references references

/-- Attaching takes nothing away. -/
theorem mem_attach_of_mem {unit : CompilationUnit} {reference : Reference}
    (h : reference ∈ unit.references) (references : List Reference) :
    reference ∈ (unit.attach references).references := by
  induction references generalizing unit with
  | nil => exact h
  | cons first rest ih =>
      rw [attach_cons]
      split
      · exact ih h
      · exact ih (mem_insertNew_of_mem h)

/-- An attached module has a reference, the attached one or an earlier one. -/
theorem exists_reference_attach {unit : CompilationUnit} {references : List Reference}
    {reference : Reference} (h : reference ∈ references) :
    ∃ found ∈ (unit.attach references).references, found.module = reference.module := by
  induction references generalizing unit with
  | nil => cases h
  | cons first rest ih =>
      rw [attach_cons]
      rcases List.mem_cons.mp h with rfl | h
      · split
        · rename_i hold
          obtain ⟨found, hmem, hkey⟩ := List.mem_map.mp (hasReference_iff.mp hold)
          exact ⟨found, mem_attach_of_mem hmem rest, hkey⟩
        · obtain ⟨found, hmem, hkey⟩ :=
            exists_key_insertNew Reference.module reference unit.references
          exact ⟨found, mem_attach_of_mem hmem rest, hkey⟩
      · split <;> exact ih h

/-- Attaching adds nothing but what is attached. -/
theorem mem_or_mem_of_mem_attach {unit : CompilationUnit} {references : List Reference}
    {reference : Reference} (h : reference ∈ (unit.attach references).references) :
    reference ∈ unit.references ∨ reference ∈ references := by
  induction references generalizing unit with
  | nil => exact .inl h
  | cons first rest ih =>
      rw [attach_cons] at h
      split at h
      · exact (ih h).imp id (List.mem_cons_of_mem first)
      · rcases ih h with hinserted | hrest
        · rcases mem_of_mem_insertNew hinserted with rfl | hold
          · exact .inr List.mem_cons_self
          · exact .inl hold
        · exact .inr (List.mem_cons_of_mem _ hrest)

/-- The modules of a unit are those that it had and those that were attached. -/
theorem mem_map_module_attach {unit : CompilationUnit} {references : List Reference}
    {module : ModuleId} : module ∈ (unit.attach references).references.map (·.module) ↔
      module ∈ unit.references.map (·.module) ∨ module ∈ references.map (·.module) := by
  simp only [List.mem_map]
  constructor
  · rintro ⟨reference, hmem, rfl⟩
    exact (mem_or_mem_of_mem_attach hmem).imp (fun h => ⟨_, h, rfl⟩) fun h => ⟨_, h, rfl⟩
  · rintro (⟨reference, hmem, rfl⟩ | ⟨reference, hmem, rfl⟩)
    · exact ⟨reference, mem_attach_of_mem hmem references, rfl⟩
    · exact exists_reference_attach hmem

/-- A unit with ordered references takes in further ones in their order. -/
theorem references_attach {unit : CompilationUnit}
    (h : (unit.references.map (·.module)).Pairwise (· < ·)) (references : List Reference) :
    (unit.attach references).references =
      references.foldl (fun all reference => insertNew Reference.module reference all)
        unit.references := by
  induction references generalizing unit with
  | nil => rfl
  | cons first rest ih =>
      rw [attach_cons, List.foldl_cons]
      split
      · rename_i hold
        rw [insertNew_of_mem h (hasReference_iff.mp hold), ih h]
      · exact ih (pairwise_insertNew first h)

theorem pairwise_attach {unit : CompilationUnit}
    (h : (unit.references.map (·.module)).Pairwise (· < ·)) (references : List Reference) :
    ((unit.attach references).references.map (·.module)).Pairwise (· < ·) := by
  induction references generalizing unit with
  | nil => exact h
  | cons first rest ih =>
      rw [attach_cons]
      split
      · exact ih h
      · exact ih (pairwise_insertNew first h)

/-- The descriptions in a unit are determined by those that are attached. -/
theorem infos_attach {unit : CompilationUnit}
    (h : (unit.references.map (·.module)).Pairwise (· < ·)) (references : List Reference) :
    (unit.attach references).references.map (·.info) =
      (references.map (·.info)).foldl (fun all info => insertNew ModuleInfo.id info all)
        (unit.references.map (·.info)) := by
  rw [references_attach h]
  generalize unit.references = all
  induction references generalizing all with
  | nil => rfl
  | cons first rest ih =>
      have hfirst : (insertNew Reference.module first all).map (·.info) =
          insertNew ModuleInfo.id first.info (all.map (·.info)) :=
        map_insertNew (fun _ => rfl) first all
      rw [List.foldl_cons, List.map_cons, List.foldl_cons, ih, hfirst]

end CompilationUnit

theorem Calc.Tree.exists_body_of_wrapper? {source : String} {tree : Calc.Tree}
    (h : Calc.Tree.wrapper? source = some tree) : ∃ span, tree.body = some span := by
  simp only [Calc.Tree.wrapper?, Option.bind_eq_bind, Option.bind_eq_some_iff] at h
  obtain ⟨body, -, htree⟩ := h
  cases htree
  exact ⟨body, rfl⟩

namespace Request

/-- The unit of a request with its wrapper installed. -/
def unit (request : Request) (template required : List Reference) (wrapper : Calc.Tree) :
    CompilationUnit :=
  ((((CompilationUnit.empty request.host.imports).attach template).install
    request.descriptor.discovery).install wrapper).attach required

theorem references_unit (request : Request) (template required : List Reference)
    (wrapper : Calc.Tree) : (request.unit template required wrapper).references =
      (((CompilationUnit.empty request.host.imports).attach template).attach required).references :=
  rfl

/-- A compilation fails for a wrapper that cannot be read, and otherwise yields what is found in
the wrapper's tree. -/
theorem compile_eq (request : Request) (template required : List Reference) :
    request.compile template required =
      match Calc.Tree.wrapper? request.descriptor.wrapper with
      | none => .error ⟨languageName, .malformedSource request.descriptor.wrapper⟩
      | some tree => .ok ⟨request.unit template required tree,
          Calc.check tree ((request.unit template required tree).references.map (·.info))
            request.host.imports⟩ := by
  rw [compile]
  cases hwrapper : Calc.Tree.wrapper? request.descriptor.wrapper with
  | none => rfl
  | some tree =>
      obtain ⟨span, hbody⟩ := Calc.Tree.exists_body_of_wrapper? hwrapper
      simp only [DiscoveryUnit.finalize, CompilationUnit.begin, FinalUnit.attach,
        FinalUnit.diagnose, CompilationUnit.diagnostics, CompilationUnit.tree?,
        CompilationUnit.install, CompilationUnit.attach, CompilationUnit.addReferences,
        List.head?_cons, hbody, Option.isNone_some]
      rfl

theorem exists_wrapper_of_compile {request : Request} {template required : List Reference}
    {compiled : Compiled} (h : request.compile template required = .ok compiled) :
    ∃ tree, Calc.Tree.wrapper? request.descriptor.wrapper = some tree ∧
      compiled.unit = request.unit template required tree ∧
      compiled.diagnostics =
        Calc.check tree (compiled.unit.references.map (·.info)) request.host.imports := by
  rw [compile_eq] at h
  cases hwrapper : Calc.Tree.wrapper? request.descriptor.wrapper with
  | none => simp [hwrapper] at h
  | some tree =>
      simp only [hwrapper, Except.ok.injEq] at h
      rw [← h]
      exact ⟨tree, rfl, rfl, rfl⟩

/-- The descriptions that a unit collects from its template and from the modules asked for. -/
def attachedInfos (template required : List ModuleInfo) : List ModuleInfo :=
  let insertAll := List.foldl fun all info => insertNew ModuleInfo.id info all
  insertAll (insertAll [] template) required

theorem infos_unit (request : Request) (template required : List Reference) (wrapper : Calc.Tree) :
    (request.unit template required wrapper).references.map (·.info) =
      attachedInfos (template.map (·.info)) (required.map (·.info)) := by
  rw [references_unit, CompilationUnit.infos_attach (CompilationUnit.pairwise_attach .nil _),
    CompilationUnit.infos_attach .nil]
  rfl

end Request

end ExprVet
