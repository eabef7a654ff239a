import ExprVet.Proofs.References

/-!
# Variables in nested scopes

A scope is known by its look-ups. The names that it shows are those with a type, and a single scope
that declares them with their types cannot be told from it.
-/

namespace ExprVet

namespace Data

theorem mem_insertNew_id_iff {x y : String} {xs : List String} :
    y ∈ insertNew id x xs ↔ y = x ∨ y ∈ xs := by
  constructor
  · exact mem_of_mem_insertNew
  · rintro (rfl | h)
    · obtain ⟨found, hmem, hkey⟩ := exists_key_insertNew id y xs
      obtain rfl : found = y := hkey
      exact hmem
    · exact mem_insertNew_of_mem h

theorem mem_ordered_iff {x : String} {xs : List String} : x ∈ ordered xs ↔ x ∈ xs := by
  have hfold (all : List String) :
      x ∈ xs.foldl (fun acc y => insertNew id y acc) all ↔ x ∈ all ∨ x ∈ xs := by
    induction xs generalizing all with
    | nil => simp
    | cons y ys ih =>
        rw [List.foldl_cons, ih, mem_insertNew_id_iff, List.mem_cons, or_assoc, or_left_comm]
  rw [ordered, hfold]
  simp

theorem pairwise_ordered (xs : List String) : (ordered xs).Pairwise (· < ·) := by
  have hfold (all : List String) (h : all.Pairwise (· < ·)) :
      (xs.foldl (fun acc y => insertNew id y acc) all).Pairwise (· < ·) := by
    induction xs generalizing all with
    | nil => exact h
    | cons y ys ih =>
        apply ih
        have hinserted : ((insertNew id y all).map id).Pairwise (· < ·) :=
          pairwise_insertNew y (by rwa [List.map_id])
        rwa [List.map_id] at hinserted
  exact hfold [] .nil

end Data

namespace VariableScope

theorem lookup_declare (scope : VariableScope) (name : String) (type : SemanticType)
    (other : String) :
    (scope.declare name type).lookup other =
      if other = name then some type else scope.lookup other := by
  by_cases h : other = name
  · rw [h, lookup_declare_self, if_pos rfl]
  · have hne : (other == name) = false := by simpa using h
    cases hinner : scope.inner <;>
      simp [declare, lookup, frames, hinner, List.findSome?_cons, List.lookup_cons, hne, h]

/-- Declarations that agree with an environment give their names the types of the environment. -/
theorem lookup_declareAll {environment : String → Option SemanticType}
    {declarations : List (String × SemanticType)}
    (h : ∀ declaration ∈ declarations, environment declaration.1 = some declaration.2)
    (scope : VariableScope) (name : String) :
    (scope.declareAll declarations).lookup name =
      if name ∈ declarations.map Prod.fst then environment name else scope.lookup name := by
  induction declarations generalizing scope with
  | nil => rfl
  | cons first rest ih =>
      obtain ⟨declared, type⟩ := first
      rw [List.forall_mem_cons] at h
      change ((scope.declare declared type).declareAll rest).lookup name = _
      rw [ih h.2, lookup_declare, List.map_cons]
      by_cases hrest : name ∈ rest.map Prod.fst
      · rw [if_pos hrest, if_pos (List.mem_cons_of_mem _ hrest)]
      · rw [if_neg hrest]
        by_cases hname : name = declared
        · rw [if_pos hname, if_pos (hname ▸ List.mem_cons_self), hname]
          exact h.1.symm
        · rw [if_neg hname, if_neg (List.not_mem_cons_of_ne_of_not_mem hname hrest)]

theorem mem_visibleNames_iff {scope : VariableScope} {name : String} :
    name ∈ scope.visibleNames ↔ ∃ type, scope.lookup name = some type := by
  have hframe (frame : Frame) :
      name ∈ frame.map Prod.fst ↔ ∃ type, frame.lookup name = some type := by
    rw [← Option.ne_none_iff_exists', ne_eq, Data.lookup_eq_none_iff_not_mem, not_not]
  rw [visibleNames, Data.mem_ordered_iff, List.mem_flatMap, ← Option.isSome_iff_exists, lookup,
    List.findSome?_isSome_iff]
  simp only [hframe, Option.isSome_iff_exists]

/-- The visible variables with their types, in the order of their names. -/
def visible (scope : VariableScope) : List (String × SemanticType) :=
  scope.visibleNames.filterMap fun name => (scope.lookup name).map fun type => (name, type)

theorem mem_visible_iff {scope : VariableScope} {name : String} {type : SemanticType} :
    (name, type) ∈ scope.visible ↔ scope.lookup name = some type := by
  simp only [visible, List.mem_filterMap, Option.map_eq_some_iff, Prod.mk.injEq]
  constructor
  · rintro ⟨_, -, _, hlookup, rfl, rfl⟩
    exact hlookup
  · intro hlookup
    exact ⟨name, mem_visibleNames_iff.mpr ⟨type, hlookup⟩, type, hlookup, rfl, rfl⟩

theorem map_fst_visible (scope : VariableScope) :
    scope.visible.map Prod.fst = scope.visibleNames := by
  have hkeep : ∀ name ∈ scope.visibleNames,
      ((scope.lookup name).map fun type => (name, type)).map Prod.fst = some name := by
    intro name hmem
    obtain ⟨type, hlookup⟩ := mem_visibleNames_iff.mp hmem
    rw [hlookup]
    rfl
  rw [visible, List.map_filterMap, List.filterMap_congr hkeep, List.filterMap_some]

/-- One scope with the visible variables looks like all of the nested ones. -/
theorem lookup_declareAll_visible (scope : VariableScope) :
    (empty.declareAll scope.visible).lookup = scope.lookup := by
  funext name
  rw [lookup_declareAll fun _ h => mem_visible_iff.mp h, map_fst_visible]
  split
  · rfl
  · rename_i hnot
    rw [mem_visibleNames_iff, ← Option.ne_none_iff_exists', not_not] at hnot
    exact hnot.symm

end VariableScope

end ExprVet
