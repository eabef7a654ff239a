import ExprVet.SemanticType
import Mathlib.Logic.Relation

/-!
# Types met below a type

The hierarchy of a type is found by a search that passes over every type whose name was met before.
`met_or_covered` is the invariant of that search: what waits to be visited is met, or a type of its
name is. So a type below a type is met or lies below one that was passed over, and the modules of the
hierarchy are complete exactly when nothing below the types passed over is defined elsewhere.
-/

namespace ExprVet

namespace SemanticType

/-- The bases and the generic arguments of a type. -/
def parts (type : SemanticType) : List SemanticType := type.bases ++ type.args

/-- Bases and generic arguments lead from one type to another in any number of steps. -/
def Reaches : SemanticType → SemanticType → Prop :=
  Relation.ReflTransGen fun type part => part ∈ type.parts

theorem reached_cons_of_mem {seen : List String} {type : SemanticType} {rest : List SemanticType}
    (h : type.name ∈ seen) : reached seen (type :: rest) = reached seen rest := by
  rw [reached, if_pos h]

theorem reached_cons_of_not_mem {seen : List String} {type : SemanticType}
    {rest : List SemanticType} (h : type.name ∉ seen) :
    reached seen (type :: rest) =
      type :: reached (type.name :: seen) (type.bases ++ (type.args ++ rest)) := by
  rw [reached, if_neg h]

/-- A type of some name is met, or its name was seen before the search. -/
def Covered (seen : List String) (met : List SemanticType) (name : String) : Prop :=
  name ∈ seen ∨ ∃ type ∈ met, type.name = name

theorem Covered.cons {seen : List String} {met : List SemanticType} {type : SemanticType}
    {name : String} (h : Covered (type.name :: seen) met name) :
    Covered seen (type :: met) name := by
  rcases h with hseen | ⟨found, hmem, hname⟩
  · rcases List.mem_cons.mp hseen with rfl | hseen
    · exact .inr ⟨type, List.mem_cons_self, rfl⟩
    · exact .inl hseen
  · exact .inr ⟨found, List.mem_cons_of_mem _ hmem, hname⟩

/-- The search covers what waits to be visited and the parts of all that it meets. -/
theorem met_or_covered (seen : List String) (types : List SemanticType) :
    (∀ type ∈ types, Covered seen (reached seen types) type.name) ∧
      ∀ met ∈ reached seen types, ∀ part ∈ met.parts,
        Covered seen (reached seen types) part.name := by
  induction seen, types using reached.induct with
  | case1 seen => simp [reached]
  | case2 seen type rest hseen ih =>
      rw [reached_cons_of_mem hseen]
      refine ⟨?_, ih.2⟩
      intro waiting hmem
      rcases List.mem_cons.mp hmem with rfl | hmem
      · exact .inl hseen
      · exact ih.1 waiting hmem
  | case3 seen type rest hseen ih =>
      rw [reached_cons_of_not_mem hseen]
      obtain ⟨hwaiting, hparts⟩ := ih
      constructor
      · intro waiting hmem
        rcases List.mem_cons.mp hmem with rfl | hmem
        · exact .inr ⟨waiting, List.mem_cons_self, rfl⟩
        · have hrest : waiting ∈ type.bases ++ (type.args ++ rest) :=
            List.mem_append_right _ (List.mem_append_right _ hmem)
          exact (hwaiting waiting hrest).cons
      · intro met hmet part hpart
        rcases List.mem_cons.mp hmet with rfl | hmet
        · have hrest : part ∈ met.bases ++ (met.args ++ rest) := by
            rw [← List.append_assoc]
            exact List.mem_append_left _ hpart
          exact (hwaiting part hrest).cons
        · exact (hparts met hmet part hpart).cons

theorem mem_hierarchy_self (type : SemanticType) : type ∈ type.hierarchy := by
  rw [hierarchy, reached_cons_of_not_mem (List.not_mem_nil)]
  exact List.mem_cons_self

/-- Of every part of a met type some type with its name is met. -/
theorem exists_mem_hierarchy_name {type met part : SemanticType} (hmet : met ∈ type.hierarchy)
    (hpart : part ∈ met.parts) : ∃ found ∈ type.hierarchy, found.name = part.name := by
  rcases (met_or_covered [] [type]).2 met hmet part hpart with hseen | hfound
  · cases hseen
  · exact hfound

/-- The search goes down from the types it starts with only. -/
theorem exists_reaches_of_mem_reached (seen : List String) (types : List SemanticType) :
    ∀ met ∈ reached seen types, ∃ type ∈ types, type.Reaches met := by
  induction seen, types using reached.induct with
  | case1 seen => simp [reached]
  | case2 seen type rest hseen ih =>
      rw [reached_cons_of_mem hseen]
      intro met hmet
      obtain ⟨start, hmem, hreaches⟩ := ih met hmet
      exact ⟨start, List.mem_cons_of_mem _ hmem, hreaches⟩
  | case3 seen type rest hseen ih =>
      rw [reached_cons_of_not_mem hseen]
      intro met hmet
      rcases List.mem_cons.mp hmet with rfl | hmet
      · exact ⟨met, List.mem_cons_self, .refl⟩
      · obtain ⟨start, hmem, hreaches⟩ := ih met hmet
        rw [← List.append_assoc] at hmem
        rcases List.mem_append.mp hmem with hpart | hrest
        · exact ⟨type, List.mem_cons_self, .head hpart hreaches⟩
        · exact ⟨start, List.mem_cons_of_mem _ hrest, hreaches⟩

theorem reaches_of_mem_hierarchy {type met : SemanticType} (h : met ∈ type.hierarchy) :
    type.Reaches met := by
  obtain ⟨start, hmem, hreaches⟩ := exists_reaches_of_mem_reached [] [type] met h
  rw [List.mem_singleton] at hmem
  rw [← hmem]
  exact hreaches

/-- The search passes over a part of a type that it meets. -/
def PassesOver (type part : SemanticType) : Prop :=
  part ∉ type.hierarchy ∧ ∃ met ∈ type.hierarchy, part ∈ met.parts

/-- What is passed over shares its name with another type that is met. -/
theorem PassesOver.exists_namesake {type part : SemanticType} (h : type.PassesOver part) :
    ∃ found ∈ type.hierarchy, found.name = part.name ∧ found ≠ part := by
  obtain ⟨hnot, met, hmet, hpart⟩ := h
  obtain ⟨found, hfound, hname⟩ := exists_mem_hierarchy_name hmet hpart
  refine ⟨found, hfound, hname, ?_⟩
  rintro rfl
  exact hnot hfound

theorem PassesOver.reaches {type part : SemanticType} (h : type.PassesOver part) :
    type.Reaches part := by
  obtain ⟨-, met, hmet, hpart⟩ := h
  exact (reaches_of_mem_hierarchy hmet).tail hpart

/-- A type below a type is met or lies below one that is passed over. -/
theorem mem_hierarchy_or_passesOver {type below : SemanticType} (h : type.Reaches below) :
    below ∈ type.hierarchy ∨ ∃ part, type.PassesOver part ∧ part.Reaches below := by
  induction h with
  | refl => exact .inl type.mem_hierarchy_self
  | @tail met part _ hpart ih =>
      rcases ih with hmet | ⟨skipped, hskipped, hreaches⟩
      · by_cases hmem : part ∈ type.hierarchy
        · exact .inl hmem
        · exact .inr ⟨part, ⟨hmem, met, hmet, hpart⟩, .refl⟩
      · exact .inr ⟨skipped, hskipped, hreaches.tail hpart⟩

theorem mem_definingModules_iff {type : SemanticType} {module : ModuleId} :
    module ∈ type.definingModules ↔ ∃ met ∈ type.hierarchy, met.module = module := by
  rw [definingModules, List.mem_eraseDups, List.mem_map]

/-- Every type below is defined in one of the modules of the hierarchy. -/
def ModulesComplete (type : SemanticType) : Prop :=
  ∀ below, type.Reaches below → below.module ∈ type.definingModules

/-- Everything below the types passed over is defined in modules of types that are met. -/
def NothingHidden (type : SemanticType) : Prop :=
  ∀ skipped, type.PassesOver skipped → ∀ below, skipped.Reaches below →
    ∃ met ∈ type.hierarchy, met.module = below.module

theorem modulesComplete_iff (type : SemanticType) :
    type.ModulesComplete ↔ type.NothingHidden := by
  constructor
  · intro h skipped hskipped below hbelow
    exact mem_definingModules_iff.mp (h below (hskipped.reaches.trans hbelow))
  · intro h below hbelow
    rw [mem_definingModules_iff]
    rcases mem_hierarchy_or_passesOver hbelow with hmet | ⟨skipped, hskipped, hbelow'⟩
    · exact ⟨below, hmet, rfl⟩
    · exact h skipped hskipped below hbelow'

/-- Nothing is hidden where a name stands for one type only. -/
theorem nothingHidden_of_names {type : SemanticType}
    (h : ∀ a b, type.Reaches a → type.Reaches b → a.name = b.name → a = b) :
    type.NothingHidden := by
  intro skipped hskipped
  obtain ⟨found, hfound, hname, hne⟩ := hskipped.exists_namesake
  exact absurd (h found skipped (reaches_of_mem_hierarchy hfound) hskipped.reaches hname) hne

end SemanticType

end ExprVet
