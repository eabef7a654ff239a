import ExprVet.Proofs.Inheritance

/-!
# Conversions between types

A value may be used as one of another type by inheritance, by widening or because anything is
accepted. The search for a base gives up names that it met, yet its answer is the one that a search
without such a memory would give if it ended. So conversions can be put together, except around the
stand-in for a type after a mistake: it converts to everything and everything converts to it.
-/

namespace ExprVet.Calc

variable {exports : Exports}

namespace Exports

/-- A first base, and from there on any number of bases. -/
theorem inherits_iff_first {name target : String} :
    exports.Inherits name target ↔
      ∃ base, exports.Lists name base ∧ (base = target ∨ exports.Inherits base target) := by
  refine Relation.TransGen.head'_iff.trans ?_
  simp only [Relation.reflTransGen_iff_eq_or_transGen, eq_comm]

/-- What a name derives from is told by its direct bases, each searched for itself. -/
theorem derivesFrom_eq_any (name target : String) :
    exports.derivesFrom name target =
      ((exports.lookup name).getD []).any fun base =>
        base == target || exports.derivesFrom base target := by
  rw [Bool.eq_iff_iff, derivesFrom_eq_true_iff, inherits_iff_first, List.any_eq_true]
  simp only [Bool.or_eq_true, beq_iff_eq, derivesFrom_eq_true_iff]
  apply exists_congr
  intro base
  apply and_congr_left
  intro _
  cases hlookup : exports.lookup name <;> simp [Lists, hlookup]

end Exports

/-- One conversion after another is a conversion. -/
theorem Assignable.trans {source middle target : ValueType} (h : Assignable exports source middle)
    (hnext : Assignable exports middle target) : Assignable exports source target := by
  cases h with
  | refl => exact hnext
  | widen =>
      cases hnext with
      | refl => exact .widen
      | any => exact .any _
  | any =>
      cases hnext with
      | refl => exact .any _
      | any => exact .any _
  | inherit hfirst =>
      cases hnext with
      | refl => exact .inherit hfirst
      | any => exact .any _
      | inherit hlast => exact .inherit (hfirst.trans hlast)

@[simp] theorem assignable_unknown_left (target : ValueType) :
    exports.assignable .unknown target = true := by
  cases target <;> rfl

@[simp] theorem assignable_unknown_right (source : ValueType) :
    exports.assignable source .unknown = true := by
  cases source <;> rfl

theorem assignable_self (type : ValueType) : exports.assignable type type = true := by
  by_cases h : type = .unknown
  · rw [h]
    rfl
  · exact (assignable_eq_true_iff h h).mpr (.refl type)

/-- Two conversions through a type that is known make one. -/
theorem assignable_trans {source middle target : ValueType} (hmiddle : middle ≠ .unknown)
    (h : exports.assignable source middle = true)
    (hnext : exports.assignable middle target = true) :
    exports.assignable source target = true := by
  by_cases hsource : source = .unknown
  · rw [hsource]
    exact assignable_unknown_left target
  by_cases htarget : target = .unknown
  · rw [htarget]
    exact assignable_unknown_right source
  rw [assignable_eq_true_iff hsource hmiddle] at h
  rw [assignable_eq_true_iff hmiddle htarget] at hnext
  exact (assignable_eq_true_iff hsource htarget).mpr (h.trans hnext)

/-- Whatever the exports are, cyclic ones and bases that nobody exports included, the search finds a
name exactly at the end of a chain of bases, as searching every direct base anew would. Then every
type converts to itself, and conversions can be put together just at the types that are known. -/
theorem derivesFrom_exact (exports : Exports) :
    (∀ name target, exports.derivesFrom name target = true ↔ exports.Inherits name target) ∧
    (∀ name target, exports.derivesFrom name target =
      ((exports.lookup name).getD []).any fun base =>
        base == target || exports.derivesFrom base target) ∧
    (∀ type, exports.assignable type type = true) ∧
    ∀ middle, (∀ source target, exports.assignable source middle = true →
      exports.assignable middle target = true → exports.assignable source target = true) ↔
        middle ≠ .unknown := by
  refine ⟨fun _ _ => Exports.derivesFrom_eq_true_iff, Exports.derivesFrom_eq_any, assignable_self,
    fun middle => ⟨?_, ?_⟩⟩
  · rintro htrans rfl
    have hnever : exports.assignable .bool .int = false := rfl
    rw [htrans .bool .int (assignable_unknown_right _) (assignable_unknown_left _)] at hnever
    cases hnever
  · exact fun hmiddle source target => assignable_trans hmiddle

end ExprVet.Calc
