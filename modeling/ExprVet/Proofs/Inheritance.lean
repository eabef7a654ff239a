import ExprVet.Calc.ValueType
import Mathlib.Logic.Relation

/-!
# Inheritance among exported types

The search for a base walks the exported types with a list of the names it has met. Its answer is
reachability along direct bases, whatever the exports are: cycles, shared bases and bases that
nobody exports included. What a value may be used for is then a relation without any search in it.

## Implementation notes

A name that was met is never looked at again, so a negative answer only says that the names met are
closed under direct bases. `Closed` is that invariant; it also admits the names still waiting.
-/

namespace ExprVet.Calc

namespace Exports

variable {exports : Exports} {target : String}

/-- An exported type lists another type among its direct bases. -/
def Lists (exports : Exports) (name base : String) : Prop :=
  ∃ bases, exports.lookup name = some bases ∧ base ∈ bases

/-- A chain of at least one step from a type to one of its bases. -/
abbrev Inherits (exports : Exports) : String → String → Prop := Relation.TransGen exports.Lists

theorem reaches_of_mem {seen rest : List String} {name : String} (h : name ∈ seen) :
    exports.reaches target seen (name :: rest) = exports.reaches target seen rest := by
  rw [reaches, dif_pos h]

theorem reaches_of_lookup_none {seen rest : List String} {name : String} (hseen : name ∉ seen)
    (h : exports.lookup name = none) :
    exports.reaches target seen (name :: rest) = exports.reaches target seen rest := by
  rw [reaches, dif_neg hseen]
  split
  · rfl
  · simp_all

theorem reaches_of_lookup_some {seen rest bases : List String} {name : String}
    (hseen : name ∉ seen) (h : exports.lookup name = some bases) :
    exports.reaches target seen (name :: rest) =
      (bases.contains target || exports.reaches target (name :: seen) (bases ++ rest)) := by
  rw [reaches, dif_neg hseen]
  split <;> simp_all

/-- What the search finds is a base of one of the names it started from. -/
theorem inherits_of_reaches {seen names : List String} (h : exports.reaches target seen names) :
    ∃ name ∈ names, exports.Inherits name target := by
  induction seen, names using reaches.induct exports with
  | case1 => simp [reaches] at h
  | case2 seen name rest hseen ih =>
      rw [reaches_of_mem hseen] at h
      obtain ⟨found, hmem, hfound⟩ := ih h
      exact ⟨found, List.mem_cons_of_mem _ hmem, hfound⟩
  | case3 seen name rest hseen hlookup ih =>
      rw [reaches_of_lookup_none hseen hlookup] at h
      obtain ⟨found, hmem, hfound⟩ := ih h
      exact ⟨found, List.mem_cons_of_mem _ hmem, hfound⟩
  | case4 seen name rest hseen bases hlookup ih =>
      rw [reaches_of_lookup_some hseen hlookup, Bool.or_eq_true, List.contains_iff_mem] at h
      have step : ∀ base ∈ bases, exports.Lists name base := fun base hb => ⟨bases, hlookup, hb⟩
      rcases h with hbase | h
      · exact ⟨name, List.mem_cons_self, .single (step target hbase)⟩
      · obtain ⟨found, hmem, hfound⟩ := ih h
        rcases List.mem_append.mp hmem with hb | hr
        · exact ⟨name, List.mem_cons_self, .head (step found hb) hfound⟩
        · exact ⟨found, List.mem_cons_of_mem _ hr, hfound⟩

/-- The direct bases of the names met are not the target, and each of them was met too, still waits
or is exported by nobody. -/
def Closed (exports : Exports) (target : String) (seen waiting : List String) : Prop :=
  ∀ name ∈ seen, ∀ base, exports.Lists name base →
    base ≠ target ∧ (base ∈ seen ∨ base ∈ waiting ∨ exports.lookup base = none)

theorem not_lists_of_lookup_none {name base : String} (h : exports.lookup name = none) :
    ¬ exports.Lists name base := by
  rintro ⟨bases, hb, -⟩
  rw [h] at hb
  cases hb

/-- With nothing waiting a closed list of names has no way to the target. -/
theorem Closed.not_inherits {seen : List String} (h : exports.Closed target seen [])
    {name : String} (hname : name ∈ seen) : ¬ exports.Inherits name target := by
  intro hi
  induction hi using Relation.TransGen.head_induction_on with
  | single hlast => exact (h _ hname _ hlast).1 rfl
  | head hfirst hrest ih =>
      obtain ⟨-, hmem | hmem | hnone⟩ := h _ hname _ hfirst
      · exact ih hmem
      · cases hmem
      · obtain ⟨next, hlists, -⟩ := Relation.TransGen.head'_iff.mp hrest
        exact not_lists_of_lookup_none hnone hlists

/-- A name that was met, or that nobody exports, need not wait. -/
theorem Closed.skip {seen rest : List String} {first : String}
    (h : exports.Closed target seen (first :: rest))
    (hfirst : first ∈ seen ∨ exports.lookup first = none) : exports.Closed target seen rest := by
  intro name hname base hbase
  obtain ⟨hne, hplace⟩ := h name hname base hbase
  refine ⟨hne, ?_⟩
  rcases hplace with hs | hw | hnone
  · exact .inl hs
  · rcases List.mem_cons.mp hw with rfl | hr
    · exact hfirst.imp_right .inr
    · exact .inr (.inl hr)
  · exact .inr (.inr hnone)

/-- Meeting an exported name makes its bases wait, none of which is the target. -/
theorem Closed.meet {seen rest bases : List String} {first : String}
    (h : exports.Closed target seen (first :: rest)) (hlookup : exports.lookup first = some bases)
    (hnot : target ∉ bases) : exports.Closed target (first :: seen) (bases ++ rest) := by
  intro name hname base hbase
  rcases List.mem_cons.mp hname with rfl | hname
  · obtain ⟨listed, hl, hmem⟩ := hbase
    obtain rfl : listed = bases := Option.some.inj (hl.symm.trans hlookup)
    exact ⟨fun he => hnot (he ▸ hmem), .inr (.inl (List.mem_append_left _ hmem))⟩
  · obtain ⟨hne, hplace⟩ := h name hname base hbase
    refine ⟨hne, ?_⟩
    rcases hplace with hs | hw | hnone
    · exact .inl (List.mem_cons_of_mem _ hs)
    · rcases List.mem_cons.mp hw with rfl | hr
      · exact .inl List.mem_cons_self
      · exact .inr (.inl (List.mem_append_right _ hr))
    · exact .inr (.inr hnone)

/-- A search that ends without the target leaves no way to it from any name met or waiting. -/
theorem not_inherits_of_not_reaches {seen names : List String}
    (hclosed : exports.Closed target seen names) (h : exports.reaches target seen names = false)
    {name : String} (hname : name ∈ seen ∨ name ∈ names) : ¬ exports.Inherits name target := by
  induction seen, names using reaches.induct exports generalizing name with
  | case1 => exact hclosed.not_inherits (hname.resolve_right (by simp))
  | case2 seen first rest hseen ih =>
      rw [reaches_of_mem hseen] at h
      apply ih (hclosed.skip (.inl hseen)) h
      rcases hname with hs | hw
      · exact .inl hs
      · rcases List.mem_cons.mp hw with rfl | hr
        · exact .inl hseen
        · exact .inr hr
  | case3 seen first rest hseen hlookup ih =>
      rw [reaches_of_lookup_none hseen hlookup] at h
      by_cases hfirst : name = first
      · subst hfirst
        intro hi
        obtain ⟨next, hlists, -⟩ := Relation.TransGen.head'_iff.mp hi
        exact not_lists_of_lookup_none hlookup hlists
      · apply ih (hclosed.skip (.inr hlookup)) h
        exact hname.imp_right fun hw => (List.mem_cons.mp hw).resolve_left hfirst
  | case4 seen first rest hseen bases hlookup ih =>
      rw [reaches_of_lookup_some hseen hlookup, Bool.or_eq_false_iff] at h
      obtain ⟨hbases, hrest⟩ := h
      have hnot : target ∉ bases := by simpa using hbases
      apply ih (hclosed.meet hlookup hnot) hrest
      rcases hname with hs | hw
      · exact .inl (List.mem_cons_of_mem _ hs)
      · rcases List.mem_cons.mp hw with rfl | hr
        · exact .inl List.mem_cons_self
        · exact .inr (List.mem_append_right _ hr)

/-- The search decides inheritance. -/
theorem derivesFrom_eq_true_iff {name : String} :
    exports.derivesFrom name target = true ↔ exports.Inherits name target := by
  constructor
  · intro h
    obtain ⟨found, hmem, hfound⟩ := inherits_of_reaches h
    exact List.mem_singleton.mp hmem ▸ hfound
  · intro h
    have hclosed : exports.Closed target [] [name] := fun n hn => absurd hn List.not_mem_nil
    cases hanswer : exports.derivesFrom name target with
    | true => rfl
    | false =>
        exact absurd h (not_inherits_of_not_reaches hclosed hanswer (.inr List.mem_cons_self))

end Exports

/-- A value of one type may be used where another is expected. -/
inductive Assignable (exports : Exports) : ValueType → ValueType → Prop
  | refl (type : ValueType) : Assignable exports type type
  | widen : Assignable exports .int .float
  | any (type : ValueType) : Assignable exports type .any
  | inherit {name base : String} {args baseArgs : List ValueType}
      (h : exports.Inherits name base) : Assignable exports (.named name args) (.named base baseArgs)

/-- Between types that are known the checker's test is the relation. -/
theorem assignable_eq_true_iff {exports : Exports} {source target : ValueType}
    (hsource : source ≠ .unknown) (htarget : target ≠ .unknown) :
    exports.assignable source target = true ↔ Assignable exports source target := by
  constructor
  · intro h
    unfold Exports.assignable at h
    split at h
    · exact absurd rfl hsource
    · exact absurd rfl htarget
    · exact .any _
    · exact .widen
    · rw [Bool.or_eq_true, decide_eq_true_iff, Exports.derivesFrom_eq_true_iff] at h
      rcases h with he | hi
      · exact he ▸ .refl _
      · exact .inherit hi
    · exact of_decide_eq_true h ▸ .refl _
  · intro h
    cases h with
    | refl => cases source <;> simp [Exports.assignable]
    | widen => rfl
    | any => cases source <;> simp [Exports.assignable]
    | inherit hi =>
        simp only [Exports.assignable, Bool.or_eq_true]
        exact .inr (Exports.derivesFrom_eq_true_iff.mpr hi)

end ExprVet.Calc
