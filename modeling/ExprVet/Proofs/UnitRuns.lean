import ExprVet.Proofs.References
import ExprVet.Proofs.CheckedLambda
import Mathlib.Algebra.GroupWithZero.Nat
import Mathlib.Data.Finset.Card

/-!
# Runs of units

A unit takes references before the snippet is there and once its wrapper is, and it is checked only
then. Whatever is attached on the way, in which order and by how many calls, the unit has for each
module the reference that was attached for it first. Since references are ordered by their modules,
the look-ups of a unit tell all of its references, so that two runs in which each module got the
same first reference are checked alike.
-/

namespace ExprVet

open Data

namespace Data

variable {α : Type} {key : α → String}

theorem findKey?_eq_some_iff {xs : List α} (h : (xs.map key).Nodup) {k : String} {x : α} :
    findKey? key k xs = some x ↔ x ∈ xs ∧ key x = k := by
  rw [findKey?]
  constructor
  · intro hfind
    exact ⟨List.mem_of_find?_eq_some hfind, by simpa using List.find?_some hfind⟩
  · rintro ⟨hmem, rfl⟩
    cases hfind : xs.find? (key · == key x) with
    | none => simpa using List.find?_eq_none.mp hfind x hmem
    | some y =>
        have hkey : key y = key x := by simpa using List.find?_some hfind
        rw [List.inj_on_of_nodup_map h (List.mem_of_find?_eq_some hfind) hmem hkey]

theorem mem_iff_findKey?_eq_some {xs : List α} (h : (xs.map key).Nodup) {x : α} :
    x ∈ xs ↔ findKey? key (key x) xs = some x :=
  ((findKey?_eq_some_iff h).trans (and_iff_left rfl)).symm

/-- The look-ups of an ordered list tell its items. -/
theorem eq_of_findKey?_eq {xs ys : List α} (hxs : (xs.map key).Pairwise (· < ·))
    (hys : (ys.map key).Pairwise (· < ·)) (h : ∀ k, findKey? key k xs = findKey? key k ys) :
    xs = ys := by
  have hxs' := hxs.nodup
  have hys' := hys.nodup
  have hperm : xs.Perm ys := by
    rw [List.perm_ext_iff_of_nodup hxs'.of_map hys'.of_map]
    intro x
    rw [mem_iff_findKey?_eq_some hxs', mem_iff_findKey?_eq_some hys', h]
  rw [List.pairwise_map] at hxs hys
  exact hperm.eq_of_pairwise (fun _ _ _ _ hlt hgt => absurd hgt (String.lt_asymm hlt)) hxs hys

theorem findKey?_perm {xs ys : List α} (h : xs.Perm ys) (hnodup : (xs.map key).Nodup)
    (k : String) : findKey? key k xs = findKey? key k ys := by
  apply Option.ext
  intro x
  rw [findKey?_eq_some_iff hnodup, findKey?_eq_some_iff ((h.map key).nodup hnodup), h.mem_iff]

/-- An inserted item is found where nothing was found before. -/
theorem findKey?_insertNew {x : α} {xs : List α} (h : (xs.map key).Pairwise (· < ·))
    (k : String) : findKey? key k (insertNew key x xs) = findKey? key k (xs ++ [x]) := by
  simp only [findKey?]
  induction xs with
  | nil => rfl
  | cons y ys ih =>
      obtain ⟨hfirst, hrest⟩ := List.pairwise_cons.mp h
      rw [insertNew]
      split
      · rename_i hlt
        by_cases hk : key x = k
        · -- all other keys are greater, so that the item is the only one with its key
          have hnone : (y :: ys).find? (key · == k) = none := by
            rw [List.find?_eq_none, List.forall_mem_cons]
            refine ⟨by simpa [← hk] using (String.ne_of_lt hlt).symm, fun z hz => ?_⟩
            have hz := String.lt_trans hlt (hfirst _ (List.mem_map_of_mem hz))
            simpa [← hk] using (String.ne_of_lt hz).symm
          rw [List.find?_append, hnone, List.find?_cons_of_pos (by simpa using hk)]
          simp [hk]
        · rw [List.find?_cons_of_neg (by simpa using hk), List.find?_append]
          simp [hk]
      · split
        · rw [List.cons_append, List.find?_cons, List.find?_cons, ih hrest]
        · rename_i hlt hgt
          obtain hkey : key x = key y := String.le_antisymm hgt hlt
          rw [List.find?_append, List.find?_singleton, hkey, List.find?_cons]
          cases key y == k <;> simp

end Data

/-- Some references are ordered by their modules, and each module has the first one that was
attached for it. -/
structure FirstOfEach (attached references : List Reference) : Prop where
  ordered : (references.map (·.module)).Pairwise (· < ·)
  first : ∀ module,
    findKey? Reference.module module references = findKey? Reference.module module attached

namespace FirstOfEach

variable {attached references : List Reference}

theorem nil : FirstOfEach [] [] := ⟨.nil, fun _ => rfl⟩

/-- One more reference is attached behind the others, and counts unless its module has one. -/
theorem insert (h : FirstOfEach attached references) (reference : Reference) :
    FirstOfEach (attached ++ [reference]) (insertNew Reference.module reference references) := by
  refine ⟨pairwise_insertNew reference h.ordered, fun module => ?_⟩
  have hfirst := h.first module
  simp only [findKey?] at hfirst
  rw [findKey?_insertNew h.ordered, findKey?, findKey?, List.find?_append, List.find?_append,
    hfirst]

theorem attach {unit : CompilationUnit} (h : FirstOfEach attached unit.references)
    (more : List Reference) : FirstOfEach (attached ++ more) (unit.attach more).references := by
  rw [CompilationUnit.references_attach h.ordered]
  generalize unit.references = references at h
  induction more generalizing attached references with
  | nil => rwa [List.append_nil]
  | cons reference more ih =>
      rw [List.append_cons, List.foldl_cons]
      exact ih _ (h.insert reference)

theorem mem_map_module_iff (h : FirstOfEach attached references) {module : ModuleId} :
    module ∈ references.map (·.module) ↔ module ∈ attached.map (·.module) := by
  have hsome := congrArg Option.isSome (h.first module)
  rw [findKey?, findKey?, Bool.eq_iff_iff, List.find?_isSome, List.find?_isSome] at hsome
  simpa using hsome

/-- There are as many references as different modules. -/
theorem length_eq (h : FirstOfEach attached references) :
    references.length = (attached.map (·.module)).toFinset.card := by
  have hmodules : (references.map (·.module)).toFinset = (attached.map (·.module)).toFinset := by
    ext module
    rw [List.mem_toFinset, List.mem_toFinset, h.mem_map_module_iff]
  rw [← hmodules, List.toFinset_card_of_nodup h.ordered.nodup, List.length_map]

/-- A call counts the modules that had no reference before. -/
theorem card_add_countNew {unit : CompilationUnit} (h : FirstOfEach attached unit.references)
    (more : List Reference) :
    (attached.map (·.module)).toFinset.card + unit.countNew more =
      ((attached ++ more).map (·.module)).toFinset.card := by
  rw [← h.length_eq, ← CompilationUnit.length_attach, (h.attach more).length_eq]

/-- The first references of their modules determine all. -/
theorem unique {attached' references' : List Reference} (h : FirstOfEach attached references)
    (h' : FirstOfEach attached' references')
    (hsame : ∀ module, findKey? Reference.module module attached =
      findKey? Reference.module module attached') : references = references' := by
  apply eq_of_findKey?_eq h.ordered h'.ordered
  intro module
  rw [h.first, h'.first, hsame]

end FirstOfEach

/-- A unit in one of its phases. -/
inductive UnitStage where
  | gathering (unit : CompilationUnit)
  | discovery (discovery : DiscoveryUnit)
  | final (final : FinalUnit)
  | diagnosed (compiled : Compiled)

namespace UnitStage

def unit : UnitStage → CompilationUnit
  | .gathering unit => unit
  | .discovery d => d.unit
  | .final f => f.unit
  | .diagnosed c => c.unit

/-- The trees that were installed in a stage, and what the unit holds of them: the snippet's tree
alone once it is there, and the wrapper's alone from then on. -/
def Holds (installed : List Calc.Tree) : UnitStage → Prop
  | .gathering unit => installed = [] ∧ unit.trees.length ≤ 1
  | .discovery d => ∃ snippet, installed = [snippet] ∧ d.unit.trees = [snippet]
  | .final f => ∃ snippet wrapper, installed = [snippet, wrapper] ∧ f.unit.trees = [wrapper]
  | .diagnosed c => ∃ snippet wrapper, installed = [snippet, wrapper] ∧ c.unit.trees = [wrapper]

end UnitStage

/-- What a unit can be asked to do. -/
inductive UnitCall where
  | attach (references : List Reference)
  | begin (snippet : Calc.Tree)
  | finalize (wrapper : Calc.Tree)
  | diagnose

namespace UnitCall

def references : UnitCall → List Reference
  | attach references => references
  | _ => []

def tree? : UnitCall → Option Calc.Tree
  | begin tree | finalize tree => some tree
  | _ => none

/-- All references that some calls attach, in order. -/
def attached (calls : List UnitCall) : List Reference := calls.flatMap references

/-- All trees that some calls install, in order. -/
def installed (calls : List UnitCall) : List Calc.Tree := calls.filterMap tree?

theorem attached_concat (calls : List UnitCall) (call : UnitCall) :
    attached (calls ++ [call]) = attached calls ++ call.references := by
  simp [attached]

theorem installed_concat (calls : List UnitCall) (call : UnitCall) :
    installed (calls ++ [call]) = installed calls ++ call.tree?.toList := by
  cases h : call.tree? <;> simp [installed, h]

theorem attached_concat_of_nil {calls : List UnitCall} {call : UnitCall}
    (h : call.references = []) : attached (calls ++ [call]) = attached calls := by
  rw [attached_concat, h, List.append_nil]

theorem installed_concat_of_none {calls : List UnitCall} {call : UnitCall} (h : call.tree? = none) :
    installed (calls ++ [call]) = installed calls := by
  rw [installed_concat, h, Option.toList_none, List.append_nil]

end UnitCall

/-- A unit has no references in the beginning, and at most a placeholder for a tree. -/
inductive CompilationUnit.IsNew : CompilationUnit → Prop
  | empty (imports : List String) : IsNew (.empty imports)
  | withPlaceholder (imports : List String) (placeholder : Calc.Tree) :
      IsNew (.withPlaceholder imports placeholder)

open UnitCall

/-- The runs of a unit from its start: the calls so far, each one that the phase allows, the numbers
of new modules that the calls that attach answered, and the unit after that. -/
inductive UnitRun (start : CompilationUnit) : List UnitCall → List Nat → UnitStage → Prop
  | start : UnitRun start [] [] (.gathering start)
  | gather {calls counts unit} (run : UnitRun start calls counts (.gathering unit))
      (references : List Reference) :
      UnitRun start (calls ++ [attach references]) (counts ++ [unit.countNew references])
        (.gathering (unit.attach references))
  | begin {calls counts unit} (run : UnitRun start calls counts (.gathering unit))
      (snippet : Calc.Tree) :
      UnitRun start (calls ++ [begin snippet]) counts (.discovery (unit.begin snippet))
  | finalize {calls counts discovery} (run : UnitRun start calls counts (.discovery discovery))
      (wrapper : Calc.Tree) :
      UnitRun start (calls ++ [finalize wrapper]) counts (.final (discovery.finalize wrapper))
  | attach {calls counts final} (run : UnitRun start calls counts (.final final))
      (references : List Reference) :
      UnitRun start (calls ++ [attach references]) (counts ++ [final.unit.countNew references])
        (.final (final.attach references))
  | diagnose {calls counts final compiled} (run : UnitRun start calls counts (.final final))
      (h : final.diagnose = .ok compiled) :
      UnitRun start (calls ++ [diagnose]) counts (.diagnosed compiled)

theorem FinalUnit.diagnose_eq (final : FinalUnit) :
    final.diagnose = final.unit.diagnostics.map fun found => ⟨final.unit, found⟩ := by
  simp only [diagnose]
  cases final.unit.diagnostics <;> rfl

theorem FinalUnit.unit_of_diagnose {final : FinalUnit} {compiled : Compiled}
    (h : final.diagnose = .ok compiled) : compiled.unit = final.unit := by
  rw [diagnose_eq] at h
  cases hfound : final.unit.diagnostics with
  | error failure =>
      rw [hfound] at h
      cases h
  | ok found =>
      rw [hfound] at h
      cases h
      rfl

theorem CompilationUnit.trees_install {unit : CompilationUnit} (h : unit.trees.length ≤ 1)
    (tree : Calc.Tree) : (unit.install tree).trees = [tree] := by
  have htail : unit.trees.tail = [] := by
    rw [← List.length_eq_zero_iff, List.length_tail]
    omega
  rw [install, htail]

namespace CompilationUnit.IsNew

variable {unit : CompilationUnit}

theorem references_eq (h : unit.IsNew) : unit.references = [] := by
  cases h <;> rfl

theorem length_trees_le (h : unit.IsNew) : unit.trees.length ≤ 1 := by
  cases h with
  | empty imports => exact Nat.zero_le 1
  | withPlaceholder imports placeholder => exact Nat.le_refl 1

end CompilationUnit.IsNew

namespace UnitRun

variable {start : CompilationUnit} {calls : List UnitCall} {counts : List Nat} {stage : UnitStage}

theorem imports_eq (run : UnitRun start calls counts stage) :
    stage.unit.imports = start.imports := by
  induction run with
  | start => simp only [UnitStage.unit]
  | gather _ _ ih | begin _ _ ih | finalize _ _ ih | attach _ _ ih => exact ih
  | diagnose _ h ih =>
      rw [← ih]
      simp only [UnitStage.unit, FinalUnit.unit_of_diagnose h]

theorem holds (hstart : start.trees.length ≤ 1) (run : UnitRun start calls counts stage) :
    stage.Holds (installed calls) := by
  induction run with
  | start => exact ⟨rfl, hstart⟩
  | gather _ _ ih | attach _ _ ih =>
      rw [installed_concat_of_none rfl]
      exact ih
  | begin _ snippet ih =>
      obtain ⟨hnone, hlength⟩ := ih
      refine ⟨snippet, ?_, CompilationUnit.trees_install hlength snippet⟩
      rw [installed_concat, hnone]
      rfl
  | finalize _ wrapper ih =>
      obtain ⟨snippet, hone, htrees⟩ := ih
      have hlength : (List.length [snippet]) ≤ 1 := le_rfl
      rw [← htrees] at hlength
      refine ⟨snippet, wrapper, ?_, CompilationUnit.trees_install hlength wrapper⟩
      rw [installed_concat, hone]
      rfl
  | diagnose _ h ih =>
      rw [installed_concat_of_none rfl, UnitStage.Holds, FinalUnit.unit_of_diagnose h]
      exact ih

theorem firstOfEach (hstart : start.references = []) (run : UnitRun start calls counts stage) :
    FirstOfEach (attached calls) stage.unit.references := by
  induction run with
  | start =>
      simp only [UnitStage.unit, hstart]
      exact .nil
  | gather _ references ih | attach _ references ih =>
      rw [attached_concat]
      exact ih.attach references
  | begin _ _ ih | finalize _ _ ih =>
      rw [attached_concat_of_nil rfl]
      exact ih
  | diagnose _ h ih =>
      rw [attached_concat_of_nil rfl, UnitStage.unit, FinalUnit.unit_of_diagnose h]
      exact ih

theorem sum_counts (hstart : start.references = []) (run : UnitRun start calls counts stage) :
    counts.sum = ((attached calls).map (·.module)).toFinset.card := by
  induction run with
  | start => rfl
  | gather run references ih | attach run references ih =>
      rw [attached_concat, List.sum_append, List.sum_singleton, ih]
      exact (run.firstOfEach hstart).card_add_countNew references
  | begin _ _ ih | finalize _ _ ih | diagnose _ _ ih =>
      rw [attached_concat_of_nil rfl]
      exact ih

/-- Two runs that install the same wrapper and attach references of different modules in any order
and by any calls arrive at the same unit. -/
theorem final_eq_of_perm {start' : CompilationUnit} {calls' : List UnitCall} {counts' : List Nat}
    {f f' : FinalUnit} (run : UnitRun start calls counts (.final f)) (hstart : start.IsNew)
    (run' : UnitRun start' calls' counts' (.final f')) (hstart' : start'.IsNew)
    (himports : start'.imports = start.imports)
    (hwrapper : (installed calls').getLast? = (installed calls).getLast?)
    (hperm : (attached calls').Perm (attached calls))
    (hnodup : ((attached calls).map (·.module)).Nodup) : f' = f := by
  have htrees : f'.unit.trees = f.unit.trees := by
    obtain ⟨snippet, wrapper, hinstalled, htrees⟩ := run.holds hstart.length_trees_le
    obtain ⟨snippet', wrapper', hinstalled', htrees'⟩ := run'.holds hstart'.length_trees_le
    rw [hinstalled, hinstalled'] at hwrapper
    obtain rfl : wrapper' = wrapper := Option.some.inj hwrapper
    rw [htrees, htrees']
  have himports' : f'.unit.imports = f.unit.imports :=
    run'.imports_eq.trans (himports.trans run.imports_eq.symm)
  have hreferences : f'.unit.references = f.unit.references :=
    (run'.firstOfEach hstart'.references_eq).unique (run.firstOfEach hstart.references_eq)
      fun module => (findKey?_perm hperm.symm hnodup module).symm
  calc f' = ⟨⟨f'.unit.trees, f'.unit.imports, f'.unit.references⟩⟩ := rfl
    _ = f := by rw [htrees, himports', hreferences]

/-- In every run the unit has one tree from its snippet on, the last one installed, and the imports
of its start. It has the reference that was attached first for each module, in the order of the
modules, and the calls that attach count each module once. So it does not show in what is found when
runs attach the same references of different modules in another order and by other calls. -/
theorem first_references_stay (hstart : start.IsNew) (run : UnitRun start calls counts stage) :
    stage.Holds (installed calls) ∧
    stage.unit.imports = start.imports ∧
    (∀ module, stage.unit.reference? module = (attached calls).find? (·.module == module)) ∧
    counts.sum = ((attached calls).map (·.module)).toFinset.card ∧
    (stage.unit.references.map (·.module)).Pairwise (· < ·) ∧
    ∀ (f f' : FinalUnit) (start' : CompilationUnit) (calls' : List UnitCall) (counts' : List Nat),
      stage = .final f → UnitRun start' calls' counts' (.final f') → start'.IsNew →
      start'.imports = start.imports → (installed calls').getLast? = (installed calls).getLast? →
      (attached calls').Perm (attached calls) → ((attached calls).map (·.module)).Nodup →
      f'.diagnose = f.diagnose := by
  have hfirst := run.firstOfEach hstart.references_eq
  refine ⟨run.holds hstart.length_trees_le, run.imports_eq, hfirst.first,
    run.sum_counts hstart.references_eq, hfirst.ordered, ?_⟩
  rintro f f' start' calls' counts' rfl run' hstart' himports hwrapper hperm hnodup
  rw [run.final_eq_of_perm hstart run' hstart' himports hwrapper hperm hnodup]

/-- A module that exports a type which `shapeModule` exports with other bases. -/
def artShapes : Reference := ⟨1, ⟨"art", ["art"], [⟨"geo.Shape", ["core.Object"]⟩]⟩⟩

/-- The first of two references of a module stays, and it does not show whether two modules that
export one type are attached by one call in front of the snippet or by two calls behind it. -/
theorem artShapes_first_references_stay :
    let shapes : Reference := ⟨0, Calc.shapeModule⟩
    let shapesAgain : Reference := ⟨2, Calc.shapeModule⟩
    let trees : List UnitCall := [.begin (.discovery "s"), .finalize Calc.squareOrShapeTree]
    (∃ counts f, UnitRun (.empty ["geo"])
        (.attach [shapes, artShapes] :: trees ++ [.attach [shapesAgain]]) counts (.final f) ∧
      counts.sum = 2 ∧ f.unit.reference? "geo" = some shapes ∧
      f.unit.trees = [Calc.squareOrShapeTree]) ∧
    ∃ counts counts' f f',
      UnitRun (.empty ["geo"]) (.attach [shapes, artShapes] :: trees) counts (.final f) ∧
      UnitRun (.withPlaceholder ["geo"] (.discovery ""))
        (trees ++ [.attach [artShapes], .attach [shapes]]) counts' (.final f') ∧
      f'.diagnose = f.diagnose := by
  intro shapes shapesAgain trees
  have empty : UnitRun (.empty ["geo"]) [] [] (.gathering _) := .start
  have holder : UnitRun (.withPlaceholder ["geo"] (.discovery "")) [] [] (.gathering _) := .start
  have run := ((empty.gather [shapes, artShapes]).begin (.discovery "s")).finalize
    Calc.squareOrShapeTree
  have run' := (((holder.begin (.discovery "s")).finalize Calc.squareOrShapeTree).attach
    [artShapes]).attach [shapes]
  constructor
  · have again := run.attach [shapesAgain]
    obtain ⟨⟨_, _, hinstalled, htrees⟩, -, hfirst, hcounts, -⟩ :=
      again.first_references_stay (.empty _)
    obtain ⟨-, hwrapper⟩ := List.cons.inj hinstalled
    obtain ⟨rfl, -⟩ := List.cons.inj hwrapper
    exact ⟨_, _, again, hcounts, hfirst "geo", htrees⟩
  · obtain ⟨-, -, -, -, -, hsame⟩ := run.first_references_stay (.empty _)
    have hperm : [artShapes, shapes].Perm [shapes, artShapes] := .swap _ _ []
    exact ⟨_, _, _, _, run, run', hsame _ _ _ _ _ rfl run' (.withPlaceholder _ _) rfl rfl hperm
      (by decide)⟩

end UnitRun

end ExprVet
