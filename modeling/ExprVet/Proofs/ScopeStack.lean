import ExprVet.Proofs.Scopes
import Mathlib.Data.Nat.Find
import Mathlib.Data.Set.Card

/-!
# Scopes are a stack

What was done to a scope tells all about it. A scope that was entered is still open if at no time
behind more scopes were left than entered, and a declaration belongs to the innermost scope that was
open at its time. A look-up then finds the last declaration in the innermost open scope that has
one. To leave the outermost scope does nothing, so that no step of that kind counts.
-/

namespace ExprVet

open Data

/-- What can be done to nested scopes. -/
inductive ScopeStep where
  /-- Enters a scope inside the innermost one. -/
  | push
  /-- Leaves the innermost scope, unless it is the outermost one. -/
  | pop
  | declare (name : String) (type : SemanticType)

namespace ScopeStep

def weight : ScopeStep → Int
  | push => 1
  | pop => -1
  | declare _ _ => 0

/-- By how much more scopes are entered than left. -/
def height (steps : List ScopeStep) : Int := (steps.map weight).sum

@[simp] theorem height_nil : height [] = 0 := rfl

@[simp] theorem height_append (steps more : List ScopeStep) :
    height (steps ++ more) = height steps + height more := by
  simp [height]

@[simp] theorem height_cons (step : ScopeStep) (steps : List ScopeStep) :
    height (step :: steps) = step.weight + height steps := rfl

theorem height_concat (steps : List ScopeStep) (step : ScopeStep) :
    height (steps ++ [step]) = height steps + step.weight := by
  simp

/-- At no time more scopes were left than entered by some steps. -/
def StaysInside (steps : List ScopeStep) : Prop := ∀ first, first <+: steps → 0 ≤ height first

/-- A scope is named by the number of steps after which it is there first, so the outermost one is
named by 0. Another one is open as long as the steps behind stay inside it. -/
def OpenAfter (steps : List ScopeStep) : Nat → Prop
  | 0 => True
  | index + 1 => steps[index]? = some push ∧ StaysInside (steps.drop (index + 1))

def IsInnermost (steps : List ScopeStep) (scope : Nat) : Prop :=
  OpenAfter steps scope ∧ ∀ other, OpenAfter steps other → other ≤ scope

theorem staysInside_nil : StaysInside [] := by
  intro first h
  rw [List.prefix_nil.mp h]
  exact le_rfl

theorem staysInside_concat {steps : List ScopeStep} {step : ScopeStep} :
    StaysInside (steps ++ [step]) ↔ StaysInside steps ∧ 0 ≤ height steps + step.weight := by
  rw [← height_concat]
  constructor
  · intro h
    exact ⟨fun first hfirst => h first (hfirst.trans (List.prefix_append _ _)),
      h _ (List.prefix_refl _)⟩
  · rintro ⟨h, hall⟩ first hfirst
    rcases List.prefix_concat_iff.mp hfirst with rfl | hfirst
    · exact hall
    · exact h first hfirst

instance (steps : List ScopeStep) : Decidable (StaysInside steps) :=
  decidable_of_iff (∀ first ∈ steps.inits, 0 ≤ height first)
    (forall_congr' fun _ => imp_congr_left (List.mem_inits _ _))

theorem StaysInside.height_nonneg {steps : List ScopeStep} (h : StaysInside steps) :
    0 ≤ height steps :=
  h steps (List.prefix_refl _)

theorem staysInside_concat_push {steps : List ScopeStep} :
    StaysInside (steps ++ [push]) ↔ StaysInside steps := by
  rw [staysInside_concat, and_iff_left_iff_imp, weight]
  exact fun h => add_nonneg h.height_nonneg (by decide)

theorem staysInside_concat_declare {steps : List ScopeStep} {name : String} {type : SemanticType} :
    StaysInside (steps ++ [declare name type]) ↔ StaysInside steps := by
  rw [staysInside_concat, and_iff_left_iff_imp, weight, add_zero]
  exact StaysInside.height_nonneg

/-- Where more scopes were entered than left, one of them is open still. It can be chosen with as
many scopes less inside it. -/
theorem exists_push_of_lt_height {steps : List ScopeStep} {more : Nat} (h : more < height steps) :
    ∃ index, steps[index]? = some push ∧ StaysInside (steps.drop (index + 1)) ∧
      more ≤ height (steps.drop (index + 1)) := by
  induction steps using List.reverseRecOn generalizing more with
  | nil =>
      rw [height_nil] at h
      omega
  | append_singleton steps step ih =>
      -- a scope that is open in front of the last step stays so if that step does not leave it
      have hstay (other : Nat) (hother : other < height steps)
          (hmore : more ≤ other + step.weight) :
          ∃ index, (steps ++ [step])[index]? = some push ∧
            StaysInside ((steps ++ [step]).drop (index + 1)) ∧
            more ≤ height ((steps ++ [step]).drop (index + 1)) := by
        obtain ⟨index, hpush, hinside, hheight⟩ := ih hother
        have hlt : index + 1 ≤ steps.length := (List.getElem?_eq_some_iff.mp hpush).1
        refine ⟨index, by rw [List.getElem?_append_left hlt, hpush], ?_⟩
        rw [List.drop_append_of_le_length hlt, staysInside_concat, height_concat]
        exact ⟨⟨hinside, by omega⟩, by omega⟩
      rw [height_concat] at h
      cases step with
      | push =>
          cases more with
          | zero =>
              refine ⟨steps.length, List.getElem?_concat_length, ?_⟩
              rw [List.drop_of_length_le (by simp)]
              exact ⟨staysInside_nil, le_rfl⟩
          | succ more =>
              simp only [weight] at h hstay
              exact hstay more (by omega) (by omega)
      | pop =>
          simp only [weight] at h hstay
          exact hstay (more + 1) (by omega) (by omega)
      | declare name type =>
          simp only [weight] at h hstay
          exact hstay more (by omega) (by omega)

theorem le_length_of_openAfter {steps : List ScopeStep} {scope : Nat} (h : OpenAfter steps scope) :
    scope ≤ steps.length := by
  cases scope with
  | zero => exact Nat.zero_le _
  | succ index => exact (List.getElem?_eq_some_iff.mp h.1).1

theorem openAfter_concat_succ {steps : List ScopeStep} {step : ScopeStep} {index : Nat} :
    OpenAfter (steps ++ [step]) (index + 1) ↔ index = steps.length ∧ step = push ∨
      steps[index]? = some push ∧ StaysInside (steps.drop (index + 1) ++ [step]) := by
  rw [OpenAfter, getElem?_concat_eq_some_iff, or_and_right, or_comm]
  refine or_congr ⟨fun ⟨⟨hindex, hstep⟩, _⟩ => ⟨hindex, hstep.symm⟩, ?_⟩
    (and_congr_right fun hpush => ?_)
  · rintro ⟨rfl, rfl⟩
    simp [staysInside_nil]
  · rw [List.drop_append_of_le_length (List.getElem?_eq_some_iff.mp hpush).1]

theorem openAfter_concat_push {steps : List ScopeStep} {scope : Nat} :
    OpenAfter (steps ++ [push]) scope ↔ scope = steps.length + 1 ∨ OpenAfter steps scope := by
  cases scope with
  | zero => simp [OpenAfter]
  | succ index =>
      rw [openAfter_concat_succ, staysInside_concat_push, Nat.add_right_cancel_iff,
        and_iff_left rfl, OpenAfter]

theorem openAfter_concat_declare {steps : List ScopeStep} {name : String} {type : SemanticType}
    {scope : Nat} : OpenAfter (steps ++ [declare name type]) scope ↔ OpenAfter steps scope := by
  cases scope with
  | zero => exact Iff.rfl
  | succ index =>
      rw [openAfter_concat_succ, staysInside_concat_declare, or_iff_right (fun h => nomatch h.2),
        OpenAfter]

/-- More scopes were entered than left while a scope is open that was entered there. -/
theorem height_pos_of_push {steps : List ScopeStep} {index : Nat} (h : StaysInside steps)
    (hpush : steps[index]? = some push) (hbehind : StaysInside (steps.drop (index + 1))) :
    0 < height steps := by
  obtain ⟨hlt, hget⟩ := List.getElem?_eq_some_iff.mp hpush
  have hsplit : steps = steps.take index ++ push :: steps.drop (index + 1) := by
    rw [← hget, ← List.drop_eq_getElem_cons, List.take_append_drop]
  have hfront := h _ (List.take_prefix index steps)
  have hback := hbehind.height_nonneg
  rw [hsplit, height_append, height_cons, weight]
  omega

/-- To leave a scope leaves the innermost one, if that is not the outermost one. -/
theorem openAfter_concat_pop {steps : List ScopeStep} {scope : Nat} :
    OpenAfter (steps ++ [pop]) scope ↔
      scope = 0 ∨ OpenAfter steps scope ∧ ∃ inner, scope < inner ∧ OpenAfter steps inner := by
  cases scope with
  | zero => simp [OpenAfter]
  | succ index =>
      rw [openAfter_concat_succ, staysInside_concat, or_iff_right (fun h => nomatch h.2), weight,
        or_iff_right (Nat.succ_ne_zero index), OpenAfter, and_assoc]
      refine and_congr_right fun _ => and_congr_right fun hinside => ⟨fun hheight => ?_, ?_⟩
      · have hlt : (0 : Nat) < height (steps.drop (index + 1)) := by omega
        obtain ⟨more, hpush, hopen, -⟩ := exists_push_of_lt_height hlt
        rw [List.getElem?_drop] at hpush
        rw [List.drop_drop] at hopen
        exact ⟨index + 1 + more + 1, by omega, hpush, hopen⟩
      · rintro ⟨_ | inner, hlt, hopen⟩
        · omega
        · obtain ⟨more, rfl⟩ := Nat.exists_eq_add_of_le (Nat.le_of_lt_succ hlt)
          obtain ⟨hpush, hbehind⟩ := hopen
          rw [← List.getElem?_drop] at hpush
          rw [Nat.add_assoc, ← List.drop_drop] at hbehind
          have hpos := height_pos_of_push hinside hpush hbehind
          omega

/-- The step with an index declares a variable in a scope. -/
def DeclaresAt (steps : List ScopeStep) (index scope : Nat) (name : String) (type : SemanticType) :
    Prop :=
  steps[index]? = some (declare name type) ∧ IsInnermost (steps.take index) scope

def Declares (steps : List ScopeStep) (scope : Nat) (name : String) : Prop :=
  ∃ index type, DeclaresAt steps index scope name type

/-- A scope declares a variable with a type and not once more behind that. -/
def LastDeclares (steps : List ScopeStep) (scope : Nat) (name : String) (type : SemanticType) :
    Prop :=
  ∃ index, DeclaresAt steps index scope name type ∧
    ∀ later other, DeclaresAt steps later scope name other → later ≤ index

variable {steps : List ScopeStep} {step : ScopeStep} {scope : Nat} {name : String}
  {type : SemanticType}

theorem DeclaresAt.lt_length {index : Nat} (h : DeclaresAt steps index scope name type) :
    index < steps.length :=
  (List.getElem?_eq_some_iff.mp h.1).1

/-- A scope is there before something is declared in it. -/
theorem Declares.le_length (h : Declares steps scope name) : scope ≤ steps.length := by
  obtain ⟨index, type, h⟩ := h
  exact (le_length_of_openAfter h.2.1).trans (List.length_take_le' _ _)

theorem declares_iff_exists_lastDeclares :
    Declares steps scope name ↔ ∃ type, LastDeclares steps scope name type := by
  classical
  constructor
  · rintro ⟨index, type, h⟩
    let Declared (index : Nat) : Prop := ∃ type, DeclaresAt steps index scope name type
    have hindex : Declared index := ⟨type, h⟩
    obtain ⟨last, hlast⟩ := Nat.findGreatest_spec h.lt_length.le hindex
    refine ⟨last, _, hlast, fun later other hlater => ?_⟩
    have hdeclared : Declared later := ⟨other, hlater⟩
    exact Nat.le_findGreatest hlater.lt_length.le hdeclared
  · rintro ⟨type, index, h, -⟩
    exact ⟨index, type, h⟩

theorem declaresAt_concat {index : Nat} :
    DeclaresAt (steps ++ [step]) index scope name type ↔
      DeclaresAt steps index scope name type ∨
        index = steps.length ∧ step = declare name type ∧ IsInnermost steps scope := by
  rw [DeclaresAt, DeclaresAt, getElem?_concat_eq_some_iff, or_and_right, and_assoc]
  refine or_congr (and_congr_right fun hdeclare => ?_) (and_congr_right ?_)
  · rw [List.take_append_of_le_length (List.getElem?_eq_some_iff.mp hdeclare).1.le]
  · rintro rfl
    rw [List.take_left, eq_comm]

theorem lastDeclares_concat_self {last : SemanticType} (h : IsInnermost steps scope) :
    LastDeclares (steps ++ [declare name last]) scope name type ↔ type = last := by
  have hlast : DeclaresAt (steps ++ [declare name last]) steps.length scope name last :=
    declaresAt_concat.mpr (.inr ⟨rfl, rfl, h⟩)
  constructor
  · rintro ⟨index, hindex, hmax⟩
    rcases declaresAt_concat.mp hindex with hbefore | ⟨-, heq, -⟩
    · exact absurd hbefore.lt_length (hmax _ _ hlast).not_gt
    · injection heq with _ heq
      exact heq.symm
  · rintro rfl
    refine ⟨steps.length, hlast, fun later other hlater => ?_⟩
    have hlt := hlater.lt_length
    rw [List.length_append] at hlt
    exact Nat.le_of_lt_succ hlt

theorem lastDeclares_concat_of_not
    (h : ∀ type, step = declare name type → ¬ IsInnermost steps scope) :
    LastDeclares (steps ++ [step]) scope name type ↔ LastDeclares steps scope name type := by
  have hsame (index : Nat) (type : SemanticType) :
      DeclaresAt (steps ++ [step]) index scope name type ↔
        DeclaresAt steps index scope name type := by
    rw [declaresAt_concat, or_iff_left]
    exact fun ⟨_, hstep, hscope⟩ => h type hstep hscope
  simp only [LastDeclares, hsame]

end ScopeStep

open ScopeStep

/-- A frame holds, for each variable, the type of its last declaration in a scope. -/
def Shows (steps : List ScopeStep) (scope : Nat) (frame : Frame) : Prop :=
  ∀ name type, frame.lookup name = some type ↔ LastDeclares steps scope name type

section

variable {steps : List ScopeStep} {step : ScopeStep} {scope : Nat} {frame : Frame}

theorem Shows.lookup_eq_none_iff (h : Shows steps scope frame) {name : String} :
    frame.lookup name = none ↔ ¬ Declares steps scope name := by
  rw [declares_iff_exists_lastDeclares, Option.eq_none_iff_forall_ne_some, not_exists]
  exact forall_congr' fun type => not_congr (h name type)

theorem shows_nil_concat_push : Shows (steps ++ [push]) (steps.length + 1) [] := by
  intro name type
  rw [lastDeclares_concat_of_not (fun _ hstep => by cases hstep)]
  refine iff_of_false (by simp) fun h => ?_
  have hle := (declares_iff_exists_lastDeclares.mpr ⟨type, h⟩).le_length
  exact absurd hle (Nat.not_succ_le_self _)

theorem Shows.concat_of_not (h : Shows steps scope frame)
    (hstep : ∀ name type, step = declare name type → ¬ IsInnermost steps scope) :
    Shows (steps ++ [step]) scope frame := by
  intro name type
  rw [h name type, lastDeclares_concat_of_not (hstep name)]

theorem Shows.concat_declare (h : Shows steps scope frame) (hscope : IsInnermost steps scope)
    (name : String) (type : SemanticType) :
    Shows (steps ++ [declare name type]) scope ((name, type) :: frame) := by
  intro other found
  rw [List.lookup_cons]
  by_cases heq : other = name
  · subst heq
    rw [lastDeclares_concat_self hscope, beq_self_eq_true]
    exact (Option.some_inj).trans eq_comm
  · rw [lastDeclares_concat_of_not, beq_false_of_ne heq]
    · exact h other found
    · intro type hstep
      injection hstep with hname
      exact absurd hname.symm heq

end

/-- The open scopes, the innermost one first, and the frames that they have now. -/
structure Tracks (steps : List ScopeStep) (scopes : List Nat) (frames : List Frame) : Prop where
  openAfter : ∀ scope, scope ∈ scopes ↔ OpenAfter steps scope
  nested : scopes.Pairwise (· > ·)
  shows : List.Forall₂ (Shows steps) scopes frames

namespace Tracks

variable {steps : List ScopeStep} {scopes : List Nat} {scope : Nat} {frames : List Frame}
  {frame : Frame}

theorem zero_mem (h : Tracks steps scopes frames) : 0 ∈ scopes := (h.openAfter 0).mpr trivial

theorem isInnermost_iff (h : Tracks steps (scope :: scopes) frames) {other : Nat} :
    IsInnermost steps other ↔ other = scope := by
  have hbelow := (List.pairwise_cons.mp h.nested).1
  have hmem : ∀ inner, OpenAfter steps inner → inner ≤ scope := by
    intro inner hinner
    rcases List.mem_cons.mp ((h.openAfter inner).mpr hinner) with rfl | hinner
    · exact le_rfl
    · exact (hbelow inner hinner).le
  have hscope := (h.openAfter scope).mp List.mem_cons_self
  constructor
  · exact fun hother => (hmem other hother.1).antisymm (hother.2 scope hscope)
  · rintro rfl
    exact ⟨hscope, hmem⟩

theorem push (h : Tracks steps scopes frames) :
    Tracks (steps ++ [.push]) ((steps.length + 1) :: scopes) ([] :: frames) := by
  refine ⟨fun scope => ?_, List.pairwise_cons.mpr ⟨fun scope hmem => ?_, h.nested⟩,
    .cons shows_nil_concat_push (h.shows.imp fun _ _ hshows => ?_)⟩
  · rw [List.mem_cons, openAfter_concat_push, h.openAfter]
  · exact Nat.lt_succ_of_le (le_length_of_openAfter ((h.openAfter scope).mp hmem))
  · exact hshows.concat_of_not fun _ _ hstep => nomatch hstep

theorem declare (h : Tracks steps (scope :: scopes) (frame :: frames)) (name : String)
    (type : SemanticType) : Tracks (steps ++ [.declare name type]) (scope :: scopes)
      (((name, type) :: frame) :: frames) := by
  obtain ⟨hframe, hframes⟩ := List.forall₂_cons.mp h.shows
  have hbelow := (List.pairwise_cons.mp h.nested).1
  refine ⟨fun other => ?_, h.nested, .cons ?_ ?_⟩
  · rw [openAfter_concat_declare, h.openAfter]
  · exact hframe.concat_declare (h.isInnermost_iff.mpr rfl) name type
  · refine (List.forall₂_and_left scopes frames).mpr ⟨hbelow, hframes⟩ |>.imp ?_
    rintro other _ ⟨hlt, hshows⟩
    exact hshows.concat_of_not fun _ _ _ hother => hlt.ne (h.isInnermost_iff.mp hother)

/-- To leave the outermost scope changes nothing. -/
theorem pop_outermost (h : Tracks steps [scope] [frame]) :
    Tracks (steps ++ [.pop]) [scope] [frame] := by
  obtain rfl : 0 = scope := List.mem_singleton.mp h.zero_mem
  refine ⟨fun other => ?_, h.nested, h.shows.imp fun _ _ hshows => ?_⟩
  · rw [openAfter_concat_pop, List.mem_singleton, iff_self_or]
    rintro ⟨-, inner, hlt, hinner⟩
    have hzero := List.mem_singleton.mp ((h.openAfter inner).mpr hinner)
    omega
  · exact hshows.concat_of_not fun _ _ hstep => nomatch hstep

theorem pop_inner (h : Tracks steps (scope :: scopes) (frame :: frames)) (hne : scopes ≠ []) :
    Tracks (steps ++ [.pop]) scopes frames := by
  obtain ⟨hbelow, hnested⟩ := List.pairwise_cons.mp h.nested
  refine ⟨fun other => ?_, hnested, (List.forall₂_cons.mp h.shows).2.imp fun _ _ hshows => ?_⟩
  · rw [openAfter_concat_pop]
    constructor
    · intro hother
      exact .inr ⟨(h.openAfter other).mp (List.mem_cons_of_mem _ hother), scope,
        hbelow other hother, (h.openAfter scope).mp List.mem_cons_self⟩
    · rintro (rfl | ⟨hother, inner, hlt, hinner⟩)
      · obtain ⟨next, hnext⟩ := List.exists_mem_of_ne_nil scopes hne
        have hpos := hbelow next hnext
        exact (List.mem_cons.mp h.zero_mem).resolve_left (by omega)
      · rcases List.mem_cons.mp ((h.openAfter other).mpr hother) with rfl | hmem
        · have hle := (h.isInnermost_iff.mpr rfl).2 inner hinner
          omega
        · exact hmem
  · exact hshows.concat_of_not fun _ _ hstep => nomatch hstep

theorem lookup_iff (h : Tracks steps scopes frames) {name : String} {type : SemanticType} :
    frames.findSome? (·.lookup name) = some type ↔
      ∃ scope ∈ scopes, LastDeclares steps scope name type ∧
        ∀ inner ∈ scopes, scope < inner → ¬ Declares steps inner name := by
  obtain ⟨-, hnested, hshows⟩ := h
  induction hshows with
  | nil => simp
  | @cons scope frame scopes frames hframe _ ih =>
      obtain ⟨hbelow, hnested⟩ := List.pairwise_cons.mp hnested
      simp only [List.findSome?_cons, List.exists_mem_cons_iff, List.forall_mem_cons]
      cases hlookup : frame.lookup name with
      | some found =>
          have hlast := (hframe name found).mp hlookup
          constructor
          · rintro ⟨⟩
            refine .inl ⟨hlast, fun hlt => absurd hlt (lt_irrefl _), fun inner hinner hlt => ?_⟩
            exact absurd hlt (hbelow inner hinner).asymm
          · rintro (⟨hother, -⟩ | ⟨outer, houter, -, hnot, -⟩)
            · exact hlookup.symm.trans ((hframe name type).mpr hother)
            · exact absurd (declares_iff_exists_lastDeclares.mpr ⟨found, hlast⟩)
                (hnot (hbelow outer houter))
      | none =>
          have hnot := hframe.lookup_eq_none_iff.mp hlookup
          have hnotLast : ¬ LastDeclares steps scope name type := fun hlast =>
            hnot (declares_iff_exists_lastDeclares.mpr ⟨type, hlast⟩)
          rw [or_iff_right fun h => hnotLast h.1]
          refine (ih hnested).trans (exists_congr fun outer => and_congr_right fun _ => ?_)
          exact and_congr_right fun _ => (and_iff_right fun _ => hnot).symm

end Tracks

namespace VariableScope

/-- A scope behind one step. -/
def take (scope : VariableScope) : ScopeStep → VariableScope
  | .push => scope.push
  | .pop => scope.pop
  | .declare name type => scope.declare name type

/-- A scope behind some steps. -/
def run (scope : VariableScope) (steps : List ScopeStep) : VariableScope := steps.foldl take scope

theorem run_concat (scope : VariableScope) (steps : List ScopeStep) (step : ScopeStep) :
    scope.run (steps ++ [step]) = (scope.run steps).take step := by
  rw [run, List.foldl_append]
  rfl

theorem run_append (scope : VariableScope) (steps more : List ScopeStep) :
    scope.run (steps ++ more) = (scope.run steps).run more :=
  List.foldl_append

/-- One step keeps track of the open scopes. -/
theorem exists_tracks_take {scope : VariableScope} {steps : List ScopeStep} {scopes : List Nat}
    (h : Tracks steps scopes scope.frames) (step : ScopeStep) :
    ∃ scopes, Tracks (steps ++ [step]) scopes (scope.take step).frames := by
  obtain ⟨inner, outermost⟩ := scope
  cases step with
  | push => exact ⟨_, h.push⟩
  | pop =>
      cases inner with
      | nil =>
          obtain ⟨innermost, rest, -, hrest, rfl⟩ := List.forall₂_cons_right_iff.mp h.shows
          obtain rfl := List.forall₂_nil_right_iff.mp hrest
          exact ⟨_, h.pop_outermost⟩
      | cons frame inner =>
          obtain ⟨innermost, rest, -, hrest, rfl⟩ := List.forall₂_cons_right_iff.mp h.shows
          refine ⟨rest, h.pop_inner ?_⟩
          rintro rfl
          simpa using hrest.length_eq
  | declare name type =>
      cases inner with
      | nil | cons frame inner =>
          obtain ⟨innermost, rest, -, -, rfl⟩ := List.forall₂_cons_right_iff.mp h.shows
          exact ⟨_, h.declare name type⟩

theorem tracks_nil : Tracks [] [0] empty.frames := by
  refine ⟨fun scope => ?_, List.pairwise_singleton _ _, .cons (fun name type => ?_) .nil⟩
  · cases scope with
    | zero => simp [OpenAfter]
    | succ index => simp [OpenAfter]
  · refine iff_of_false nofun ?_
    rintro ⟨index, hindex, -⟩
    exact absurd hindex.lt_length (Nat.not_lt_zero index)

theorem exists_tracks (steps : List ScopeStep) :
    ∃ scopes, Tracks steps scopes (empty.run steps).frames := by
  induction steps using List.reverseRecOn with
  | nil => exact ⟨_, tracks_nil⟩
  | append_singleton steps step ih =>
      obtain ⟨scopes, h⟩ := ih
      rw [run_concat]
      exact exists_tracks_take h step

theorem depth_eq_of_tracks {scope : VariableScope} {steps : List ScopeStep} {scopes : List Nat}
    (h : Tracks steps scopes scope.frames) :
    scope.depth = 1 + {inner | 0 < inner ∧ OpenAfter steps inner}.ncard := by
  have hnodup : scopes.Nodup := h.nested.imp fun hgt => hgt.ne'
  have hall : {inner | OpenAfter steps inner} = (scopes.toFinset : Set Nat) := by
    ext inner
    rw [Finset.mem_coe, List.mem_toFinset, h.openAfter]
    rfl
  have hinner : {inner | 0 < inner ∧ OpenAfter steps inner} =
      {inner | OpenAfter steps inner} \ {0} := by
    ext inner
    rw [Set.mem_sdiff_singleton]
    exact and_comm.trans (and_congr_right fun _ => Nat.pos_iff_ne_zero)
  have hzero : 0 ∈ (scopes.toFinset : Set Nat) :=
    Finset.mem_coe.mpr (List.mem_toFinset.mpr h.zero_mem)
  rw [hinner, hall, add_comm, Set.ncard_sdiff_singleton_add_one hzero, Set.ncard_coe_finset,
    List.toFinset_card_of_nodup hnodup]
  exact h.shows.length_eq.symm

end VariableScope

/-- As many scopes are left as entered, and variables are declared in these only. -/
structure ScopeStep.Balanced (segment : List ScopeStep) : Prop where
  staysInside : StaysInside segment
  height_eq : height segment = 0
  declares_inside : ∀ index name type,
    segment[index]? = some (declare name type) → 0 < height (segment.take index)

namespace VariableScope

/-- Steps that stay inside a scope and declare nothing in it put frames on it. -/
theorem exists_frames_run (scope : VariableScope) {steps : List ScopeStep} (h : StaysInside steps)
    (hdeclares : ∀ index name type,
      steps[index]? = some (.declare name type) → 0 < height (steps.take index)) :
    ∃ frames : List Frame, frames.length = height steps ∧
      scope.run steps = { scope with inner := frames ++ scope.inner } := by
  induction steps using List.reverseRecOn with
  | nil => exact ⟨[], rfl, rfl⟩
  | append_singleton steps step ih =>
      rw [staysInside_concat] at h
      have hbefore (index : Nat) (name : String) (type : SemanticType)
          (hstep : steps[index]? = some (.declare name type)) : 0 < height (steps.take index) := by
        have hlt := (List.getElem?_eq_some_iff.mp hstep).1
        rw [← List.take_append_of_le_length hlt.le]
        exact hdeclares index name type (by rw [List.getElem?_append_left hlt, hstep])
      obtain ⟨frames, hlength, hrun⟩ := ih h.1 hbefore
      rw [run_concat, hrun, height_concat, ← hlength]
      cases step with
      | push => exact ⟨[] :: frames, by simp [weight], rfl⟩
      | pop =>
          cases frames with
          | nil =>
              simp only [List.length_nil] at hlength
              simp only [weight] at h
              omega
          | cons frame frames => exact ⟨frames, by simp [weight], rfl⟩
      | declare name type =>
          have hpos := hdeclares steps.length name type List.getElem?_concat_length
          rw [List.take_left] at hpos
          cases frames with
          | nil =>
              simp only [List.length_nil] at hlength
              omega
          | cons frame frames => exact ⟨((name, type) :: frame) :: frames, by simp [weight], rfl⟩

theorem run_of_balanced (scope : VariableScope) {segment : List ScopeStep} (h : Balanced segment) :
    scope.run segment = scope := by
  obtain ⟨frames, hlength, hrun⟩ := scope.exists_frames_run h.staysInside h.declares_inside
  rw [h.height_eq, Int.natCast_eq_zero, List.length_eq_zero_iff] at hlength
  rw [hrun, hlength, List.nil_append]

/-- Behind any steps a variable has the type of its last declaration in the innermost open scope
that declares it. The depth is one more than the number of scopes that were entered and are open.
Balanced steps change no look-up. The visible names are in order and are those that a look-up
finds. -/
theorem scopes_are_a_stack (steps : List ScopeStep) :
    (∀ name type, (empty.run steps).lookup name = some type ↔
      ∃ scope, OpenAfter steps scope ∧ LastDeclares steps scope name type ∧
        ∀ inner, OpenAfter steps inner → scope < inner → ¬ Declares steps inner name) ∧
    (empty.run steps).depth = 1 + {scope | 0 < scope ∧ OpenAfter steps scope}.ncard ∧
    (∀ segment, Balanced segment → ∀ name,
      (empty.run (steps ++ segment)).lookup name = (empty.run steps).lookup name) ∧
    (empty.run steps).visibleNames.Pairwise (· < ·) ∧
    ∀ name, name ∈ (empty.run steps).visibleNames ↔
      ((empty.run steps).lookup name).isSome = true := by
  obtain ⟨scopes, h⟩ := exists_tracks steps
  refine ⟨fun name type => ?_, depth_eq_of_tracks h, fun segment hsegment name => ?_,
    Data.pairwise_ordered _, fun name => ?_⟩
  · rw [lookup, h.lookup_iff]
    simp only [h.openAfter]
  · rw [run_append, run_of_balanced _ hsegment]
  · rw [mem_visibleNames_iff, Option.isSome_iff_exists]

/-- A scope that was left hides nothing any more, and a balanced segment shows nothing. -/
theorem reentered_scopes_are_a_stack :
    let steps : List ScopeStep :=
      [.pop, .declare "x" .integer, .push, .declare "x" .string, .pop, .push]
    let segment : List ScopeStep := [.push, .declare "x" .float, .pop]
    Balanced segment ∧
      (empty.run (steps ++ segment)).lookup "x" = (empty.run steps).lookup "x" ∧
      (∃ scope, OpenAfter steps scope ∧ LastDeclares steps scope "x" .integer ∧
        ∀ inner, OpenAfter steps inner → scope < inner → ¬ Declares steps inner "x") ∧
      {scope | 0 < scope ∧ OpenAfter steps scope}.ncard = 1 := by
  intro steps segment
  have hbalanced : Balanced segment := by
    refine ⟨by decide, rfl, fun index name type h => ?_⟩
    match index with
    | 0 | 2 => cases h
    | 1 => decide
    | index + 3 => cases h
  obtain ⟨hlookup, hdepth, hsegment, -, -⟩ := scopes_are_a_stack steps
  refine ⟨hbalanced, hsegment segment hbalanced "x", (hlookup "x" .integer).mp rfl, ?_⟩
  have htwo : (empty.run steps).depth = 2 := rfl
  omega

end VariableScope

end ExprVet
