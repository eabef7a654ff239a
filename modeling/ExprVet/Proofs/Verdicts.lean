import ExprVet.Scenario.Report
import Mathlib.Data.List.Basic

/-!
# Verdicts and listings

Whether a case is as expected is decided by walking through its errors and its expected lines
together, and the listing of a failed case is written by walking through them once more. Both go by
index: what is listed for an expected line depends on the error with its index alone, and the other
way round. So a case is as expected when its listing would have nothing but agreeing lines.
-/

namespace ExprVet.Scenario

namespace DiffLine

/-- The line is about an error. -/
def isError : DiffLine → Bool
  | same _ | extra _ => true
  | missing _ => false

/-- The line is about an expected line. -/
def isExpected : DiffLine → Bool
  | same _ | missing _ => true
  | extra _ => false

def isSame : DiffLine → Bool
  | same _ => true
  | missing _ | extra _ => false

end DiffLine

/-- A printed line begins with the mark of a missing or of an extra line. -/
def Marked (line : String) : Prop := "  - ".toList <+: line.toList ∨ "  + ".toList <+: line.toList

instance : DecidablePred Marked := fun _ => inferInstanceAs (Decidable (_ ∨ _))

theorem marked_text_iff (line : DiffLine) : Marked line.text ↔ line.isSame = false := by
  cases line with
  | same text => simp [Marked, DiffLine.text, DiffLine.isSame]
  | missing text => simp [Marked, DiffLine.text, DiffLine.isSame]
  | extra text => simp [Marked, DiffLine.text, DiffLine.isSame]

/-- What is listed for an expected line: the error with its index if that is as expected, and the
line itself otherwise. -/
def listedLine (actual : List ValidationError) (index : Nat) (line : String) : DiffLine :=
  match actual[index]? with
  | some error => if lineMatches error.text line then .same error.text else .missing line
  | none => .missing line

/-- What is listed for an error, which agrees with the expected line of its index or is extra. -/
def listedError (expected : List String) (index : Nat) (error : ValidationError) : DiffLine :=
  match expected[index]? with
  | some line => if lineMatches error.text line then .same error.text else .extra error.text
  | none => .extra error.text

theorem listedLine_cons_zero (error : ValidationError) (errors : List ValidationError)
    (line : String) : listedLine (error :: errors) 0 line =
      if lineMatches error.text line then .same error.text else .missing line := rfl

theorem listedError_cons_zero (line : String) (lines : List String) (error : ValidationError) :
    listedError (line :: lines) 0 error =
      if lineMatches error.text line then .same error.text else .extra error.text := rfl

theorem mapIdx_listedLine_nil (expected : List String) :
    expected.mapIdx (listedLine []) = expected.map .missing := by
  rw [List.mapIdx_eq_iff]
  intro index
  rw [List.getElem?_map]
  rfl

theorem mapIdx_listedError_nil (actual : List ValidationError) :
    actual.mapIdx (listedError []) = actual.map (.extra ·.text) := by
  rw [List.mapIdx_eq_iff]
  intro index
  rw [List.getElem?_map]
  rfl

/-- Each expected line is listed once, in order. -/
theorem filter_isExpected_diff (expected : List String) (actual : List ValidationError) :
    (diff expected actual).filter DiffLine.isExpected = expected.mapIdx (listedLine actual) := by
  fun_induction diff expected actual with
  | case1 => rfl
  | case2 expected =>
      rw [mapIdx_listedLine_nil, List.filter_eq_self, List.forall_mem_map]
      exact fun _ _ => rfl
  | case3 actual => simp [DiffLine.isExpected]
  | case4 line lines error errors hmatch ih =>
      rw [List.mapIdx_cons, listedLine_cons_zero, if_pos hmatch, List.filter_cons_of_pos rfl, ih]
      rfl
  | case5 line lines error errors hmatch ih =>
      rw [List.mapIdx_cons, listedLine_cons_zero, if_neg hmatch, List.filter_cons_of_pos rfl,
        List.filter_cons_of_neg Bool.false_ne_true, ih]
      rfl

/-- Each error is listed once, in order. -/
theorem filter_isError_diff (expected : List String) (actual : List ValidationError) :
    (diff expected actual).filter DiffLine.isError = actual.mapIdx (listedError expected) := by
  fun_induction diff expected actual with
  | case1 => rfl
  | case2 expected => simp [DiffLine.isError]
  | case3 actual =>
      rw [mapIdx_listedError_nil, List.filter_eq_self, List.forall_mem_map]
      exact fun _ _ => rfl
  | case4 line lines error errors hmatch ih =>
      rw [List.mapIdx_cons, listedError_cons_zero, if_pos hmatch, List.filter_cons_of_pos rfl, ih]
      rfl
  | case5 line lines error errors hmatch ih =>
      rw [List.mapIdx_cons, listedError_cons_zero, if_neg hmatch,
        List.filter_cons_of_neg Bool.false_ne_true, List.filter_cons_of_pos rfl, ih]
      rfl

/-- A listing has agreeing lines only if there are as many errors as expected lines and each is as
expected. -/
theorem allMatch_iff (actual : List ValidationError) (expected : List String) :
    allMatch actual expected = true ↔ ∀ line ∈ diff expected actual, line.isSame = true := by
  fun_induction diff expected actual with
  | case1 => simp [allMatch]
  | case2 expected hne =>
      obtain ⟨line, lines, rfl⟩ := List.exists_cons_of_ne_nil hne
      simp [allMatch, DiffLine.isSame]
  | case3 actual hne =>
      obtain ⟨error, errors, rfl⟩ := List.exists_cons_of_ne_nil hne
      simp [allMatch, DiffLine.isSame]
  | case4 line lines error errors hmatch ih =>
      rw [List.forall_mem_cons, ← ih, allMatch, hmatch, Bool.true_and, DiffLine.isSame,
        and_iff_right rfl]
  | case5 line lines error errors hmatch ih => simp [allMatch, hmatch, DiffLine.isSame]

namespace Case

theorem compare_eq_matched_iff (case : Case) (actual : List ValidationError) :
    case.compare actual = .matched ↔
      ∀ line ∈ (diff case.expected actual).map DiffLine.text, ¬ Marked line := by
  simp only [List.forall_mem_map, marked_text_iff, Bool.not_eq_false, ← allMatch_iff, compare]
  cases allMatch actual case.expected <;> simp

/-- A case is as expected when it is run to its end and compares well. -/
theorem run_eq_matched_iff (case : Case) (validator : Validator) (cache : ReferenceCache) :
    (case.run validator cache).1 = .matched ↔ case.skip = none ∧ case.problems = [] ∧
      ∃ actual, (validator.validate cache case.request).1 = .ok actual ∧
        case.compare actual = .matched := by
  rw [run]
  cases case.skip with
  | some reason => simp
  | none =>
      cases case.problems with
      | cons problem problems => simp
      | nil => cases h : (validator.validate cache case.request).1 <;> simp [h]

end Case

namespace Report

/-- Each case is as expected, failed or set aside. -/
theorem length_eq (report : Report) :
    report.length = report.countMatched + report.failures.length + report.countSkipped := by
  induction report with
  | nil => rfl
  | cons entry report ih =>
      obtain ⟨case, outcome⟩ := entry
      simp only [countMatched, failures, countSkipped] at ih
      cases outcome <;> simp [countMatched, failures, countSkipped, isFailure, ih] <;> omega

theorem allMatched_iff (report : Report) :
    report.allMatched = true ↔ report.failures.length = 0 := by
  rw [allMatched, List.isEmpty_iff, List.length_eq_zero_iff]

end Report

/-- A case is as expected exactly when its listing would have no line with a minus or a plus. In a
listing there is one line for each error and one for each expected line, in their orders; the two
lines with one index are the same where the error is as expected. A report counts each case once,
and says that all are as expected when none failed. -/
theorem verdict_agrees_with_listing (case : Case) (actual : List ValidationError) :
    (case.compare actual = .matched ↔
      ∀ line ∈ (diff case.expected actual).map DiffLine.text, ¬ Marked line) ∧
    (∀ validator cache, (case.run validator cache).1 = .matched ↔
      case.skip = none ∧ case.problems = [] ∧
        ∃ errors, (validator.validate cache case.request).1 = .ok errors ∧
          ∀ line ∈ (diff case.expected errors).map DiffLine.text, ¬ Marked line) ∧
    (diff case.expected actual).filter DiffLine.isError =
      actual.mapIdx (listedError case.expected) ∧
    (diff case.expected actual).filter DiffLine.isExpected =
      case.expected.mapIdx (listedLine actual) ∧
    ∀ report : Report,
      report.length = report.countMatched + report.failures.length + report.countSkipped ∧
        (report.allMatched = true ↔ report.failures.length = 0) := by
  refine ⟨case.compare_eq_matched_iff actual, fun validator cache => ?_,
    filter_isError_diff _ _, filter_isExpected_diff _ _,
    fun report => ⟨report.length_eq, report.allMatched_iff⟩⟩
  simp only [Case.run_eq_matched_iff, Case.compare_eq_matched_iff]

/-- One error is as expected by a star, one differs and one is more than expected. -/
theorem starred_verdict_agrees_with_listing :
    let case := { Case.named "starred" 1 with expected := ["error: E100: *", "error: E104: f"] }
    let errors : List ValidationError :=
      [⟨"E100: x", false, none⟩, ⟨"E104: f", true, none⟩, ⟨"W300: zero", true, none⟩]
    case.compare errors ≠ .matched ∧
      case.compare [⟨"E100: x", false, none⟩, ⟨"E104: f", false, none⟩] = .matched ∧
      (diff case.expected errors).filter DiffLine.isError =
        [.same "error: E100: x", .extra "warning: E104: f", .extra "warning: W300: zero"] ∧
      (diff case.expected errors).filter DiffLine.isExpected =
        [.same "error: E100: x", .missing "error: E104: f"] := by
  intro case errors
  obtain ⟨hverdict, -, herrors, hexpected, -⟩ := verdict_agrees_with_listing case errors
  refine ⟨fun hmatched => ?_, ?_, ?_, ?_⟩
  · exact hverdict.mp hmatched "  - error: E104: f" (by decide) (by decide)
  · exact (verdict_agrees_with_listing case _).1.mpr (by decide)
  · rw [herrors]
    decide
  · rw [hexpected]
    decide

end ExprVet.Scenario
