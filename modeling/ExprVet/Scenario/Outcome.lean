import ExprVet.Scenario.Case
import ExprVet.Validation.Validator

/-! # Running scenarios

The errors of a case are compared with the expected lines one by one. A star at the end of an
expected line stands for any rest of the line. -/

namespace ExprVet.Scenario

/-- Whether a line is as expected. -/
def lineMatches (actual expected : String) : Bool :=
  if expected.toList.getLast? = some '*' then
    expected.toList.dropLast.isPrefixOf actual.toList
  else actual == expected

inductive Outcome where
  | matched
  | skipped (reason : String)
  /-- The errors are not the expected ones. -/
  | mismatch (actual : List ValidationError)
  /-- The case could not be run. -/
  | invalid (message : String)
  deriving DecidableEq, Repr

/-- Whether there are as many errors as expected lines and each is as expected. -/
def allMatch : List ValidationError → List String → Bool
  | [], [] => true
  | error :: errors, line :: lines => lineMatches error.text line && allMatch errors lines
  | _, _ => false

namespace Case

/-- The activity that a case describes. -/
def activity (case : Case) : Activity := ⟨[], ⟨case.name, case.imports, case.modules⟩⟩

def request (case : Case) : Request :=
  ⟨case.activity.context, (VariableScope.empty.declareAll case.declarations).lookup,
    case.expectedType, case.input⟩

/-- What the errors of a case say about it. -/
def compare (case : Case) (actual : List ValidationError) : Outcome :=
  if allMatch actual case.expected then .matched else .mismatch actual

/-- Runs a case unless it is set aside or has problems. -/
def run (case : Case) (validator : Validator) (cache : ReferenceCache) :
    Outcome × Validator × ReferenceCache :=
  match case.skip with
  | some reason => (.skipped reason, validator, cache)
  | none =>
      if case.problems.isEmpty then
        let (result, validator, cache) := validator.validate cache case.request
        let outcome := match result with
          | .ok actual => case.compare actual
          | .error failure => .invalid failure.message
        (outcome, validator, cache)
      else (.invalid ("; ".intercalate (case.problems.map Problem.message)), validator, cache)

end Case

/-- Runs cases in order. -/
def runAll (validator : Validator) (cache : ReferenceCache) : List Case → List (Case × Outcome)
  | [] => []
  | case :: cases =>
      let (outcome, validator, cache) := case.run validator cache
      (case, outcome) :: runAll validator cache cases

/-- Runs cases against a catalog, with the standard configuration and an empty cache. -/
def runWith (catalog : Catalog) (cases : List Case) : List (Case × Outcome) :=
  let (validator, cache) := Validator.create catalog .standard .empty
  runAll validator cache cases

end ExprVet.Scenario
