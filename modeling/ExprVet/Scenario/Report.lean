import ExprVet.Scenario.Outcome

/-! # Reports on scenario files

Every failed case is listed with its input and with the difference between the expected lines and
the errors. A count of the outcomes ends the report. -/

namespace ExprVet.Scenario

/-- A line of a difference. -/
inductive DiffLine where
  /-- An error that is as expected. -/
  | same (line : String)
  | missing (line : String)
  | extra (line : String)
  deriving DecidableEq, Repr

def DiffLine.text : DiffLine → String
  | same line => "    " ++ line
  | missing line => "  - " ++ line
  | extra line => "  + " ++ line

/-- The expected lines and the errors side by side. -/
def diff : List String → List ValidationError → List DiffLine
  | [], [] => []
  | expected, [] => expected.map .missing
  | [], actual => actual.map (.extra ·.text)
  | line :: lines, error :: errors =>
      if lineMatches error.text line then .same error.text :: diff lines errors
      else .missing line :: .extra error.text :: diff lines errors

abbrev Report := List (Case × Outcome)

namespace Report

def isFailure : Outcome → Bool
  | .matched | .skipped _ => false
  | .mismatch _ | .invalid _ => true

def failures (report : Report) : Report := report.filter fun (_, outcome) => isFailure outcome

def allMatched (report : Report) : Bool := report.failures.isEmpty

def countMatched (report : Report) : Nat := report.countP fun (_, outcome) => outcome = .matched

def countSkipped (report : Report) : Nat :=
  report.countP fun (_, outcome) => match outcome with
    | .skipped _ => true
    | _ => false

/-- The lines about one failed case. -/
def failureLines (case : Case) (outcome : Outcome) : List String :=
  (case.name ++ " (line " ++ toString case.line ++ "): " ++ case.input) ::
    match outcome with
    | .mismatch actual => (diff case.expected actual).map DiffLine.text
    | .invalid message => ["  ! " ++ message]
    | .matched | .skipped _ => []

def summary (report : Report) : String :=
  toString report.length ++ " scenarios: " ++ toString report.countMatched ++ " matched, " ++
    toString report.failures.length ++ " failed, " ++ toString report.countSkipped ++ " skipped"

def text (report : Report) : String :=
  "\n".intercalate
    ((report.failures.flatMap fun (case, outcome) => failureLines case outcome) ++ [report.summary])

end Report

end ExprVet.Scenario
