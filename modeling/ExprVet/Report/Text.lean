import ExprVet.Data.Json
import ExprVet.Diagnostic
import ExprVet.Report.Drawing

/-! # Reports on a snippet

A report tells the validation errors of a snippet one after another and ends with a count. An error
is drawn into the snippet if its place lies there, and told in one line otherwise. -/

namespace ExprVet.Report

inductive Color where
  | red
  | green
  | yellow
  deriving DecidableEq, Repr

/-- The number by which terminals know a colour. -/
def Color.code : Color → Nat
  | red => 31
  | green => 32
  | yellow => 33

/-- A text in a terminal style that is switched on and off by numbers. -/
def styled (on off : Nat) (text : String) : String :=
  "\x1b[" ++ toString on ++ "m" ++ text ++ "\x1b[" ++ toString off ++ "m"

def Color.paint (color : Color) (text : String) : String := styled color.code 39 text

def bold (text : String) : String := styled 1 0 text

def counted (n : Nat) (word : String) : String :=
  toString n ++ " " ++ word ++ if n = 1 then "" else "s"

/-- The counts of errors and warnings, or `ok` where there are none. -/
def summary (errors : List ValidationError) (colored : Bool) : String :=
  let warnings := errors.countP (·.isWarning)
  let failures := errors.length - warnings
  let (color, text) : Color × String :=
    if errors.isEmpty then (.green, "ok")
    else (if failures = 0 then .yellow else .red,
      counted failures "error" ++ ", " ++ counted warnings "warning")
  if colored then color.paint text else text

/-- An error in one line. -/
def plain (error : ValidationError) (colored : Bool) : String :=
  if colored then
    let (color, word) : Color × String :=
      if error.isWarning then (.yellow, "warning") else (.red, "error")
    bold (color.paint word) ++ ": " ++ error.message
  else error.text

def title (error : ValidationError) : String :=
  (if error.isWarning then "Warning: " else "Error: ") ++ error.message

/-- An error as it is told in a report. -/
def piece (error : ValidationError) (snippet : String) (colored : Bool) : String :=
  let inside := error.span.filter (·.stop ≤ snippet.utf8ByteSize)
  let told := match inside with
    | some span => draw (title error) snippet span
    | none => plain error colored
  String.ofList (Text.trimEnd told.toList)

/-- The report on a snippet. -/
def text (errors : List ValidationError) (snippet : String) (colored : Bool) : String :=
  String.join (errors.map fun error => piece error snippet colored ++ "\n") ++
    summary errors colored

/-- The errors as JSON. -/
def json (errors : List ValidationError) : String :=
  Data.Json.text (.list (errors.map (·.toData)))

end ExprVet.Report
