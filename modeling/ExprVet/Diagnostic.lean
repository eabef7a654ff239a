import ExprVet.Data.Value
import ExprVet.Span

/-! # Diagnostics and validation errors

The checker reports diagnostics. The host of a snippet is told of those that are at least warnings,
as validation errors. -/

namespace ExprVet

inductive Severity where
  /-- Kept for bookkeeping and shown to nobody. -/
  | hidden
  | info
  | warning
  | error
  deriving DecidableEq, Repr

namespace Severity

/-- Severities from the least to the most severe. -/
def rank : Severity → Nat
  | hidden => 0
  | info => 1
  | warning => 2
  | error => 3

instance : LE Severity := ⟨fun a b => a.rank ≤ b.rank⟩
instance : DecidableLE Severity := fun a b => inferInstanceAs (Decidable (a.rank ≤ b.rank))

/-- Warnings and errors are told to the host. -/
def isReportable (severity : Severity) : Bool := decide (warning ≤ severity)

def text : Severity → String
  | hidden => "hidden"
  | info => "info"
  | warning => "warning"
  | error => "error"

def ofText? : String → Option Severity
  | "hidden" => some hidden
  | "info" => some info
  | "warning" => some warning
  | "error" => some error
  | _ => none

@[simp] theorem ofText?_text (severity : Severity) : ofText? severity.text = some severity := by
  cases severity <;> rfl

/-- The most severe of some severities. -/
def worst? (severities : List Severity) : Option Severity :=
  severities.foldl (fun worst severity =>
    match worst with
    | none => some severity
    | some worst => some (if worst ≤ severity then severity else worst)) none

end Severity

/-- A finding, located in the snippet where possible. -/
structure Diagnostic where
  severity : Severity
  code : String
  message : String
  span : Option Span
  deriving DecidableEq, Repr

namespace Diagnostic

/-- The message as users see it, `CODE: message`. -/
def rendered (d : Diagnostic) : String := d.code ++ ": " ++ d.message

def text (d : Diagnostic) : String := d.severity.text ++ " " ++ d.rendered

end Diagnostic

/-- A finding as the host is told of it. -/
structure ValidationError where
  message : String
  isWarning : Bool
  span : Option Span
  deriving DecidableEq, Repr

/-- The error as a line, after the word for its kind. -/
def ValidationError.text (error : ValidationError) : String :=
  (if error.isWarning then "warning: " else "error: ") ++ error.message

open Data

def Span.ofData? (value : Value) : Option Span := do
  let field ← value.fields? false ["start", "end"]
  return {
    start := ← Value.required Value.toNat? (field "start")
    stop := ← Value.required Value.toNat? (field "end") }

def Span.toData (span : Span) : Value :=
  .table [("start", .int span.start), ("end", .int span.stop)]

/-- A severity is its name, or a table that has the name as its only key and holds nothing. -/
def Severity.ofData? : Value → Option Severity
  | .str name | .table [(name, .null)] => Severity.ofText? name
  | _ => none

/-- The span may be missing in a table but not in a list. -/
def Diagnostic.ofData? (value : Value) : Option Diagnostic := do
  let keys := ["severity", "code", "message", "span"]
  guard (value.listsAtLeast keys.length)
  let field ← value.fields? false keys
  return {
    severity := ← Value.required Severity.ofData? (field "severity")
    code := ← Value.required Value.toStr? (field "code")
    message := ← Value.required Value.toStr? (field "message")
    span := ← Value.nullable Span.ofData? (field "span") }

def ValidationError.ofData? (value : Value) : Option ValidationError := do
  let field ← value.fields? false ["message", "is_warning", "span"]
  return {
    message := ← Value.required Value.toStr? (field "message")
    isWarning := ← Value.required Value.toBool? (field "is_warning")
    span := ← Value.nullable Span.ofData? (field "span") }

/-- The span is written only where there is one. -/
def ValidationError.toData (error : ValidationError) : Value :=
  .table <| [("message", .str error.message), ("is_warning", .bool error.isWarning)] ++
    (error.span.map fun span => ("span", span.toData)).toList

end ExprVet
