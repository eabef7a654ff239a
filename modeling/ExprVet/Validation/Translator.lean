import ExprVet.Diagnostic

/-! # From diagnostics to validation errors

Only warnings and errors reach the host. -/

namespace ExprVet

/-- How diagnostics become validation errors. -/
inductive Translator where
  /-- Messages without places. -/
  | plain
  /-- Messages with their places in the snippet. -/
  | located
  deriving DecidableEq, Repr

namespace Translator

def translateOne (translator : Translator) (d : Diagnostic) : Option ValidationError :=
  let span := match translator with
    | plain => none
    | located => d.span
  match d.severity with
  | .error => some ⟨d.rendered, false, span⟩
  | .warning => some ⟨d.rendered, true, span⟩
  | .info | .hidden => none

def translate (translator : Translator) (diagnostics : List Diagnostic) : List ValidationError :=
  diagnostics.filterMap translator.translateOne

/-- Information and hidden diagnostics alone do not reach the host. -/
theorem translateOne_isSome (translator : Translator) (d : Diagnostic) :
    (translator.translateOne d).isSome = d.severity.isReportable := by
  rcases d with ⟨severity, _, _, _⟩
  cases severity <;> rfl

end Translator

end ExprVet
