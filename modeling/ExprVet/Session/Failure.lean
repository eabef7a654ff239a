import ExprVet.Session.Entry
import ExprVet.Validation.Error

/-! # Failures of a session

What a user typed may be unusable, and a validation may fail. A failure is told as a chain of
messages, each explained by the one after it. -/

namespace ExprVet

/-- The messages about a failed validation, the cause last. -/
def ValidationFailure.chain (failure : ValidationFailure) : List String :=
  [failure.message, failure.cause.message]

inductive SessionFailure where
  | unreadable (error : EntryError)
  | missingNamespace
  | missingModule
  /-- The wrapper that was to be shown could not be checked. -/
  | compilation (failure : ValidationFailure)
  | validation (failure : ValidationFailure)
  deriving DecidableEq, Repr

namespace SessionFailure

/-- The messages about a failure, each explained by the next. -/
def chain : SessionFailure → List String
  | unreadable error => [error.message]
  | missingNamespace => ["usage: /import <namespace>"]
  | missingModule => ["usage: /module <id>"]
  | compilation failure => "compilation failed" :: failure.chain
  | validation failure => "validation failed" :: failure.chain

/-- The whole chain on one line. -/
def message (failure : SessionFailure) : String := ": ".intercalate failure.chain

end SessionFailure

end ExprVet
