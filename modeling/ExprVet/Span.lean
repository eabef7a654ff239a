/-! # Spans

A span is a byte range of a UTF-8 text. Every finding of the library is located by one. -/

namespace ExprVet

/-- A byte range of a text; the end is not part of it. -/
structure Span where
  start : Nat
  stop : Nat
  deriving DecidableEq, Repr, Inhabited

namespace Span

def length (span : Span) : Nat := span.stop - span.start

def isEmpty (span : Span) : Bool := span.length == 0

/-- The span from the start of one span to the end of another. -/
def join (first last : Span) : Span := ⟨first.start, last.stop⟩

/-- The same range in a text that has `offset` more bytes in front. -/
def shift (offset : Nat) (span : Span) : Span := ⟨offset + span.start, offset + span.stop⟩

/-- The part of a span inside `body`, counted from the start of `body`;
nothing for a span that starts outside. -/
def within (span body : Span) : Option Span :=
  if span.start < body.start ∨ body.stop < span.start then none
  else some ⟨span.start - body.start, max span.start (min span.stop body.stop) - body.start⟩

@[simp] theorem isEmpty_iff (span : Span) : span.isEmpty = true ↔ span.stop ≤ span.start := by
  simp [isEmpty, length]
  omega

theorem within_eq_some_start {body span located : Span}
    (h : span.within body = some located) :
    body.start ≤ span.start ∧ located.start + body.start = span.start := by
  unfold within at h
  split at h
  · contradiction
  · obtain rfl := Option.some.inj h
    simp only [not_or, Nat.not_lt] at *
    omega

end Span

end ExprVet
