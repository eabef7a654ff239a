import ExprVet.Calc.Finding
import ExprVet.Calc.Expr

/-!
# Places in syntax trees

Every node of a syntax tree has the place that it was read from, and what is found is located by
such places. The places of a node and of everything in it are listed here, for types and for
expressions.
-/

namespace ExprVet.Calc

namespace TypeRef

mutual

/-- The places of a type and of its arguments. -/
def spans : TypeRef → List Span
  | ⟨_, args, span⟩ => span :: allSpans args

def allSpans : List TypeRef → List Span
  | [] => []
  | ref :: refs => ref.spans ++ allSpans refs

end

theorem mem_allSpans {span : Span} {refs : List TypeRef} (h : span ∈ allSpans refs) :
    ∃ ref ∈ refs, span ∈ ref.spans := by
  induction refs with
  | nil => cases h
  | cons ref refs ih =>
      rcases List.mem_append.mp h with h | h
      · exact ⟨ref, List.mem_cons_self, h⟩
      · obtain ⟨found, hmem, hspan⟩ := ih h
        exact ⟨found, List.mem_cons_of_mem _ hmem, hspan⟩

end TypeRef

namespace Expr

mutual

/-- The places of an expression and of everything in it. -/
def spans : Expr → List Span
  | literal _ span => [span]
  | ident _ span => [span]
  | unary _ operand span => span :: operand.spans
  | binary _ left right span => span :: (left.spans ++ right.spans)
  | conditional condition thenBranch elseBranch span =>
      span :: (condition.spans ++ (thenBranch.spans ++ elseBranch.spans))
  | call _ calleeSpan args span => span :: calleeSpan :: allSpans args

def allSpans : List Expr → List Span
  | [] => []
  | arg :: args => arg.spans ++ allSpans args

end

theorem span_mem_spans (e : Expr) : e.span ∈ e.spans := by
  cases e <;> exact List.mem_cons_self

end Expr

/-- The finding has a place, of which some property holds. -/
def Located.At (P : Span → Prop) (located : Located) : Prop :=
  ∃ span, located.span = some span ∧ P span

@[simp] theorem Finding.at_finding (finding : Finding) (span : Span) :
    (finding.at span).finding = finding := rfl

@[simp] theorem Located.at_at_iff {P : Span → Prop} (finding : Finding) (span : Span) :
    (finding.at span).At P ↔ P span := by
  simp [Located.At, Finding.at]

end ExprVet.Calc
