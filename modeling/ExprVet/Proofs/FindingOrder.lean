import ExprVet.Proofs.NodeFindings

/-!
# The order of findings

The checker goes through the parts of a node from left to right and then tells what is wrong with
the node itself. The parts follow one another in the source, so what is found in them is told in
the order of the source. What is wrong with the node itself is in order just if nothing that was
found in the node before starts further right.
-/

namespace ExprVet

/-- Of the diagnostics with a place none starts in front of an earlier one. -/
def InSourceOrder (diagnostics : List Diagnostic) : Prop :=
  (diagnostics.filterMap (·.span)).Pairwise fun first second => first.start ≤ second.start

namespace Calc

variable {exports : Exports}

/-- A finding does not start behind another one. -/
def Located.StartsBy (first second : Located) : Prop :=
  ∀ span ∈ first.span, ∀ span' ∈ second.span, span.start ≤ span'.start

instance (first second : Located) : Decidable (first.StartsBy second) :=
  inferInstanceAs (Decidable (∀ span ∈ first.span, ∀ span' ∈ second.span, span.start ≤ span'.start))

/-- What is found to be wrong with a node, and what was found in the node before. -/
structure Remark where
  earlier : List Located
  found : List Located

def Remark.InOrder (remark : Remark) : Prop :=
  ∀ first ∈ remark.earlier, ∀ second ∈ remark.found, first.StartsBy second

instance (remark : Remark) : Decidable remark.InOrder :=
  inferInstanceAs (Decidable (∀ first ∈ remark.earlier, ∀ second ∈ remark.found,
    first.StartsBy second))

/-- What is remarked on a node that was given types for its parts. -/
def Expr.remarks (exports : Exports) (declared : Variables) : Expr → List Remark
  | literal _ _ | ident _ _ => []
  | unary op operand span =>
      let (type, inOperand) := infer exports declared operand
      [⟨inOperand, (checkUnary op type span).2⟩]
  | binary op left right span =>
      let (leftType, inLeft) := infer exports declared left
      let (rightType, inRight) := infer exports declared right
      let division :=
        if op.divides && right.isZeroLiteral then [Finding.zeroDivision.at right.span] else []
      [⟨inLeft ++ inRight ++ division, (checkBinary op leftType rightType span).2⟩]
  | conditional condition thenBranch elseBranch span =>
      let (conditionType, inCondition) := infer exports declared condition
      let (thenType, inThen) := infer exports declared thenBranch
      let (elseType, inElse) := infer exports declared elseBranch
      let condition := checkCondition conditionType condition.span
      [⟨inCondition, condition⟩,
        ⟨inCondition ++ condition ++ inThen ++ inElse,
          (checkBranches exports thenType elseType span).2⟩]
  | call callee calleeSpan args span =>
      let (types, inArgs) := inferAll exports declared args
      [⟨inArgs, (checkCall exports callee calleeSpan types span).2⟩]

/-- All remarks on the nodes of some expressions are in order. -/
def RemarksInOrder (exports : Exports) (declared : Variables) (nodes : List Expr) : Prop :=
  ∀ node ∈ nodes, ∀ remark ∈ node.remarks exports declared, remark.InOrder

theorem remarksInOrder_append {declared : Variables} {xs ys : List Expr} :
    RemarksInOrder exports declared (xs ++ ys) ↔
      RemarksInOrder exports declared xs ∧ RemarksInOrder exports declared ys :=
  List.forall_mem_append

theorem remarksInOrder_singleton {declared : Variables} {e : Expr} :
    RemarksInOrder exports declared [e] ↔
      ∀ remark ∈ e.remarks exports declared, remark.InOrder :=
  List.forall_mem_singleton

/-- No finding starts in front of an earlier one. -/
def Sorted (found : List Located) : Prop := found.Pairwise Located.StartsBy

theorem sorted_append {xs ys : List Located} :
    Sorted (xs ++ ys) ↔ Sorted xs ∧ Sorted ys ∧ (⟨xs, ys⟩ : Remark).InOrder :=
  List.pairwise_append

theorem ExprAt.imp {P Q : Span → Prop} {found : List Located} (h : ExprAt P found)
    (himp : ∀ span, P span → Q span) : ExprAt Q found := by
  intro located hmem
  obtain ⟨⟨span, hspan, hP⟩, hexpr⟩ := h located hmem
  exact ⟨⟨span, hspan, himp span hP⟩, hexpr⟩

/-- What is found up to some place and what is found from there on. -/
theorem sorted_append_at {xs ys : List Located} (place : Nat)
    (hxs : ExprAt (fun span => span.start ≤ place) xs)
    (hys : ExprAt (fun span => place ≤ span.start) ys) :
    Sorted (xs ++ ys) ↔ Sorted xs ∧ Sorted ys := by
  have hbetween : (⟨xs, ys⟩ : Remark).InOrder := by
    intro first hfirst second hsecond span hspan span' hspan'
    obtain ⟨⟨_, hplace, hle⟩, -⟩ := hxs first hfirst
    obtain ⟨⟨_, hplace', hge⟩, -⟩ := hys second hsecond
    cases hplace.symm.trans hspan
    cases hplace'.symm.trans hspan'
    exact hle.trans hge
  rw [sorted_append, and_iff_left hbetween]

@[simp] theorem sorted_nil : Sorted [] := List.Pairwise.nil

@[simp] theorem sorted_singleton (located : Located) : Sorted [located] :=
  List.pairwise_singleton _ _

/-- What is found at one place is in order. -/
theorem OperationsAt.sorted {place : Span} {found : List Located}
    (h : OperationsAt (Eq place) found) : Sorted found := by
  apply List.pairwise_of_forall_mem_list
  intro first hfirst second hsecond span hspan span' hspan'
  obtain ⟨⟨_, hplace, rfl⟩, -⟩ := h first hfirst
  obtain ⟨⟨_, hplace', rfl⟩, -⟩ := h second hsecond
  cases hplace.symm.trans hspan
  cases hplace'.symm.trans hspan'
  exact le_rfl

/-- Both arguments of a function on two numbers can be wrong, and then the first is told first. -/
theorem sorted_apply (builtin : Builtin) {args : List (ValueType × Span)}
    (h : (args.map Prod.snd).Pairwise fun first second => first.start ≤ second.start) :
    Sorted (builtin.apply exports args).2 := by
  have hpair {left right : ValueType} {first second : Span} (callee : String)
      (hle : first.start ≤ second.start) :
      Sorted (checkNumeric callee 1 left first ++ checkNumeric callee 2 right second) := by
    refine (sorted_append_at second.start ?_ ?_).mpr
      ⟨(operationsAt_checkNumeric _ _ _ rfl).sorted, (operationsAt_checkNumeric _ _ _ rfl).sorted⟩
    · exact (operationsAt_checkNumeric _ _ _ hle).inExpr
    · exact (operationsAt_checkNumeric _ _ _ (Nat.le_refl second.start)).inExpr
  unfold Builtin.apply
  split
  case h_6 | h_7 =>
    rw [List.map_cons, List.map_singleton, List.pairwise_pair] at h
    split
    · exact sorted_nil
    · split
      · exact sorted_nil
      · exact hpair _ h
  case h_5 =>
    split
    · exact sorted_nil
    · exact (operationsAt_checkNumeric _ _ _ rfl).sorted
  case h_4 | h_8 => exact sorted_nil
  all_goals exact (operationsAt_checkArgument _ _ _ _ rfl).sorted

theorem sorted_checkCall (callee : String) (calleeSpan : Span) {args : List (ValueType × Span)}
    (h : (args.map Prod.snd).Pairwise fun first second => first.start ≤ second.start)
    (span : Span) : Sorted (checkCall exports callee calleeSpan args span).2 := by
  unfold checkCall
  split
  · exact sorted_singleton _
  · split
    · exact sorted_apply _ h
    · exact sorted_singleton _

section Expressions

variable {source : String} {body outer : Span}

mutual

/-- What encloses a node encloses everything in it. -/
theorem encloses_spans : ∀ e : Expr, (∀ node ∈ e.nodes, node.Nested) → outer.Encloses e.span →
    ∀ span ∈ e.spans, outer.Encloses span
  | .literal _ span, _, hspan | .ident _ span, _, hspan => by
      rw [Expr.spans, List.forall_mem_singleton]
      exact hspan
  | .unary op operand span, h, hspan => by
      have hparts := (h _ (Expr.mem_nodes_self _)).encloses
      rw [Expr.nodes, List.forall_mem_append] at h
      rw [Expr.parts, List.forall_mem_singleton] at hparts
      rw [Expr.spans, List.forall_mem_cons]
      exact ⟨hspan, encloses_spans operand h.1 (hspan.trans hparts)⟩
  | .binary op left right span, h, hspan => by
      have hparts := (h _ (Expr.mem_nodes_self _)).encloses
      rw [Expr.nodes, List.forall_mem_append, List.forall_mem_append] at h
      rw [Expr.parts, List.forall_mem_cons, List.forall_mem_singleton] at hparts
      obtain ⟨⟨hleft, hright⟩, -⟩ := h
      rw [Expr.spans, List.forall_mem_cons, List.forall_mem_append]
      exact ⟨hspan, encloses_spans left hleft (hspan.trans hparts.1),
        encloses_spans right hright (hspan.trans hparts.2)⟩
  | .conditional condition thenBranch elseBranch span, h, hspan => by
      have hparts := (h _ (Expr.mem_nodes_self _)).encloses
      rw [Expr.nodes, List.forall_mem_append, List.forall_mem_append, List.forall_mem_append] at h
      rw [Expr.parts, List.forall_mem_cons, List.forall_mem_cons, List.forall_mem_singleton]
        at hparts
      obtain ⟨⟨⟨hcondition, hthen⟩, helse⟩, -⟩ := h
      rw [Expr.spans, List.forall_mem_cons, List.forall_mem_append, List.forall_mem_append]
      exact ⟨hspan, encloses_spans condition hcondition (hspan.trans hparts.1),
        encloses_spans thenBranch hthen (hspan.trans hparts.2.1),
        encloses_spans elseBranch helse (hspan.trans hparts.2.2)⟩
  | .call callee calleeSpan args span, h, hspan => by
      have hparts := (h _ (Expr.mem_nodes_self _)).encloses
      rw [Expr.nodes, List.forall_mem_append] at h
      rw [Expr.parts, List.forall_mem_cons, List.forall_mem_map] at hparts
      rw [Expr.spans, List.forall_mem_cons, List.forall_mem_cons]
      exact ⟨hspan, hspan.trans hparts.1, encloses_allSpans args h.1 fun arg hmem =>
        hspan.trans (hparts.2 arg hmem)⟩

theorem encloses_allSpans : ∀ args : List Expr, (∀ node ∈ Expr.allNodes args, node.Nested) →
    (∀ arg ∈ args, outer.Encloses arg.span) → ∀ span ∈ Expr.allSpans args, outer.Encloses span
  | [], _, _ => List.forall_mem_nil _
  | arg :: args, h, hargs => by
      rw [Expr.allNodes, List.forall_mem_append] at h
      rw [List.forall_mem_cons] at hargs
      rw [Expr.allSpans, List.forall_mem_append]
      exact ⟨encloses_spans arg h.1 hargs.1, encloses_allSpans args h.2 hargs.2⟩

end

theorem Expr.WellPlaced.encloses_self {e : Expr} (h : e.WellPlaced source body) :
    e.span.Encloses e.span :=
  ⟨le_rfl, h.inBody.start_lt_stop, le_rfl⟩

/-- What is found in an expression lies in its place. -/
theorem exprAt_infer_span (declared : Variables) {e : Expr}
    (h : ∀ node ∈ e.nodes, node.WellPlaced source body) :
    ExprAt e.span.Encloses (infer exports declared e).2 := by
  apply exprAt_infer declared e
  apply encloses_spans e fun node hnode => (h node hnode).toNested
  exact (h e e.mem_nodes_self).encloses_self

theorem ExprAt.startsUpTo {found : List Located} {first last : Span}
    (h : ExprAt first.Encloses found) (hbefore : first.Before last) :
    ExprAt (fun span => span.start ≤ last.start) found :=
  h.imp fun _ hinside => (hinside.start_lt_stop.le.trans hinside.stop_le).trans hbefore

theorem ExprAt.startsFrom {found : List Located} {last : Span} (h : ExprAt last.Encloses found) :
    ExprAt (fun span => last.start ≤ span.start) found :=
  h.imp fun _ hinside => hinside.start_le

theorem infer_of_isZeroLiteral (declared : Variables) {e : Expr} (h : e.isZeroLiteral = true) :
    (infer exports declared e).2 = [] := by
  cases e with
  | literal value span => cases value <;> rfl
  | _ => cases h

/-- A division by a literal zero is told in order, since nothing is found in the zero. -/
theorem sorted_division (declared : Variables) (op : BinaryOp) {left right : Expr}
    (hleft : ExprAt left.span.Encloses (infer exports declared left).2)
    (hright : ExprAt right.span.Encloses (infer exports declared right).2)
    (hself : right.span.Encloses right.span) (hapart : left.span.Before right.span) :
    Sorted ((infer exports declared left).2 ++ (infer exports declared right).2 ++
      if op.divides && right.isZeroLiteral then [Finding.zeroDivision.at right.span] else []) ↔
    Sorted (infer exports declared left).2 ∧ Sorted (infer exports declared right).2 := by
  split
  · rename_i hzero
    have hdivision : ExprAt right.span.Encloses [Finding.zeroDivision.at right.span] :=
      (exprAt_at _ _).mpr ⟨hself, rfl⟩
    rw [infer_of_isZeroLiteral declared (Bool.and_eq_true_iff.mp hzero).2, List.append_nil,
      sorted_append_at right.span.start (hleft.startsUpTo hapart) hdivision.startsFrom]
    exact and_congr_right fun _ => iff_of_true (sorted_singleton _) sorted_nil
  · rw [List.append_nil, sorted_append_at right.span.start (hleft.startsUpTo hapart)
      hright.startsFrom]

mutual

/-- The findings of an expression are sorted just if all remarks on its nodes are in order. -/
theorem sorted_infer_iff (declared : Variables) : ∀ e : Expr,
    (∀ node ∈ e.nodes, node.WellPlaced source body) →
    (Sorted (infer exports declared e).2 ↔ RemarksInOrder exports declared e.nodes)
  | .literal value span, _ => by
      cases value <;> simp [infer, Expr.nodes, remarksInOrder_singleton, Expr.remarks]
  | .ident name span, _ => by
      cases hlookup : declared.lookup name <;>
        simp [infer, hlookup, Expr.nodes, remarksInOrder_singleton, Expr.remarks]
  | .unary op operand span, h => by
      rw [Expr.nodes, List.forall_mem_append] at h
      have hoperand := sorted_infer_iff declared operand h.1
      have hself := (operationsAt_checkUnary op (infer exports declared operand).1
        (Eq.refl span)).sorted
      simp only [infer, Expr.nodes]
      rw [sorted_append, hoperand, remarksInOrder_append, remarksInOrder_singleton, Expr.remarks,
        List.forall_mem_singleton, and_iff_right hself]
  | .binary op left right span, h => by
      have hapart := (h _ (Expr.mem_nodes_self _)).apart
      rw [Expr.parts, List.pairwise_pair] at hapart
      rw [Expr.nodes, List.forall_mem_append, List.forall_mem_append] at h
      obtain ⟨⟨hleft, hright⟩, -⟩ := h
      have hinLeft : ExprAt _ (infer exports declared left).2 := exprAt_infer_span declared hleft
      have hparts := sorted_division declared op hinLeft (exprAt_infer_span declared hright)
        (hright right right.mem_nodes_self).encloses_self hapart
      have hself := (operationsAt_checkBinary op (infer exports declared left).1
        (infer exports declared right).1 (Eq.refl span)).sorted
      simp only [infer, Expr.nodes]
      rw [sorted_append, hparts, sorted_infer_iff declared left hleft,
        sorted_infer_iff declared right hright, remarksInOrder_append, remarksInOrder_append,
        remarksInOrder_singleton, Expr.remarks, List.forall_mem_singleton, and_iff_right hself]
  | .conditional condition thenBranch elseBranch span, h => by
      have hapart := (h _ (Expr.mem_nodes_self _)).apart
      rw [Expr.parts, List.pairwise_cons, List.forall_mem_cons, List.forall_mem_singleton,
        List.pairwise_pair] at hapart
      obtain ⟨⟨hthenBehind, helseBehind⟩, hbranches⟩ := hapart
      rw [Expr.nodes, List.forall_mem_append, List.forall_mem_append, List.forall_mem_append] at h
      obtain ⟨⟨⟨hcondition, hthen⟩, helse⟩, -⟩ := h
      have hplace := (hcondition condition condition.mem_nodes_self).encloses_self
      have hinCondition : ExprAt condition.span.Encloses ((infer exports declared condition).2 ++
          checkCondition (infer exports declared condition).1 condition.span) :=
        exprAt_append.mpr ⟨exprAt_infer_span declared hcondition,
          (operationsAt_checkCondition _ hplace).inExpr⟩
      have hinThen : ExprAt _ (infer exports declared thenBranch).2 :=
        exprAt_infer_span declared hthen
      have hinElse : ExprAt _ (infer exports declared elseBranch).2 :=
        exprAt_infer_span declared helse
      have hbeforeElse := exprAt_append.mpr
        ⟨hinCondition.startsUpTo helseBehind, hinThen.startsUpTo hbranches⟩
      simp only [infer, Expr.nodes]
      rw [sorted_append, sorted_append_at _ hbeforeElse hinElse.startsFrom,
        sorted_append_at _ (hinCondition.startsUpTo hthenBehind) hinThen.startsFrom, sorted_append,
        sorted_infer_iff declared condition hcondition, sorted_infer_iff declared thenBranch hthen,
        sorted_infer_iff declared elseBranch helse, remarksInOrder_append, remarksInOrder_append,
        remarksInOrder_append, remarksInOrder_singleton, Expr.remarks, List.forall_mem_cons,
        List.forall_mem_singleton, and_iff_right (operationsAt_checkCondition _ rfl).sorted,
        and_iff_right (operationsAt_checkBranches _ _ rfl).sorted]
      tauto
  | .call callee calleeSpan args span, h => by
      have hwhole := h _ (Expr.mem_nodes_self _)
      have hapart := hwhole.apart
      rw [Expr.parts, List.pairwise_cons] at hapart
      rw [Expr.nodes, List.forall_mem_append] at h
      have hstarts : ((inferAll exports declared args).1.map Prod.snd).Pairwise
          fun first second => first.start ≤ second.start := by
        rw [map_snd_inferAll]
        refine hapart.2.imp_of_mem fun hfirst _ hbefore => ?_
        have hnonempty := (hwhole.encloses _ (List.mem_cons_of_mem _ hfirst)).start_lt_stop
        exact hnonempty.le.trans hbefore
      simp only [infer, Expr.nodes]
      rw [sorted_append, sorted_inferAll_iff declared args h.1 hapart.2, remarksInOrder_append,
        remarksInOrder_singleton, Expr.remarks, List.forall_mem_singleton,
        and_iff_right (sorted_checkCall callee calleeSpan hstarts span)]

theorem sorted_inferAll_iff (declared : Variables) : ∀ args : List Expr,
    (∀ node ∈ Expr.allNodes args, node.WellPlaced source body) →
    (args.map Expr.span).Pairwise Span.Before →
    (Sorted (inferAll exports declared args).2 ↔
      RemarksInOrder exports declared (Expr.allNodes args))
  | [], _, _ => iff_of_true sorted_nil (List.forall_mem_nil _)
  | arg :: args, h, hargs => by
      rw [Expr.allNodes, List.forall_mem_append] at h
      rw [List.map_cons, List.pairwise_cons, List.forall_mem_map] at hargs
      have hinArg : ExprAt arg.span.Encloses (infer exports declared arg).2 :=
        exprAt_infer_span declared h.1
      -- the rest of the body behind the first argument encloses the others
      have hbehind : ∀ other ∈ args,
          Span.Encloses ⟨arg.span.stop, body.stop⟩ other.span := by
        intro other hmem
        have hinside := (h.2 other (Expr.subset_allNodes args hmem)).inBody
        exact ⟨hargs.1 other hmem, hinside.start_lt_stop, hinside.stop_le⟩
      have hinArgs : ExprAt (fun span => arg.span.stop ≤ span.start)
          (inferAll exports declared args).2 :=
        (exprAt_inferAll declared args (encloses_allSpans args
          (fun node hnode => (h.2 node hnode).toNested) hbehind)).imp
            fun _ hinside => hinside.start_le
      simp only [inferAll, Expr.allNodes]
      rw [sorted_append_at arg.span.stop ?_ hinArgs, sorted_infer_iff declared arg h.1,
        sorted_inferAll_iff declared args h.2 hargs.2, remarksInOrder_append]
      exact hinArg.imp fun _ hinside => hinside.start_lt_stop.le.trans hinside.stop_le

end

end Expressions

/-- The codes of what is found in a body: `E1xx`, `E2xx`, `E300` and `W300`. -/
def isBodyCode (code : String) : Bool := isBodyErrorCode code || code == "W300"

/-- Findings about a body, as against its syntax, its header or its surroundings. That a body is
constant is no fault of it. -/
def Finding.isAboutBody : Finding → Bool
  | syntaxError _ | unknownType _ | missingNamespace _ | constant => false
  | _ => true

theorem Finding.isBodyCode_code (finding : Finding) :
    isBodyCode finding.code = finding.isAboutBody := by
  rw [isBodyCode, isBodyErrorCode_code]
  cases finding <;> rfl

/-- The findings about a body, in order. -/
def inBodyOf (found : List Located) : List Located := found.filter (·.finding.isAboutBody)

theorem inBodyOf_append (xs ys : List Located) :
    inBodyOf (xs ++ ys) = inBodyOf xs ++ inBodyOf ys :=
  List.filter_append xs ys

theorem ExprAt.inBodyOf_eq {P : Span → Prop} {found : List Located} (h : ExprAt P found) :
    inBodyOf found = found := by
  apply List.filter_eq_self.mpr
  intro located hmem
  obtain ⟨-, hexpr⟩ := h located hmem
  cases hfinding : located.finding <;> rw [hfinding] at hexpr <;> first | rfl | cases hexpr

namespace Lambda

/-- What is remarked on the type of a body. -/
def resultRemark (exports : Exports) (lambda : Lambda) : Remark :=
  let (type, found) := infer exports (declare exports [] lambda.params).1 lambda.body
  let ret := (resolveType exports lambda.ret).1
  ⟨found, if exports.assignable type ret then []
    else [(Finding.resultType type ret).at lambda.body.span]⟩

/-- What is remarked on the nodes of a body and on its type. -/
def remarks (exports : Exports) (lambda : Lambda) : List Remark :=
  lambda.body.nodes.flatMap (Expr.remarks exports (declare exports [] lambda.params).1) ++
    [lambda.resultRemark exports]

theorem forall_remarks_iff {lambda : Lambda} :
    (∀ remark ∈ lambda.remarks exports, remark.InOrder) ↔
      RemarksInOrder exports (declare exports [] lambda.params).1 lambda.body.nodes ∧
      (lambda.resultRemark exports).InOrder := by
  rw [remarks, List.forall_mem_append, List.forall_mem_singleton, List.forall_mem_flatMap]
  rfl

/-- Everything that is found in a body. -/
def bodyFindings (exports : Exports) (lambda : Lambda) : List Located :=
  (lambda.resultRemark exports).earlier ++ (lambda.resultRemark exports).found

theorem inBodyOf_checkBody (lambda : Lambda) :
    inBodyOf (checkBody exports (declare exports [] lambda.params).1
      (resolveType exports lambda.ret).1 lambda.body) = lambda.bodyFindings exports := by
  have hexpr (declared : Variables) (e : Expr) :
      inBodyOf (infer exports declared e).2 = (infer exports declared e).2 :=
    (exprAt_infer (P := fun _ => True) declared e fun _ _ => trivial).inBodyOf_eq
  have hresult (type ret : ValueType) : inBodyOf (if exports.assignable type ret then []
      else [(Finding.resultType type ret).at lambda.body.span]) =
        if exports.assignable type ret then []
        else [(Finding.resultType type ret).at lambda.body.span] := by
    split <;> rfl
  have hnote (silent : Bool) :
      inBodyOf (if silent then [] else [Finding.constant.at lambda.body.span]) = [] := by
    cases silent <;> rfl
  simp only [checkBody]
  rw [inBodyOf_append, inBodyOf_append, hexpr, hresult, hnote, List.append_nil]
  rfl

end Lambda

/-- The diagnostics of a body are what is found in it, placed in the body. -/
theorem filter_check_body {tree : Tree} {lambda : Lambda} {body : Span}
    (hlambda : tree.lambda = some lambda) (hbody : tree.body = some body)
    (modules : List ModuleInfo) (imports : List String)
    (hinside : ∀ located ∈ lambda.bodyFindings (.ofModules modules), located.At body.Encloses) :
    (check tree modules imports).filter (isBodyCode ·.code) =
      (lambda.bodyFindings (.ofModules modules)).map (Located.inBody body) := by
  rw [filter_check Finding.isBodyCode_code,
    filter_findings (fun _ => rfl) (fun _ => rfl) (fun _ => rfl) hlambda, ← inBodyOf,
    Lambda.inBodyOf_checkBody]
  exact List.map_congr_left fun located hmem =>
    Located.toDiagnostic_eq_inBody hbody (hinside located hmem)

theorem isSome_span_map_inBody {found : List Located} {body : Span}
    (hinside : ∀ located ∈ found, located.At body.Encloses) :
    ∀ d ∈ found.map (Located.inBody body), d.span.isSome = true := by
  rw [List.forall_mem_map]
  intro located hmem
  obtain ⟨span, hspan, -⟩ := hinside located hmem
  rw [Located.inBody, hspan]
  rfl

/-- Placing findings in the body that they are about keeps their order. -/
theorem inSourceOrder_map_inBody_iff {found : List Located} {body : Span}
    (hinside : ∀ located ∈ found, located.At body.Encloses) :
    InSourceOrder (found.map (Located.inBody body)) ↔ Sorted found := by
  rw [InSourceOrder, List.pairwise_filterMap, List.pairwise_map]
  apply List.Pairwise.iff_of_mem
  intro first second hfirst hsecond
  obtain ⟨span, hspan, hin⟩ := hinside first hfirst
  obtain ⟨span', hspan', hin'⟩ := hinside second hsecond
  have hstart := hin.start_le
  have hstart' := hin'.start_le
  simp only [Located.inBody, Located.StartsBy, hspan, hspan', Option.map_some, Option.some.injEq,
    Option.mem_def, forall_eq']
  omega

section

variable {source : String} {tree : Tree} {lambda : Lambda}

theorem at_of_mem_bodyFindings {body : Span}
    (hplaced : ∀ node ∈ lambda.body.nodes, node.WellPlaced source body) :
    ∀ located ∈ lambda.bodyFindings exports, located.At body.Encloses := by
  have hbody := (hplaced _ lambda.body.mem_nodes_self).inBody
  rw [Lambda.bodyFindings, List.forall_mem_append]
  constructor
  · intro located hmem
    exact ((exprAt_infer_span _ hplaced).imp (fun _ => hbody.trans) located hmem).1
  · simp only [Lambda.resultRemark]
    split
    · exact List.forall_mem_nil _
    · rw [List.forall_mem_singleton, Located.at_at_iff]
      exact hbody

theorem sorted_bodyFindings_iff {body : Span}
    (hplaced : ∀ node ∈ lambda.body.nodes, node.WellPlaced source body) :
    Sorted (lambda.bodyFindings exports) ↔ ∀ remark ∈ lambda.remarks exports, remark.InOrder := by
  have hresult : Sorted (lambda.resultRemark exports).found := by
    simp only [Lambda.resultRemark]
    split <;> simp
  have hbody : Sorted (lambda.resultRemark exports).earlier ↔
      RemarksInOrder exports _ lambda.body.nodes :=
    sorted_infer_iff _ lambda.body hplaced
  rw [Lambda.bodyFindings, sorted_append, and_iff_right hresult, hbody, Lambda.forall_remarks_iff]

/-- The diagnostics of a body have places. They are in the order of the source just if all remarks
are, those on its nodes and that on its type: nothing that was found in a node before it is found to
be wrong itself starts further right. -/
theorem inSourceOrder_iff_remarks (hwrapper : Tree.wrapper? source = some tree)
    (hlambda : tree.lambda = some lambda) (modules : List ModuleInfo) (imports : List String) :
    (∀ d ∈ (check tree modules imports).filter (isBodyCode ·.code), d.span.isSome = true) ∧
    (InSourceOrder ((check tree modules imports).filter (isBodyCode ·.code)) ↔
      ∀ remark ∈ lambda.remarks (.ofModules modules), remark.InOrder) := by
  obtain ⟨parts, -, -, hbody⟩ := exists_body_of_lambda hwrapper hlambda
  have hplaced : ∀ node ∈ lambda.body.nodes, node.WellPlaced source _ :=
    fun node h => wellPlaced_of_mem_nodes hwrapper hlambda h
  have hinside : ∀ located ∈ lambda.bodyFindings (.ofModules modules), located.At _ :=
    at_of_mem_bodyFindings hplaced
  rw [filter_check_body hlambda hbody modules imports hinside,
    inSourceOrder_map_inBody_iff hinside, sorted_bodyFindings_iff hplaced]
  exact ⟨isSome_span_map_inBody hinside, Iff.rfl⟩

end

/-- A body with mistakes in its condition and in both branches. -/
def brokenBranches : String :=
  "|x: Int| -> Int \x7bif x then y / 0 else (z == 1) + 1\x7d"

/-- What is wrong with the sum starts where the variable in its first operand does. -/
theorem brokenBranches_in_source_order :
    ∃ tree, Tree.wrapper? brokenBranches = some tree ∧
      (check tree [] []).map (fun d => (d.code, d.span)) =
        [("E201", some ⟨3, 4⟩), ("E100", some ⟨10, 11⟩), ("W300", some ⟨14, 15⟩),
          ("E100", some ⟨22, 23⟩), ("E200", some ⟨22, 33⟩)] ∧
      InSourceOrder ((check tree [] []).filter (isBodyCode ·.code)) := by
  have hremarks : ((Tree.wrapper? brokenBranches).bind (·.lambda)).map (fun lambda =>
      decide (∀ remark ∈ lambda.remarks (.ofModules []), remark.InOrder)) = some true := by
    decide +kernel
  have hfound : (Tree.wrapper? brokenBranches).map (fun tree =>
      (check tree [] []).map fun d => (d.code, d.span)) =
        some [("E201", some ⟨3, 4⟩), ("E100", some ⟨10, 11⟩), ("W300", some ⟨14, 15⟩),
          ("E100", some ⟨22, 23⟩), ("E200", some ⟨22, 33⟩)] := by
    decide +kernel
  obtain ⟨lambda, hlambda, hremarks⟩ := Option.map_eq_some_iff.mp hremarks
  obtain ⟨tree, hwrapper, hlambda⟩ := Option.bind_eq_some_iff.mp hlambda
  rw [hwrapper] at hfound
  exact ⟨tree, hwrapper, Option.some.inj hfound,
    (inSourceOrder_iff_remarks hwrapper hlambda [] []).2.mpr (of_decide_eq_true hremarks)⟩

/-- What is wrong with a sum is told behind what is wrong inside its first operand. -/
theorem lengthSum_not_in_source_order :
    ∃ tree lambda, Tree.wrapper? "|| -> Int \x7blen(1) + true\x7d" = some tree ∧
      tree.lambda = some lambda ∧
      (check tree [] []).map (fun d => (d.code, d.span)) =
        [("E200", some ⟨4, 5⟩), ("E200", some ⟨0, 13⟩)] ∧
      ¬ InSourceOrder ((check tree [] []).filter (isBodyCode ·.code)) := by
  have hlambda : ((Tree.wrapper? "|| -> Int \x7blen(1) + true\x7d").bind (·.lambda)).isSome := by
    decide +kernel
  have hfound : (Tree.wrapper? "|| -> Int \x7blen(1) + true\x7d").map (fun tree =>
      ((check tree [] []).map (fun d => (d.code, d.span)),
        ((check tree [] []).filter (isBodyCode ·.code)).filterMap (·.span))) =
        some ([("E200", some ⟨4, 5⟩), ("E200", some ⟨0, 13⟩)], [⟨4, 5⟩, ⟨0, 13⟩]) := by
    decide +kernel
  obtain ⟨lambda, hlambda⟩ := Option.isSome_iff_exists.mp hlambda
  obtain ⟨tree, hwrapper, hlambda⟩ := Option.bind_eq_some_iff.mp hlambda
  rw [hwrapper] at hfound
  obtain ⟨hfound, hspans⟩ := Prod.mk.inj (Option.some.inj hfound)
  refine ⟨tree, lambda, hwrapper, hlambda, hfound, ?_⟩
  rw [InSourceOrder, hspans]
  decide

end Calc

end ExprVet
