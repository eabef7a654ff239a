import ExprVet.Proofs.CheckedLambda

/-!
# What is found about names

Two findings are about names alone. A type is unknown when no module exports its name, and only the
header of a lambda names types. A variable is undeclared when no parameter has its name, and then
every place where it occurs is reported, from left to right. Everything else that is found at a node
of the body is about operations and says nothing of either. Whatever is found is located by a place
of the type or the expression that it is about.
-/

namespace ExprVet.Calc

variable {exports : Exports}

/-- Findings about an operator, a function or a conditional and what it is applied to. -/
def Finding.isOperational : Finding → Bool
  | unknownFunction _ | argumentCount _ _ _ | unaryOperand _ _ | binaryOperands _ _ _
  | argumentType _ _ _ _ | argumentNotNumeric _ _ _ | conditionType _ | branchTypes _ _
  | zeroDivision => true
  | _ => false

def Finding.isUndeclared : Finding → Bool
  | undeclared _ => true
  | _ => false

theorem Finding.code_eq_unknownType_iff (finding : Finding) :
    finding.code = "E002" ↔ ∃ path, finding = .unknownType path := by
  cases finding <;> simp [code]

theorem Finding.code_beq_undeclared (finding : Finding) :
    (finding.code == "E100") = finding.isUndeclared := by
  cases finding <;> simp [code, isUndeclared]

/-- Findings about operations are all that is found, located by places of some kind. -/
def OperationsAt (P : Span → Prop) (found : List Located) : Prop :=
  ∀ located ∈ found, located.At P ∧ located.finding.isOperational = true

section Operations

variable {P : Span → Prop}

@[simp] theorem operationsAt_nil : OperationsAt P [] := by
  simp [OperationsAt]

@[simp] theorem operationsAt_at (finding : Finding) (span : Span) :
    OperationsAt P [finding.at span] ↔ P span ∧ finding.isOperational = true := by
  simp [OperationsAt]

theorem operationsAt_append {xs ys : List Located} (hx : OperationsAt P xs)
    (hy : OperationsAt P ys) : OperationsAt P (xs ++ ys) :=
  List.forall_mem_append.mpr ⟨hx, hy⟩

theorem operationsAt_unless {condition : Prop} [Decidable condition] {finding : Finding}
    {span : Span} (h : P span) (hoperational : finding.isOperational = true) :
    OperationsAt P (if condition then [] else [finding.at span]) := by
  split
  · exact operationsAt_nil
  · exact (operationsAt_at finding span).mpr ⟨h, hoperational⟩

theorem operationsAt_checkUnary (op : UnaryOp) (operand : ValueType) {span : Span} (h : P span) :
    OperationsAt P (checkUnary op operand span).2 := by
  unfold checkUnary
  split
  case h_5 => exact (operationsAt_at ..).mpr ⟨h, rfl⟩
  all_goals exact operationsAt_nil

theorem operationsAt_checkBinary (op : BinaryOp) (left right : ValueType) {span : Span}
    (h : P span) : OperationsAt P (checkBinary op left right span).2 := by
  unfold checkBinary
  split
  · exact operationsAt_nil
  · split
    · exact operationsAt_nil
    · exact (operationsAt_at ..).mpr ⟨h, rfl⟩

theorem operationsAt_checkBranches (first second : ValueType) {span : Span} (h : P span) :
    OperationsAt P (checkBranches exports first second span).2 := by
  unfold checkBranches
  split; · exact operationsAt_nil
  split; · exact operationsAt_nil
  split; · exact operationsAt_nil
  split; · exact operationsAt_nil
  split; · exact operationsAt_nil
  exact (operationsAt_at ..).mpr ⟨h, rfl⟩

theorem operationsAt_checkCondition (condition : ValueType) {span : Span} (h : P span) :
    OperationsAt P (checkCondition condition span) :=
  operationsAt_unless h rfl

theorem operationsAt_checkArgument (callee : String) (position : Nat) (expected found : ValueType)
    {span : Span} (h : P span) :
    OperationsAt P (checkArgument exports callee position expected found span) :=
  operationsAt_unless h rfl

theorem operationsAt_checkNumeric (callee : String) (position : Nat) (found : ValueType)
    {span : Span} (h : P span) : OperationsAt P (checkNumeric callee position found span) :=
  operationsAt_unless h rfl

theorem operationsAt_apply (builtin : Builtin) {args : List (ValueType × Span)}
    (h : ∀ arg ∈ args, P arg.2) : OperationsAt P (builtin.apply exports args).2 := by
  unfold Builtin.apply
  split
  · exact operationsAt_checkArgument _ _ _ _ (h _ List.mem_cons_self)
  · exact operationsAt_checkArgument _ _ _ _ (h _ List.mem_cons_self)
  · exact operationsAt_checkArgument _ _ _ _ (h _ List.mem_cons_self)
  · exact operationsAt_nil
  · split
    · exact operationsAt_nil
    · exact operationsAt_checkNumeric _ _ _ (h _ List.mem_cons_self)
  case h_8 => exact operationsAt_nil
  -- the smaller and the larger of two numbers
  all_goals
    have hfirst := h _ List.mem_cons_self
    have hsecond := h _ (List.mem_cons_of_mem _ List.mem_cons_self)
    split
    · exact operationsAt_nil
    · split
      · exact operationsAt_nil
      · exact operationsAt_append (operationsAt_checkNumeric _ _ _ hfirst)
          (operationsAt_checkNumeric _ _ _ hsecond)

theorem operationsAt_checkCall (callee : String) {calleeSpan span : Span}
    {args : List (ValueType × Span)} (hcallee : P calleeSpan) (hargs : ∀ arg ∈ args, P arg.2)
    (h : P span) : OperationsAt P (checkCall exports callee calleeSpan args span).2 := by
  unfold checkCall
  split
  · exact (operationsAt_at ..).mpr ⟨hcallee, rfl⟩
  · split
    · exact operationsAt_apply _ hargs
    · exact (operationsAt_at ..).mpr ⟨h, rfl⟩

theorem operationsAt_division (op : BinaryOp) {right : Expr} (h : P right.span) :
    OperationsAt P (if op.divides && right.isZeroLiteral then
      [Finding.zeroDivision.at right.span] else []) := by
  split
  · exact (operationsAt_at ..).mpr ⟨h, rfl⟩
  · exact operationsAt_nil

end Operations

/-- The types of a header are all that is found in it. -/
theorem OnlyUnknownTypes.filter_eq_nil {p : Finding → Bool}
    (hp : ∀ path, p (.unknownType path) = false) {found : List Located}
    (h : OnlyUnknownTypes exports found) : found.filter (p ·.finding) = [] := by
  apply List.filter_eq_nil_iff.mpr
  intro located hmem
  obtain ⟨path, hpath, -⟩ := h located hmem
  simp [hpath, hp]

/-- What is found in a tree and is neither about its syntax nor about what stands around its body is
found in the body. -/
theorem filter_findings {p : Finding → Bool} (hsource : ∀ message, p (.syntaxError message) = false)
    (hunknown : ∀ path, p (.unknownType path) = false)
    (hmissing : ∀ name, p (.missingNamespace name) = false) {tree : Tree} {lambda : Lambda}
    (h : tree.lambda = some lambda) (modules : List ModuleInfo) (imports : List String) :
    (findings tree modules imports).filter (p ·.finding) =
      (checkBody (.ofModules modules) (declare (.ofModules modules) [] lambda.params).1
        (resolveType (.ofModules modules) lambda.ret).1 lambda.body).filter (p ·.finding) := by
  have herrors : (tree.syntaxErrors.map fun error =>
      (Finding.syntaxError error.message).at error.span).filter (p ·.finding) = [] := by
    simp [Finding.at, hsource]
  have himports (missing : List String) : (missing.map fun name =>
      (⟨.missingNamespace name, none⟩ : Located)).filter (p ·.finding) = [] := by
    simp [hmissing]
  have hlambda (exports : Exports) :
      ((tree.lambda.map (checkLambda exports)).getD []) = checkLambda exports lambda := by
    rw [h]
    rfl
  rw [findings, hlambda, List.filter_append, List.filter_append, herrors, himports]
  simp only [checkLambda]
  rw [List.filter_append, List.filter_append,
    (onlyUnknownTypes_declare [] lambda.params).filter_eq_nil hunknown,
    (onlyUnknownTypes_resolveType lambda.ret).filter_eq_nil hunknown]
  rfl

/-- Where the code of a diagnostic tells the kind of its finding. -/
theorem filter_check {q : String → Bool} {p : Finding → Bool}
    (hcode : ∀ finding : Finding, q finding.code = p finding) (tree : Tree)
    (modules : List ModuleInfo) (imports : List String) :
    (check tree modules imports).filter (q ·.code) =
      ((findings tree modules imports).filter (p ·.finding)).map (Located.toDiagnostic tree) := by
  rw [check, List.filter_map]
  congr 2
  funext located
  exact hcode located.finding

/-- The findings about undeclared variables, in order. -/
def undeclaredIn (found : List Located) : List Located :=
  found.filter (·.finding.isUndeclared)

theorem undeclaredIn_append (xs ys : List Located) :
    undeclaredIn (xs ++ ys) = undeclaredIn xs ++ undeclaredIn ys :=
  List.filter_append xs ys

/-- Operations say nothing of undeclared variables, wherever they are. -/
theorem OperationsAt.undeclaredIn_eq_nil {found : List Located}
    (h : OperationsAt (fun _ => True) found) : undeclaredIn found = [] := by
  apply List.filter_eq_nil_iff.mpr
  intro located hmem
  obtain ⟨-, hoperational⟩ := h located hmem
  cases hfinding : located.finding <;> simp_all [Finding.isUndeclared, Finding.isOperational]

/-- A variable with the place where it occurs. -/
abbrev Occurrence := String × Span

mutual

/-- The variables of an expression, from left to right. -/
def Expr.occurrences : Expr → List Occurrence
  | .literal _ _ => []
  | .ident name span => [(name, span)]
  | .unary _ operand _ => operand.occurrences
  | .binary _ left right _ => left.occurrences ++ right.occurrences
  | .conditional condition thenBranch elseBranch _ =>
      condition.occurrences ++ thenBranch.occurrences ++ elseBranch.occurrences
  | .call _ _ args _ => Expr.allOccurrences args

def Expr.allOccurrences : List Expr → List Occurrence
  | [] => []
  | arg :: args => arg.occurrences ++ Expr.allOccurrences args

end

/-- The occurrences of undeclared variables as they are reported. -/
def reported (declared : Variables) (occurrences : List Occurrence) : List Located :=
  (occurrences.filter fun occurrence => (declared.lookup occurrence.1).isNone).map
    fun occurrence => (Finding.undeclared occurrence.1).at occurrence.2

theorem reported_append (declared : Variables) (xs ys : List Occurrence) :
    reported declared (xs ++ ys) = reported declared xs ++ reported declared ys := by
  simp [reported]

mutual

/-- Of an expression exactly the undeclared occurrences are reported, in order. -/
theorem undeclaredIn_infer (declared : Variables) : ∀ e : Expr,
    undeclaredIn (infer exports declared e).2 = reported declared e.occurrences
  | .literal value span => by
      cases value <;> rfl
  | .ident name span => by
      cases hlookup : declared.lookup name with
      | none => simp [infer, hlookup, reported, Expr.occurrences, undeclaredIn, Finding.at,
          Finding.isUndeclared]
      | some type => simp [infer, hlookup, reported, Expr.occurrences, undeclaredIn]
  | .unary op operand span => by
      simp only [infer, Expr.occurrences]
      rw [undeclaredIn_append, (operationsAt_checkUnary op _ trivial).undeclaredIn_eq_nil,
        List.append_nil]
      exact undeclaredIn_infer declared operand
  | .binary op left right span => by
      simp only [infer, Expr.occurrences]
      rw [undeclaredIn_append, undeclaredIn_append, undeclaredIn_append,
        (operationsAt_checkBinary op _ _ trivial).undeclaredIn_eq_nil,
        (operationsAt_division op trivial).undeclaredIn_eq_nil, List.append_nil, List.append_nil,
        reported_append, undeclaredIn_infer declared left, undeclaredIn_infer declared right]
  | .conditional condition thenBranch elseBranch span => by
      simp only [infer, Expr.occurrences]
      rw [undeclaredIn_append, undeclaredIn_append, undeclaredIn_append, undeclaredIn_append,
        (operationsAt_checkBranches _ _ trivial).undeclaredIn_eq_nil,
        (operationsAt_checkCondition _ trivial).undeclaredIn_eq_nil, List.append_nil, List.append_nil,
        reported_append, reported_append, undeclaredIn_infer declared condition,
        undeclaredIn_infer declared thenBranch, undeclaredIn_infer declared elseBranch]
  | .call callee calleeSpan args span => by
      simp only [infer, Expr.occurrences]
      rw [undeclaredIn_append,
        (operationsAt_checkCall callee trivial (fun _ _ => trivial) trivial).undeclaredIn_eq_nil,
        List.append_nil]
      exact undeclaredIn_inferAll declared args

theorem undeclaredIn_inferAll (declared : Variables) : ∀ args : List Expr,
    undeclaredIn (inferAll exports declared args).2 = reported declared (Expr.allOccurrences args)
  | [] => rfl
  | arg :: args => by
      simp only [inferAll, Expr.allOccurrences]
      rw [undeclaredIn_append, reported_append, undeclaredIn_infer declared arg,
        undeclaredIn_inferAll declared args]

end

theorem undeclaredIn_checkBody (declared : Variables) (ret : ValueType) (body : Expr) :
    undeclaredIn (checkBody exports declared ret body) = reported declared body.occurrences := by
  have hresult (type : ValueType) : undeclaredIn (if exports.assignable type ret then []
      else [(Finding.resultType type ret).at body.span]) = [] := by
    split <;> rfl
  have hnote (silent : Bool) :
      undeclaredIn (if silent then [] else [Finding.constant.at body.span]) = [] := by
    cases silent <;> rfl
  simp only [checkBody]
  rw [undeclaredIn_append, undeclaredIn_append, hresult, hnote, List.append_nil, List.append_nil,
    undeclaredIn_infer]

theorem lookup_declare_isNone (params : List Param) (name : String) :
    ((declare exports [] params).1.lookup name).isNone = decide (name ∉ params.map (·.name)) := by
  rw [lookup_declare, List.lookup_nil, Option.or_none, Option.isNone_map, Bool.eq_iff_iff,
    Option.isNone_iff_eq_none, List.find?_eq_none, decide_eq_true_iff]
  simp

/-- The diagnostic of an undeclared occurrence. -/
def undeclaredDiagnostic (tree : Tree) (occurrence : Occurrence) : Diagnostic :=
  ⟨.error, "E100", (Finding.undeclared occurrence.1).message, tree.snippetSpan occurrence.2⟩

/-- The undeclared variables that are reported of a tree are the occurrences in its body that no
parameter declares. -/
theorem filter_undeclared_check {tree : Tree} {lambda : Lambda} (h : tree.lambda = some lambda)
    (modules : List ModuleInfo) (imports : List String) :
    (check tree modules imports).filter (·.code == "E100") =
      (lambda.body.occurrences.filter fun o => o.1 ∉ lambda.params.map (·.name)).map
        (undeclaredDiagnostic tree) := by
  rw [filter_check (q := (· == "E100")) Finding.code_beq_undeclared,
    filter_findings (fun _ => rfl) (fun _ => rfl) (fun _ => rfl) h, ← undeclaredIn,
    undeclaredIn_checkBody, reported, List.map_map]
  simp only [lookup_declare_isNone]
  rfl

/-- Findings about an expression: a variable that is not declared or an operation. -/
def Finding.isAboutExpr (finding : Finding) : Bool := finding.isUndeclared || finding.isOperational

/-- Nothing is found but what is about an expression, located by places of some kind. -/
def ExprAt (P : Span → Prop) (found : List Located) : Prop :=
  ∀ located ∈ found, located.At P ∧ located.finding.isAboutExpr = true

section Expressions

variable {P : Span → Prop}

@[simp] theorem exprAt_nil : ExprAt P [] := by
  simp [ExprAt]

@[simp] theorem exprAt_at (finding : Finding) (span : Span) :
    ExprAt P [finding.at span] ↔ P span ∧ finding.isAboutExpr = true := by
  simp [ExprAt]

@[simp] theorem exprAt_append {xs ys : List Located} :
    ExprAt P (xs ++ ys) ↔ ExprAt P xs ∧ ExprAt P ys :=
  List.forall_mem_append

theorem OperationsAt.inExpr {found : List Located} (h : OperationsAt P found) :
    ExprAt P found := by
  intro located hmem
  obtain ⟨hat, hoperational⟩ := h located hmem
  exact ⟨hat, by rw [Finding.isAboutExpr, hoperational, Bool.or_true]⟩

theorem forall_mem_inferAll (declared : Variables) {args : List Expr}
    (h : ∀ span ∈ Expr.allSpans args, P span) :
    ∀ arg ∈ (inferAll exports declared args).1, P arg.2 := by
  induction args with
  | nil =>
      intro arg hmem
      cases hmem
  | cons arg args ih =>
      rw [Expr.allSpans, List.forall_mem_append] at h
      simp only [inferAll, List.forall_mem_cons]
      exact ⟨h.1 _ arg.span_mem_spans, ih h.2⟩

mutual

/-- What is found in an expression is located by places in it. -/
theorem exprAt_infer (declared : Variables) : ∀ e : Expr, (∀ span ∈ e.spans, P span) →
    ExprAt P (infer exports declared e).2
  | .literal value span, _ => by
      cases value <;> exact exprAt_nil
  | .ident name span, h => by
      rw [Expr.spans, List.forall_mem_singleton] at h
      cases hlookup : declared.lookup name <;>
        simp [infer, hlookup, h, Finding.isAboutExpr, Finding.isUndeclared]
  | .unary op operand span, h => by
      rw [Expr.spans, List.forall_mem_cons] at h
      simp only [infer, exprAt_append]
      exact ⟨exprAt_infer declared operand h.2, (operationsAt_checkUnary op _ h.1).inExpr⟩
  | .binary op left right span, h => by
      simp only [Expr.spans, List.forall_mem_cons, List.forall_mem_append] at h
      obtain ⟨hspan, hleft, hright⟩ := h
      have hdivision := (operationsAt_division op (hright _ right.span_mem_spans)).inExpr
      simp only [infer, exprAt_append]
      exact ⟨⟨⟨exprAt_infer declared left hleft, exprAt_infer declared right hright⟩, hdivision⟩,
        (operationsAt_checkBinary op _ _ hspan).inExpr⟩
  | .conditional condition thenBranch elseBranch span, h => by
      simp only [Expr.spans, List.forall_mem_cons, List.forall_mem_append] at h
      obtain ⟨hspan, hcondition, hthen, helse⟩ := h
      have hbool := operationsAt_checkCondition (infer exports declared condition).1
        (hcondition _ condition.span_mem_spans)
      simp only [infer, exprAt_append]
      exact ⟨⟨⟨⟨exprAt_infer declared condition hcondition, hbool.inExpr⟩,
        exprAt_infer declared thenBranch hthen⟩, exprAt_infer declared elseBranch helse⟩,
        (operationsAt_checkBranches _ _ hspan).inExpr⟩
  | .call callee calleeSpan args span, h => by
      simp only [Expr.spans, List.forall_mem_cons] at h
      obtain ⟨hspan, hcallee, hargs⟩ := h
      have htypes : ∀ arg ∈ (inferAll exports declared args).1, P arg.2 :=
        forall_mem_inferAll declared hargs
      simp only [infer, exprAt_append]
      exact ⟨exprAt_inferAll declared args hargs,
        (operationsAt_checkCall callee hcallee htypes hspan).inExpr⟩

theorem exprAt_inferAll (declared : Variables) : ∀ args : List Expr,
    (∀ span ∈ Expr.allSpans args, P span) → ExprAt P (inferAll exports declared args).2
  | [], _ => exprAt_nil
  | arg :: args, h => by
      rw [Expr.allSpans, List.forall_mem_append] at h
      simp only [inferAll, exprAt_append]
      exact ⟨exprAt_infer declared arg h.1, exprAt_inferAll declared args h.2⟩

end

end Expressions

/-- Findings about what stands around a body: the types of the header and the imports. -/
def Finding.isAroundBody : Finding → Bool
  | unknownType _ | missingNamespace _ => true
  | _ => false

theorem Finding.isAroundBody_iff_code (finding : Finding) :
    finding.isAroundBody = true ↔ finding.code = "E002" ∨ finding.code = "W400" := by
  cases finding <;> simp [isAroundBody, code]

/-- Nothing is found but what is about a body, located by places of some kind. -/
def BodyAt (P : Span → Prop) (found : List Located) : Prop :=
  ∀ located ∈ found, located.At P ∧ located.finding.isAroundBody = false

section Bodies

variable {P : Span → Prop}

@[simp] theorem bodyAt_nil : BodyAt P [] := by
  simp [BodyAt]

@[simp] theorem bodyAt_at (finding : Finding) (span : Span) :
    BodyAt P [finding.at span] ↔ P span ∧ finding.isAroundBody = false := by
  simp [BodyAt]

@[simp] theorem bodyAt_append {xs ys : List Located} :
    BodyAt P (xs ++ ys) ↔ BodyAt P xs ∧ BodyAt P ys :=
  List.forall_mem_append

theorem bodyAt_ite {condition : Prop} [Decidable condition] {found : List Located}
    (h : BodyAt P found) : BodyAt P (if condition then [] else found) := by
  split
  · exact bodyAt_nil
  · exact h

theorem ExprAt.body {found : List Located} (h : ExprAt P found) : BodyAt P found := by
  intro located hmem
  obtain ⟨hat, hexpr⟩ := h located hmem
  refine ⟨hat, ?_⟩
  cases hfinding : located.finding <;>
    simp_all [Finding.isAroundBody, Finding.isAboutExpr, Finding.isUndeclared,
      Finding.isOperational]

theorem bodyAt_checkBody (declared : Variables) (ret : ValueType) {body : Expr}
    (h : ∀ span ∈ body.spans, P span) : BodyAt P (checkBody exports declared ret body) := by
  have hwhole {finding : Finding} (hfinding : finding.isAroundBody = false) :
      BodyAt P [finding.at body.span] :=
    (bodyAt_at finding _).mpr ⟨h _ body.span_mem_spans, hfinding⟩
  simp only [checkBody, bodyAt_append]
  exact ⟨⟨(exprAt_infer declared body h).body, bodyAt_ite (hwhole rfl)⟩, bodyAt_ite (hwhole rfl)⟩

/-- What is found in a lambda is an unknown type of its header or about its body. -/
theorem header_or_body_of_mem_checkLambda {inHeader : Span → Prop} {lambda : Lambda}
    (hparams : ∀ param ∈ lambda.params, ∀ span ∈ param.type.spans, inHeader span)
    (hret : ∀ span ∈ lambda.ret.spans, inHeader span) (hbody : ∀ span ∈ lambda.body.spans, P span)
    {located : Located} (h : located ∈ checkLambda exports lambda) :
    (located.At inHeader ∧
      ∃ path, located.finding = .unknownType path ∧ exports.lookup path = none) ∨
    (located.At P ∧ located.finding.isAroundBody = false) := by
  simp only [checkLambda] at h
  rcases List.mem_append.mp h with h | h
  · exact .inl (unknownTypesAt_append (unknownTypesAt_declare [] hparams)
      (unknownTypesAt_resolveType lambda.ret hret) located h)
  · exact .inr (bodyAt_checkBody _ _ hbody located h)

end Bodies

/-- A type is reported as unknown only when none of the modules exports its name. -/
theorem lookup_of_unknownType_mem_findings {tree : Tree} {modules : List ModuleInfo}
    {imports : List String} {located : Located} {path : String}
    (h : located ∈ findings tree modules imports) (hpath : located.finding = .unknownType path) :
    (Exports.ofModules modules).lookup path = none := by
  simp only [findings, List.append_assoc, List.mem_append, List.mem_map] at h
  rcases h with ⟨error, -, rfl⟩ | ⟨name, -, rfl⟩ | h
  · cases hpath
  · cases hpath
  · cases hlambda : tree.lambda with
    | none => simp [hlambda] at h
    | some lambda =>
        rw [hlambda] at h
        obtain ⟨-, found, hfound, hlookup⟩ | ⟨-, hbody⟩ := header_or_body_of_mem_checkLambda
          (fun _ _ _ _ => trivial) (fun _ _ => trivial) (fun _ _ => trivial) h
        · rw [hpath] at hfound
          cases hfound
          exact hlookup
        · rw [hpath] at hbody
          cases hbody

end ExprVet.Calc
