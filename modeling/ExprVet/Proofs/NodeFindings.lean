import ExprVet.Proofs.Nesting

/-!
# Findings at nodes

Four kinds of findings depend on the form of a node and not on types: an undeclared variable, an
unknown function, a wrong number of arguments and a division by zero. The checker stops at a node
with an operand of unknown type, but all operands have been checked by then. So each such node of a
body is reported once, whatever else is wrong.
-/

namespace ExprVet.Calc

variable {exports : Exports}

namespace Expr

/-- What is wrong with a variable that is not among the declared ones. -/
def undeclared? (names : List String) : Expr → Option Located
  | ident name span =>
      if name ∈ names then none else some ((Finding.undeclared name).at span)
  | _ => none

/-- What is wrong with a call of something that is no builtin function. -/
def unknownFunction? : Expr → Option Located
  | call callee calleeSpan _ _ =>
      if (Builtin.ofName? callee).isNone then some ((Finding.unknownFunction callee).at calleeSpan)
      else none
  | _ => none

/-- What is wrong with a call of a builtin function that takes more or fewer arguments. -/
def argumentCount? : Expr → Option Located
  | call callee _ args span => do
      let builtin ← Builtin.ofName? callee
      if args.length = builtin.arity then none
      else some ((Finding.argumentCount callee builtin.arity args.length).at span)
  | _ => none

/-- What is wrong with a division by a literal zero. -/
def zeroDivision? : Expr → Option Located
  | binary op _ right _ =>
      if op.divides && right.isZeroLiteral then some (Finding.zeroDivision.at right.span) else none
  | _ => none

/-- What is wrong with the form of a node. -/
def malformed? (names : List String) (e : Expr) : Option Located :=
  (e.undeclared? names).or (e.unknownFunction?.or (e.argumentCount?.or e.zeroDivision?))

theorem malformed?_ident (names : List String) (name : String) (span : Span) :
    (ident name span).malformed? names =
      if name ∈ names then none else some ((Finding.undeclared name).at span) :=
  Option.or_none

theorem malformed?_binary (names : List String) (op : BinaryOp) (left right : Expr) (span : Span) :
    (binary op left right span).malformed? names =
      if op.divides && right.isZeroLiteral then some (Finding.zeroDivision.at right.span)
      else none :=
  rfl

theorem malformed?_call (names : List String) (callee : String) (calleeSpan : Span)
    (args : List Expr) (span : Span) :
    (call callee calleeSpan args span).malformed? names =
      match Builtin.ofName? callee with
      | none => some ((Finding.unknownFunction callee).at calleeSpan)
      | some builtin =>
          if args.length = builtin.arity then none
          else some ((Finding.argumentCount callee builtin.arity args.length).at span) := by
  simp only [malformed?, undeclared?, unknownFunction?, argumentCount?, zeroDivision?]
  cases Builtin.ofName? callee with
  | none => rfl
  | some builtin => exact Option.or_none

end Expr

def Finding.isAboutForm : Finding → Bool
  | undeclared _ | unknownFunction _ | argumentCount _ _ _ | zeroDivision => true
  | _ => false

/-- The findings about the form of nodes, in order. -/
def formsIn (found : List Located) : List Located := found.filter (·.finding.isAboutForm)

@[simp] theorem formsIn_nil : formsIn [] = [] := rfl

@[simp] theorem formsIn_append (xs ys : List Located) :
    formsIn (xs ++ ys) = formsIn xs ++ formsIn ys :=
  List.filter_append xs ys

@[simp] theorem formsIn_checkUnary (op : UnaryOp) (operand : ValueType) (span : Span) :
    formsIn (checkUnary op operand span).2 = [] := by
  unfold checkUnary
  split <;> rfl

@[simp] theorem formsIn_checkBinary (op : BinaryOp) (left right : ValueType) (span : Span) :
    formsIn (checkBinary op left right span).2 = [] := by
  unfold checkBinary
  split
  · rfl
  · split <;> rfl

@[simp] theorem formsIn_checkBranches (thenType elseType : ValueType) (span : Span) :
    formsIn (checkBranches exports thenType elseType span).2 = [] := by
  unfold checkBranches
  repeat' split
  all_goals rfl

@[simp] theorem formsIn_checkCondition (condition : ValueType) (span : Span) :
    formsIn (checkCondition condition span) = [] := by
  unfold checkCondition
  split <;> rfl

@[simp] theorem formsIn_checkArgument (callee : String) (position : Nat)
    (expected found : ValueType) (span : Span) :
    formsIn (checkArgument exports callee position expected found span) = [] := by
  unfold checkArgument
  split <;> rfl

@[simp] theorem formsIn_checkNumeric (callee : String) (position : Nat) (found : ValueType)
    (span : Span) : formsIn (checkNumeric callee position found span) = [] := by
  unfold checkNumeric
  split <;> rfl

@[simp] theorem formsIn_apply (builtin : Builtin) (args : List (ValueType × Span)) :
    formsIn (builtin.apply exports args).2 = [] := by
  unfold Builtin.apply
  repeat' split
  all_goals simp

theorem map_snd_inferAll (declared : Variables) (args : List Expr) :
    (inferAll exports declared args).1.map Prod.snd = args.map Expr.span := by
  induction args with
  | nil => rfl
  | cons arg args ih => simp [inferAll, ih]

theorem length_inferAll (declared : Variables) (args : List Expr) :
    (inferAll exports declared args).1.length = args.length := by
  rw [← List.length_map Prod.snd, map_snd_inferAll, List.length_map]

theorem formsIn_checkCall (names : List String) (callee : String) (calleeSpan : Span)
    {types : List (ValueType × Span)} {args : List Expr} (h : types.length = args.length)
    (span : Span) : formsIn (checkCall exports callee calleeSpan types span).2 =
      ((Expr.call callee calleeSpan args span).malformed? names).toList := by
  rw [checkCall, Expr.malformed?_call, h]
  cases Builtin.ofName? callee with
  | none => rfl
  | some builtin =>
      by_cases hcount : args.length = builtin.arity
      · simp [hcount]
      · simp [hcount, formsIn, Finding.isAboutForm]

theorem formsIn_division (names : List String) (op : BinaryOp) (left right : Expr) (span : Span) :
    formsIn (if op.divides && right.isZeroLiteral then [Finding.zeroDivision.at right.span]
      else []) = ((Expr.binary op left right span).malformed? names).toList := by
  rw [Expr.malformed?_binary]
  split <;> rfl

theorem filterMap_concat (f : Expr → Option Located) (nodes : List Expr) (e : Expr) :
    (nodes ++ [e]).filterMap f = nodes.filterMap f ++ (f e).toList := by
  rw [List.filterMap_append]
  cases hf : f e <;> simp [hf]

mutual

/-- Of an expression each node with something wrong in its form is reported, in order. -/
theorem formsIn_infer {declared : Variables} {names : List String}
    (hnames : ∀ name, (declared.lookup name).isNone = decide (name ∉ names)) : ∀ e : Expr,
    formsIn (infer exports declared e).2 = e.nodes.filterMap (Expr.malformed? names)
  | .literal value span => by
      cases value <;> rfl
  | .ident name span => by
      have hname := hnames name
      rw [Expr.nodes, ← List.nil_append [_], filterMap_concat, Expr.malformed?_ident]
      cases hlookup : declared.lookup name with
      | none =>
          rw [hlookup] at hname
          rw [infer, hlookup, if_neg (of_decide_eq_true hname.symm)]
          rfl
      | some type =>
          rw [hlookup] at hname
          rw [infer, hlookup, if_pos (not_not.mp (of_decide_eq_false hname.symm))]
          rfl
  | .unary op operand span => by
      have hnone : (Expr.unary op operand span).malformed? names = none := rfl
      simp only [infer, Expr.nodes]
      rw [formsIn_append, formsIn_checkUnary, filterMap_concat, hnone,
        formsIn_infer hnames operand, Option.toList_none]
  | .binary op left right span => by
      simp only [infer, Expr.nodes]
      rw [formsIn_append, formsIn_append, formsIn_append, formsIn_checkBinary, List.append_nil,
        formsIn_division names op left right span, filterMap_concat, List.filterMap_append,
        formsIn_infer hnames left, formsIn_infer hnames right]
  | .conditional condition thenBranch elseBranch span => by
      have hnone : (Expr.conditional condition thenBranch elseBranch span).malformed? names =
        none := rfl
      simp only [infer, Expr.nodes]
      rw [formsIn_append, formsIn_append, formsIn_append, formsIn_append, formsIn_checkBranches,
        formsIn_checkCondition, filterMap_concat, hnone, List.filterMap_append,
        List.filterMap_append, formsIn_infer hnames condition, formsIn_infer hnames thenBranch,
        formsIn_infer hnames elseBranch, Option.toList_none, List.append_nil, List.append_nil,
        List.append_nil]
  | .call callee calleeSpan args span => by
      simp only [infer, Expr.nodes]
      rw [formsIn_append, formsIn_checkCall names callee calleeSpan (length_inferAll declared args),
        filterMap_concat, formsIn_inferAll hnames args]

theorem formsIn_inferAll {declared : Variables} {names : List String}
    (hnames : ∀ name, (declared.lookup name).isNone = decide (name ∉ names)) :
    ∀ args : List Expr, formsIn (inferAll exports declared args).2 =
      (Expr.allNodes args).filterMap (Expr.malformed? names)
  | [] => rfl
  | arg :: args => by
      simp only [inferAll, Expr.allNodes]
      rw [formsIn_append, List.filterMap_append, formsIn_infer hnames arg,
        formsIn_inferAll hnames args]

end

theorem formsIn_checkBody (params : List Param) (ret : ValueType) (body : Expr) :
    formsIn (checkBody exports (declare exports [] params).1 ret body) =
      body.nodes.filterMap (Expr.malformed? (params.map (·.name))) := by
  have hresult (type : ValueType) : formsIn (if exports.assignable type ret then []
      else [(Finding.resultType type ret).at body.span]) = [] := by
    split <;> rfl
  have hnote (silent : Bool) :
      formsIn (if silent then [] else [Finding.constant.at body.span]) = [] := by
    cases silent <;> rfl
  simp only [checkBody]
  rw [formsIn_append, formsIn_append, hresult, hnote, formsIn_infer (lookup_declare_isNone params),
    List.append_nil, List.append_nil]

theorem formsIn_findings {tree : Tree} {lambda : Lambda} (h : tree.lambda = some lambda)
    (modules : List ModuleInfo) (imports : List String) :
    formsIn (findings tree modules imports) =
      lambda.body.nodes.filterMap (Expr.malformed? (lambda.params.map (·.name))) := by
  rw [formsIn, filter_findings (fun _ => rfl) (fun _ => rfl) (fun _ => rfl) h, ← formsIn,
    formsIn_checkBody]

/-- A finding as a diagnostic, placed in the body of which it is about a part. -/
def Located.inBody (body : Span) (located : Located) : Diagnostic :=
  ⟨located.finding.severity, located.finding.code, located.finding.message,
    located.span.map fun span => ⟨span.start - body.start, span.stop - body.start⟩⟩

theorem Located.toDiagnostic_eq_inBody {tree : Tree} {body : Span} (hbody : tree.body = some body)
    {located : Located} (h : located.At body.Encloses) :
    located.toDiagnostic tree = located.inBody body := by
  obtain ⟨span, hspan, hinside⟩ := h
  have hsnippet : tree.snippetSpan span = span.within body := by
    simp only [Tree.snippetSpan, hbody]
  rw [toDiagnostic, inBody, hspan, Option.bind_some, hsnippet, hinside.within_eq, Option.map_some]

/-- What is wrong with the form of a node is reported at the node or at a part of it. -/
theorem Expr.WellPlaced.at_of_malformed? {source : String} {body : Span} {e : Expr}
    (h : e.WellPlaced source body) {names : List String} {located : Located}
    (hmalformed : e.malformed? names = some located) : located.At body.Encloses := by
  have hwhole := h.inBody
  have hpart {span : Span} (hmem : span ∈ e.parts) : body.Encloses span :=
    hwhole.trans (h.encloses span hmem)
  cases e with
  | literal | unary | conditional => cases hmalformed
  | ident name span =>
      rw [malformed?_ident] at hmalformed
      split at hmalformed
      · cases hmalformed
      · obtain rfl := Option.some.inj hmalformed
        exact (Located.at_at_iff _ _).mpr hwhole
  | binary op left right span =>
      rw [malformed?_binary] at hmalformed
      split at hmalformed
      · obtain rfl := Option.some.inj hmalformed
        exact (Located.at_at_iff _ _).mpr (hpart (List.mem_cons_of_mem _ List.mem_cons_self))
      · cases hmalformed
  | call callee calleeSpan args span =>
      rw [malformed?_call] at hmalformed
      split at hmalformed
      · obtain rfl := Option.some.inj hmalformed
        exact (Located.at_at_iff _ _).mpr (hpart List.mem_cons_self)
      · split at hmalformed
        · cases hmalformed
        · obtain rfl := Option.some.inj hmalformed
          exact (Located.at_at_iff _ _).mpr hwhole

/-- Of each kind of finding about the form of nodes, those of a tree are those of the nodes of its
body, in order and in their places. -/
theorem filter_check_of_forms {source : String} {tree : Tree} {lambda : Lambda} {body : Span}
    (hlambda : tree.lambda = some lambda) (hbody : tree.body = some body)
    (hplaced : ∀ node ∈ lambda.body.nodes, node.WellPlaced source body) {code : String}
    (hcode : ∀ finding : Finding, finding.code = code → finding.isAboutForm = true)
    {kind : Expr → Option Located}
    (hkind : ∀ e : Expr, (e.malformed? (lambda.params.map (·.name))).filter
      (·.finding.code == code) = kind e) (modules : List ModuleInfo) (imports : List String) :
    (check tree modules imports).filter (·.code == code) =
      (lambda.body.nodes.filterMap kind).map (Located.inBody body) := by
  have hfilter (found : List Located) :
      found.filter (·.finding.code == code) = (formsIn found).filter (·.finding.code == code) := by
    rw [formsIn, List.filter_filter]
    apply List.filter_congr
    intro located _
    by_cases h : located.finding.code = code
    · simp [h, hcode _ h]
    · simp [h]
  calc (check tree modules imports).filter (·.code == code)
      = ((findings tree modules imports).filter (·.finding.code == code)).map
          (Located.toDiagnostic tree) :=
        filter_check (q := (· == code)) (fun _ => rfl) tree modules imports
    _ = (lambda.body.nodes.filterMap kind).map (Located.toDiagnostic tree) := by
        rw [hfilter, formsIn_findings hlambda, List.filter_filterMap]
        simp only [hkind]
    _ = (lambda.body.nodes.filterMap kind).map (Located.inBody body) := by
        apply List.map_congr_left
        intro located hmem
        obtain ⟨node, hnode, hlocated⟩ := List.mem_filterMap.mp hmem
        rw [← hkind] at hlocated
        apply Located.toDiagnostic_eq_inBody hbody
        exact (hplaced node hnode).at_of_malformed? (Option.filter_eq_some_iff.mp hlocated).1

theorem Finding.isAboutForm_iff_code (finding : Finding) :
    finding.isAboutForm = true ↔ finding.code ∈ ["E100", "E104", "E105", "W300"] := by
  cases finding <;> simp [isAboutForm, code]

/-- The code of a finding tells what is wrong with the form. -/
theorem Expr.filter_malformed? (names : List String) (e : Expr) :
    (e.malformed? names).filter (·.finding.code == "E100") = e.undeclared? names ∧
    (e.malformed? names).filter (·.finding.code == "E104") = e.unknownFunction? ∧
    (e.malformed? names).filter (·.finding.code == "E105") = e.argumentCount? ∧
    (e.malformed? names).filter (·.finding.code == "W300") = e.zeroDivision? := by
  cases e with
  | literal | unary | conditional => exact ⟨rfl, rfl, rfl, rfl⟩
  | ident name span =>
      rw [malformed?_ident]
      simp only [undeclared?, unknownFunction?, argumentCount?, zeroDivision?]
      split <;> exact ⟨rfl, rfl, rfl, rfl⟩
  | binary op left right span =>
      rw [malformed?_binary]
      simp only [undeclared?, unknownFunction?, argumentCount?, zeroDivision?]
      split <;> exact ⟨rfl, rfl, rfl, rfl⟩
  | call callee calleeSpan args span =>
      rw [malformed?_call]
      simp only [undeclared?, unknownFunction?, argumentCount?, zeroDivision?]
      cases Builtin.ofName? callee with
      | none => exact ⟨rfl, rfl, rfl, rfl⟩
      | some builtin =>
          by_cases hcount : args.length = builtin.arity
          · simp [hcount]
          · simp [hcount, Finding.code]

/-- Whatever else is wrong with a lambda, the checker reports every variable in its body that is no
parameter, every call of something that is no builtin function, every call of one with a wrong
number of arguments and every division by a literal zero, each once and in its place. -/
theorem malformed_nodes_reported_once {source : String} {tree : Tree} {lambda : Lambda}
    (hwrapper : Tree.wrapper? source = some tree) (hlambda : tree.lambda = some lambda)
    (modules : List ModuleInfo) (imports : List String) :
    ∃ body, tree.body = some body ∧
      (check tree modules imports).filter (·.code == "E100") =
        (lambda.body.nodes.filterMap (Expr.undeclared? (lambda.params.map (·.name)))).map
          (Located.inBody body) ∧
      (check tree modules imports).filter (·.code == "E104") =
        (lambda.body.nodes.filterMap Expr.unknownFunction?).map (Located.inBody body) ∧
      (check tree modules imports).filter (·.code == "E105") =
        (lambda.body.nodes.filterMap Expr.argumentCount?).map (Located.inBody body) ∧
      (check tree modules imports).filter (·.code == "W300") =
        (lambda.body.nodes.filterMap Expr.zeroDivision?).map (Located.inBody body) := by
  obtain ⟨parts, -, -, hbody⟩ := exists_body_of_lambda hwrapper hlambda
  have hplaced : ∀ node ∈ lambda.body.nodes, node.WellPlaced source _ :=
    fun node h => wellPlaced_of_mem_nodes hwrapper hlambda h
  have hkind := Expr.filter_malformed? (lambda.params.map (·.name))
  have hcode {code : String} (h : code ∈ ["E100", "E104", "E105", "W300"]) :
      ∀ finding : Finding, finding.code = code → finding.isAboutForm = true := by
    rintro finding rfl
    exact finding.isAboutForm_iff_code.mpr h
  exact ⟨_, hbody,
    filter_check_of_forms hlambda hbody hplaced (hcode (by decide)) (fun e => (hkind e).1) ..,
    filter_check_of_forms hlambda hbody hplaced (hcode (by decide)) (fun e => (hkind e).2.1) ..,
    filter_check_of_forms hlambda hbody hplaced (hcode (by decide)) (fun e => (hkind e).2.2.1) ..,
    filter_check_of_forms hlambda hbody hplaced (hcode (by decide)) (fun e => (hkind e).2.2.2) ..⟩

/-- A body in which most operands are wrong. -/
def nestedErrors : String :=
  "|a: Int| -> Int \x7bfoo(b, len()) + if c / 0 then -abs(1, d % 0.0) else a\x7d"

theorem nestedErrors_reported_once :
    ∃ tree, Tree.wrapper? nestedErrors = some tree ∧
      ((check tree [] []).filter (·.code == "E100")).length = 3 ∧
      ((check tree [] []).filter (·.code == "E104")).length = 1 ∧
      ((check tree [] []).filter (·.code == "E105")).length = 2 ∧
      ((check tree [] []).filter (·.code == "W300")).length = 2 := by
  have hcounts : ((Tree.wrapper? nestedErrors).bind (·.lambda)).map (fun lambda =>
      [(lambda.body.nodes.filterMap (Expr.undeclared? (lambda.params.map (·.name)))).length,
        (lambda.body.nodes.filterMap Expr.unknownFunction?).length,
        (lambda.body.nodes.filterMap Expr.argumentCount?).length,
        (lambda.body.nodes.filterMap Expr.zeroDivision?).length]) = some [3, 1, 2, 2] := by
    decide +kernel
  obtain ⟨lambda, hlambda, hcounts⟩ := Option.map_eq_some_iff.mp hcounts
  obtain ⟨tree, hwrapper, hlambda⟩ := Option.bind_eq_some_iff.mp hlambda
  obtain ⟨body, -, hundeclared, hunknown, hcount, hzero⟩ :=
    malformed_nodes_reported_once hwrapper hlambda [] []
  refine ⟨tree, hwrapper, ?_⟩
  rw [hundeclared, hunknown, hcount, hzero]
  simpa using hcounts

end ExprVet.Calc
