import ExprVet.Proofs.Spans
import ExprVet.Proofs.TypeChecking

/-!
# Checked lambdas are well typed

The header of a lambda is read into the types that it denotes when no type of it is reported. From
there the checker finds no error about the body exactly when the body has a type that may be used
where the result type is expected, and it gives the body that very type.
-/

namespace ExprVet.Calc

variable {exports : Exports}

theorem primitive?_ne_unknown {path : String} {type : ValueType}
    (h : ValueType.primitive? path = some type) : type ≠ .unknown := by
  unfold ValueType.primitive? at h
  split at h <;> cases h <;> simp

theorem Denotes.ne_unknown {ref : TypeRef} {type : ValueType} (h : Denotes exports ref type) :
    type ≠ .unknown := by
  cases h with
  | primitive _ h => exact primitive?_ne_unknown h
  | exported => simp

/-- A written type with arguments or a name of its own is looked up among the exports. -/
theorem resolveType_of_not_primitive {path : String} {args : List TypeRef} (span : Span)
    (h : ValueType.primitive? path = none ∨ args ≠ []) :
    resolveType exports ⟨path, args, span⟩ =
      match exports.lookup path with
      | none => (.unknown, [(Finding.unknownType path).at span])
      | some _ => (.named path (resolveTypes exports args).1, (resolveTypes exports args).2) := by
  have hlocal : ∀ type, ValueType.primitive? path = some type → args = [] → False := by
    intro type hprimitive hargs
    rcases h with hnone | hne
    · rw [hnone] at hprimitive
      cases hprimitive
    · exact hne hargs
  refine (resolveType.eq_2 exports path span args hlocal).trans ?_
  cases exports.lookup path <;> rfl

theorem resolveType_of_primitive {path : String} {type : ValueType} (span : Span)
    (h : ValueType.primitive? path = some type) :
    resolveType exports ⟨path, [], span⟩ = (type, []) :=
  resolveType.eq_1 exports path span type h

mutual

/-- A written type of which nothing is reported denotes what it is read as. -/
theorem denotes_of_resolveType : ∀ ref : TypeRef, (resolveType exports ref).2 = [] →
    Denotes exports ref (resolveType exports ref).1
  | ⟨path, args, span⟩, h => by
      by_cases hlocal : ValueType.primitive? path = none ∨ args ≠ []
      · rw [resolveType_of_not_primitive span hlocal] at h ⊢
        cases hlookup : exports.lookup path with
        | none => simp [hlookup] at h
        | some bases =>
            rw [hlookup] at h
            exact .exported span hlocal hlookup (denotesAll_of_resolveTypes args h)
      · obtain ⟨hsome, hargs⟩ := not_or.mp hlocal
        obtain rfl : args = [] := not_not.mp hargs
        obtain ⟨type, htype⟩ := Option.ne_none_iff_exists'.mp hsome
        rw [resolveType_of_primitive span htype]
        exact .primitive span htype

theorem denotesAll_of_resolveTypes : ∀ refs : List TypeRef, (resolveTypes exports refs).2 = [] →
    DenotesAll exports refs (resolveTypes exports refs).1
  | [], _ => .nil
  | ref :: refs, h => by
      simp only [resolveTypes, List.append_eq_nil_iff] at h ⊢
      exact .cons (denotes_of_resolveType ref h.1) (denotesAll_of_resolveTypes refs h.2)

end

mutual

theorem resolveType_of_denotes : ∀ (ref : TypeRef) {type : ValueType}, Denotes exports ref type →
    resolveType exports ref = (type, [])
  | ⟨_, _, _⟩, _, .primitive span h => resolveType_of_primitive span h
  | ⟨_, args, _⟩, _, .exported span hlocal hlookup ha => by
      rw [resolveType_of_not_primitive span hlocal, hlookup, resolveTypes_of_denotesAll args ha]

theorem resolveTypes_of_denotesAll : ∀ (refs : List TypeRef) {types : List ValueType},
    DenotesAll exports refs types → resolveTypes exports refs = (types, [])
  | [], _, .nil => rfl
  | ref :: refs, _, .cons h hs => by
      rw [resolveTypes, resolveType_of_denotes ref h, resolveTypes_of_denotesAll refs hs]
      rfl

end

/-- Types that no module exports are all that is found, located by places of some kind. -/
def UnknownTypesAt (exports : Exports) (P : Span → Prop) (found : List Located) : Prop :=
  ∀ located ∈ found, located.At P ∧
    ∃ path, located.finding = .unknownType path ∧ exports.lookup path = none

section UnknownTypes

variable {P : Span → Prop}

theorem unknownTypesAt_nil : UnknownTypesAt exports P [] := by
  simp [UnknownTypesAt]

theorem unknownTypesAt_append {xs ys : List Located} (hx : UnknownTypesAt exports P xs)
    (hy : UnknownTypesAt exports P ys) : UnknownTypesAt exports P (xs ++ ys) :=
  List.forall_mem_append.mpr ⟨hx, hy⟩

mutual

theorem unknownTypesAt_resolveType : ∀ ref : TypeRef, (∀ span ∈ ref.spans, P span) →
    UnknownTypesAt exports P (resolveType exports ref).2
  | ⟨path, args, span⟩, h => by
      rw [TypeRef.spans, List.forall_mem_cons] at h
      by_cases hlocal : ValueType.primitive? path = none ∨ args ≠ []
      · rw [resolveType_of_not_primitive span hlocal]
        cases hlookup : exports.lookup path with
        | none =>
            intro located hmem
            rw [List.mem_singleton.mp hmem]
            exact ⟨(Located.at_at_iff _ span).mpr h.1, path, rfl, hlookup⟩
        | some bases => exact unknownTypesAt_resolveTypes args h.2
      · obtain ⟨hsome, hargs⟩ := not_or.mp hlocal
        obtain rfl : args = [] := not_not.mp hargs
        obtain ⟨type, htype⟩ := Option.ne_none_iff_exists'.mp hsome
        rw [resolveType_of_primitive span htype]
        exact unknownTypesAt_nil

theorem unknownTypesAt_resolveTypes : ∀ refs : List TypeRef,
    (∀ span ∈ TypeRef.allSpans refs, P span) →
    UnknownTypesAt exports P (resolveTypes exports refs).2
  | [], _ => unknownTypesAt_nil
  | ref :: refs, h => by
      rw [TypeRef.allSpans, List.forall_mem_append] at h
      simp only [resolveTypes]
      exact unknownTypesAt_append (unknownTypesAt_resolveType ref h.1)
        (unknownTypesAt_resolveTypes refs h.2)

end

theorem unknownTypesAt_declare (declared : Variables) {params : List Param}
    (h : ∀ param ∈ params, ∀ span ∈ param.type.spans, P span) :
    UnknownTypesAt exports P (declare exports declared params).2 := by
  induction params generalizing declared with
  | nil => exact unknownTypesAt_nil
  | cons param params ih =>
      rw [List.forall_mem_cons] at h
      simp only [declare]
      exact unknownTypesAt_append (unknownTypesAt_resolveType _ h.1) (ih _ h.2)

end UnknownTypes

/-- Types that no module exports are all that is found. -/
def OnlyUnknownTypes (exports : Exports) (found : List Located) : Prop :=
  ∀ located ∈ found, ∃ path, located.finding = .unknownType path ∧ exports.lookup path = none

theorem UnknownTypesAt.only {P : Span → Prop} {found : List Located}
    (h : UnknownTypesAt exports P found) : OnlyUnknownTypes exports found :=
  fun located hmem => (h located hmem).2

theorem onlyUnknownTypes_resolveType (ref : TypeRef) :
    OnlyUnknownTypes exports (resolveType exports ref).2 :=
  (unknownTypesAt_resolveType ref fun _ _ => trivial).only

theorem onlyUnknownTypes_declare (declared : Variables) (params : List Param) :
    OnlyUnknownTypes exports (declare exports declared params).2 :=
  (unknownTypesAt_declare declared fun _ _ _ _ => trivial).only

/-- A declared variable has the type that its last declaration is read as. -/
theorem lookup_declare (declared : Variables) (params : List Param) (name : String) :
    (declare exports declared params).1.lookup name =
      ((params.reverse.find? (·.name == name)).map fun param =>
        (resolveType exports param.type).1).or (declared.lookup name) := by
  induction params generalizing declared with
  | nil => simp [declare]
  | cons param params ih =>
      simp only [declare]
      rw [ih, List.reverse_cons, List.find?_append, Option.map_or, Option.or_assoc,
        List.find?_singleton, List.lookup_cons]
      by_cases h : param.name = name
      · simp [h]
      · have hne : (name == param.name) = false := by simpa using fun he => h he.symm
        simp [h, hne]

theorem resolveType_eq_nil_of_mem_declare {declared : Variables} {params : List Param}
    (h : (declare exports declared params).2 = []) {param : Param} (hmem : param ∈ params) :
    (resolveType exports param.type).2 = [] := by
  induction params generalizing declared with
  | nil => cases hmem
  | cons first params ih =>
      simp only [declare, List.append_eq_nil_iff] at h
      rcases List.mem_cons.mp hmem with rfl | hmem
      · exact h.1
      · exact ih h.2 hmem

/-- Without a report the variables are those that the parameters declare. -/
theorem declares_iff {params : List Param} (h : (declare exports [] params).2 = [])
    (name : String) (type : ValueType) :
    (declare exports [] params).1.declares name type ↔ Declares exports params name type := by
  rw [Variables.declares, lookup_declare, List.lookup_nil, Option.or_none, Option.map_eq_some_iff]
  have hread {param : Param} (hfind : params.reverse.find? (·.name == name) = some param) :
      (resolveType exports param.type).2 = [] :=
    resolveType_eq_nil_of_mem_declare h (List.mem_reverse.mp (List.mem_of_find?_eq_some hfind))
  constructor
  · rintro ⟨param, hfind, rfl⟩
    exact ⟨param, hfind, denotes_of_resolveType _ (hread hfind)⟩
  · rintro ⟨param, hfind, hdenotes⟩
    exact ⟨param, hfind, by rw [resolveType_of_denotes _ hdenotes]⟩

theorem declares_eq {params : List Param} (h : (declare exports [] params).2 = []) :
    (declare exports [] params).1.declares = Declares exports params :=
  funext fun name => funext fun type => propext (declares_iff h name type)

theorem known_declare {params : List Param} (h : (declare exports [] params).2 = []) :
    Known (declare exports [] params).1 := by
  intro name hlookup
  obtain ⟨param, -, hdenotes⟩ := (declares_iff h name .unknown).mp hlookup
  exact hdenotes.ne_unknown rfl

theorem clean_checkBody_iff {declared : Variables} {ret : ValueType} {body : Expr} :
    Clean (checkBody exports declared ret body) ↔
      Clean (infer exports declared body).2 ∧
        exports.assignable (infer exports declared body).1 ret = true := by
  simp only [checkBody, clean_append, and_assoc]
  apply and_congr_right
  intro _
  constructor
  · rintro ⟨hresult, -⟩
    by_contra hnot
    simp [if_neg hnot, Finding.isBodyError] at hresult
  · intro hto
    rw [if_pos hto]
    refine ⟨clean_nil, ?_⟩
    split
    · exact clean_nil
    · simp [Finding.isBodyError]

/-- With its header read, a lambda is clean exactly when its body has a type that fits. -/
theorem clean_checkLambda_iff {lambda : Lambda} (hparams : (declare exports [] lambda.params).2 = [])
    (hret : (resolveType exports lambda.ret).2 = []) :
    Clean (checkLambda exports lambda) ↔ ∃ type, WellTyped exports lambda type := by
  have hknown := known_declare hparams
  have hdenotes := denotes_of_resolveType lambda.ret hret
  simp only [checkLambda, hparams, hret, List.nil_append, clean_checkBody_iff, WellTyped,
    ← declares_eq hparams]
  constructor
  · rintro ⟨hclean, hto⟩
    obtain ⟨htype, hne⟩ := hasType_of_clean hknown lambda.body hclean
    exact ⟨_, htype, _, hdenotes, (assignable_eq_true_iff hne hdenotes.ne_unknown).mp hto⟩
  · rintro ⟨type, htype, ret, hret', hto⟩
    obtain ⟨rfl, hclean⟩ := infer_of_hasType hknown lambda.body htype
    rw [resolveType_of_denotes lambda.ret hret']
    have hne := (hasType_of_clean hknown lambda.body hclean).2
    exact ⟨hclean, (assignable_eq_true_iff hne hret'.ne_unknown).mpr hto⟩

/-- The diagnostics of a tree with a lambda are clean exactly when what its lambda gives is. -/
theorem forall_check_iff_clean {tree : Tree} {lambda : Lambda} (h : tree.lambda = some lambda)
    (modules : List ModuleInfo) (imports : List String) :
    (∀ d ∈ check tree modules imports, isBodyErrorCode d.code = false) ↔
      Clean (checkLambda (.ofModules modules) lambda) := by
  have hcode (located : Located) : isBodyErrorCode (located.toDiagnostic tree).code =
      located.finding.isBodyError := isBodyErrorCode_code located.finding
  simp only [check, List.forall_mem_map, hcode]
  change Clean _ ↔ _
  rw [findings, h, clean_append, clean_append]
  have herrors : Clean (tree.syntaxErrors.map fun error =>
      (Finding.syntaxError error.message).at error.span) := by
    simp [Clean, Finding.at, Finding.isBodyError]
  have hmissing (missing : List String) :
      Clean (missing.map fun name => ⟨.missingNamespace name, none⟩) := by
    simp [Clean, Finding.isBodyError]
  exact and_iff_right ⟨herrors, hmissing _⟩

theorem eq_nil_of_onlyUnknownTypes {tree : Tree} {modules : List ModuleInfo}
    {imports : List String} (h : ∀ d ∈ check tree modules imports, d.code ≠ "E002")
    {found : List Located} (hsub : found ⊆ findings tree modules imports)
    (honly : OnlyUnknownTypes exports found) : found = [] := by
  apply List.eq_nil_iff_forall_not_mem.mpr
  intro located hmem
  obtain ⟨path, hpath, -⟩ := honly located hmem
  apply h (located.toDiagnostic tree) (List.mem_map_of_mem (hsub hmem))
  rw [Located.toDiagnostic, hpath]
  rfl

/-- In a tree whose header types are all known, no error about the body is reported exactly when the
body has a type that may be used where the result type is expected, and every type that the rules
give the body is the one that the checker gives it. -/
theorem no_body_error_iff_wellTyped {tree : Tree} {lambda : Lambda} {modules : List ModuleInfo}
    {imports : List String} (h : tree.lambda = some lambda)
    (hresolved : ∀ d ∈ check tree modules imports, d.code ≠ "E002") :
    ((∀ d ∈ check tree modules imports, isBodyErrorCode d.code = false) ↔
      ∃ type, WellTyped (.ofModules modules) lambda type) ∧
    ∀ type, HasType (.ofModules modules) (Declares (.ofModules modules) lambda.params) lambda.body type →
      (infer (.ofModules modules) (declare (.ofModules modules) [] lambda.params).1 lambda.body).1 =
        type := by
  have hsub : checkLambda (.ofModules modules) lambda ⊆ findings tree modules imports := by
    simp only [findings, h]
    exact List.subset_append_right _ _
  rw [checkLambda] at hsub
  obtain ⟨hheader, -⟩ := List.append_subset.mp hsub
  obtain ⟨hinParams, hinRet⟩ := List.append_subset.mp hheader
  have hparams := eq_nil_of_onlyUnknownTypes hresolved hinParams (onlyUnknownTypes_declare _ _)
  have hret := eq_nil_of_onlyUnknownTypes hresolved hinRet (onlyUnknownTypes_resolveType _)
  constructor
  · rw [forall_check_iff_clean h, clean_checkLambda_iff hparams hret]
  · intro type htype
    rw [← declares_eq hparams] at htype
    exact (infer_of_hasType (known_declare hparams) lambda.body htype).1

/-- A module in which squares are shapes. -/
def shapeModule : ModuleInfo :=
  ⟨"geo", ["geo"], [⟨"geo.Shape", []⟩, ⟨"geo.Square", ["geo.Shape"]⟩]⟩

/-- `|s: geo.Square, t: geo.Shape| -> geo.Shape {if 1 < 2.5 then s else t}` -/
def squareOrShape : Lambda :=
  let square : TypeRef := ⟨"geo.Square", [], ⟨4, 14⟩⟩
  let shape : TypeRef := ⟨"geo.Shape", [], ⟨19, 28⟩⟩
  let test : Expr := .binary .lt (.literal (.int 1) ⟨50, 51⟩)
    (.literal (.float ⟨['2'], ['5']⟩) ⟨54, 57⟩) ⟨50, 57⟩
  let body : Expr := .conditional test (.ident "s" ⟨63, 64⟩) (.ident "t" ⟨70, 71⟩) ⟨47, 71⟩
  ⟨[⟨"s", square, ⟨1, 14⟩⟩, ⟨"t", shape, ⟨16, 28⟩⟩], shape, body, 47⟩

def squareOrShapeTree : Tree :=
  ⟨"|s: geo.Square, t: geo.Shape| -> geo.Shape {if 1 < 2.5 then s else t}", [],
    some ⟨some squareOrShape, [], ⟨47, 71⟩⟩⟩

theorem check_squareOrShapeTree : check squareOrShapeTree [shapeModule] ["geo"] = [] := by
  have hderives : Exports.derivesFrom [("geo.Square", ["geo.Shape"]), ("geo.Shape", [])]
      "geo.Square" "geo.Shape" = true :=
    Exports.derivesFrom_eq_true_iff.mpr (.single ⟨["geo.Shape"], rfl, List.mem_cons_self⟩)
  simp [check, findings, squareOrShapeTree, squareOrShape, Tree.lambda, Tree.syntaxErrors,
    Surroundings.ofModules, Exports.ofModules, shapeModule, checkLambda, declare, resolveType,
    resolveTypes, ValueType.primitive?, checkBody, infer, checkBinary, checkCondition,
    checkBranches, BinaryOp.result, BinaryOp.divides, Exports.assignable, List.lookup_cons,
    ValueType.isNumeric, Expr.mentionsVariable, hderives]

theorem squareOrShape_no_body_error_iff :
    squareOrShapeTree.lambda = some squareOrShape ∧
    (∀ d ∈ check squareOrShapeTree [shapeModule] ["geo"], d.code ≠ "E002") ∧
    ((∀ d ∈ check squareOrShapeTree [shapeModule] ["geo"], isBodyErrorCode d.code = false) ↔
      ∃ type, WellTyped (.ofModules [shapeModule]) squareOrShape type) ∧
    ∀ type, HasType (.ofModules [shapeModule])
        (Declares (.ofModules [shapeModule]) squareOrShape.params) squareOrShape.body type →
      (infer (.ofModules [shapeModule])
        (declare (.ofModules [shapeModule]) [] squareOrShape.params).1 squareOrShape.body).1 =
          type := by
  have hresolved : ∀ d ∈ check squareOrShapeTree [shapeModule] ["geo"], d.code ≠ "E002" := by
    simp [check_squareOrShapeTree]
  exact ⟨rfl, hresolved, no_body_error_iff_wellTyped rfl hresolved⟩

end ExprVet.Calc
