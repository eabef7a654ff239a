import ExprVet.Proofs.CheckedLambda
import ExprVet.Proofs.Conversions

/-!
# What follows from an unknown type

A type that no module exports is reported where it is written, and the checker goes on with a
stand-in for it. Findings about types are never about the stand-in itself. But the checker looks for
it at the top of a type only: an exported type with an unknown argument is tested like any other,
and then one mistake can be reported again. This happens through the types that the header gives and
through nothing else.

## Implementation notes

The findings at a node are about the types found at its parts, so the lemmas about nodes leave open
which property these types have. The induction over expressions is made once, for any property of
the types that expressions have.
-/

namespace ExprVet.Calc

variable {exports : Exports}

mutual

/-- Whether nothing in a type is unknown, down to the arguments of its arguments. -/
def ValueType.isWhole : ValueType → Bool
  | .unknown => false
  | .named _ args => allWhole args
  | _ => true

def ValueType.allWhole : List ValueType → Bool
  | [] => true
  | type :: types => type.isWhole && allWhole types

end

theorem primitive?_isWhole {path : String} {type : ValueType}
    (h : ValueType.primitive? path = some type) : type.isWhole = true := by
  unfold ValueType.primitive? at h
  split at h <;> cases h <;> rfl

theorem exists_named_of_not_isWhole {type : ValueType} (hknown : type ≠ .unknown)
    (h : ¬ type.isWhole = true) : ∃ name args, type = .named name args := by
  cases type with
  | named name args => exact ⟨name, args, rfl⟩
  | unknown => exact absurd rfl hknown
  | _ => exact absurd rfl h

mutual

/-- A written type is read without unknown parts exactly when nothing is reported of it. -/
theorem isWhole_resolveType_iff : ∀ ref : TypeRef,
    (resolveType exports ref).1.isWhole = true ↔ (resolveType exports ref).2 = []
  | ⟨path, args, span⟩ => by
      by_cases hlocal : ValueType.primitive? path = none ∨ args ≠ []
      · rw [resolveType_of_not_primitive span hlocal]
        cases exports.lookup path with
        | none => simp [ValueType.isWhole]
        | some bases => simpa only [ValueType.isWhole] using allWhole_resolveTypes_iff args
      · obtain ⟨hsome, hargs⟩ := not_or.mp hlocal
        obtain rfl : args = [] := not_not.mp hargs
        obtain ⟨type, htype⟩ := Option.ne_none_iff_exists'.mp hsome
        rw [resolveType_of_primitive span htype]
        simp [primitive?_isWhole htype]

theorem allWhole_resolveTypes_iff : ∀ refs : List TypeRef,
    ValueType.allWhole (resolveTypes exports refs).1 = true ↔ (resolveTypes exports refs).2 = []
  | [] => by simp [resolveTypes, ValueType.allWhole]
  | ref :: refs => by
      simp only [resolveTypes, ValueType.allWhole, Bool.and_eq_true, List.append_eq_nil_iff,
        isWhole_resolveType_iff ref, allWhole_resolveTypes_iff refs]

end

/-- The types that a finding is about. -/
def Finding.types : Finding → List ValueType
  | unaryOperand _ operand => [operand]
  | binaryOperands _ left right => [left, right]
  | argumentType _ _ expected found => [expected, found]
  | argumentNotNumeric _ _ found => [found]
  | conditionType found => [found]
  | branchTypes thenBranch elseBranch => [thenBranch, elseBranch]
  | resultType found expected => [found, expected]
  | _ => []

/-- The codes of findings about types. -/
def typeCodes : List String := ["E200", "E201", "E202", "E300"]

theorem Finding.code_mem_typeCodes_iff (finding : Finding) :
    finding.code ∈ typeCodes ↔ finding.types ≠ [] := by
  cases finding <;> simp [code, types, typeCodes]

/-- Findings are about types that are not unknown and have some property. -/
def About (P : ValueType → Prop) (found : List Located) : Prop :=
  ∀ located ∈ found, ∀ type ∈ located.finding.types, type ≠ .unknown ∧ P type

section About

variable {P : ValueType → Prop}

@[simp] theorem about_nil : About P [] := by
  simp [About]

@[simp] theorem about_append {xs ys : List Located} :
    About P (xs ++ ys) ↔ About P xs ∧ About P ys :=
  List.forall_mem_append

@[simp] theorem about_at (finding : Finding) (span : Span) :
    About P [finding.at span] ↔ ∀ type ∈ finding.types, type ≠ .unknown ∧ P type := by
  simp [About, Finding.at]

theorem about_unless {condition : Prop} [Decidable condition] {found : List Located}
    (h : ¬ condition → About P found) : About P (if condition then [] else found) := by
  split
  · exact about_nil
  · exact h ‹_›

theorem about_checkUnary (op : UnaryOp) {operand : ValueType} (h : P operand) (span : Span) :
    About P (checkUnary op operand span).2 := by
  unfold checkUnary
  split
  case h_5 hknown _ _ _ => simpa [Finding.types, h] using hknown
  all_goals exact about_nil

theorem about_checkBinary (op : BinaryOp) {left right : ValueType} (hleft : P left)
    (hright : P right) (span : Span) : About P (checkBinary op left right span).2 := by
  unfold checkBinary
  split
  · exact about_nil
  · rename_i hknown
    obtain ⟨hl, hr⟩ := not_or.mp hknown
    split
    · exact about_nil
    · simp [Finding.types, hl, hr, hleft, hright]

theorem about_checkBranches {thenType elseType : ValueType} (hthen : P thenType)
    (helse : P elseType) (span : Span) :
    About P (checkBranches exports thenType elseType span).2 := by
  unfold checkBranches
  split
  · exact about_nil
  · rename_i hknown
    split
    · exact about_nil
    · rename_i hdiffer
      have hknown' : elseType ≠ .unknown := fun h => hdiffer (.inl h)
      repeat' split
      all_goals simp [Finding.types, hknown, hknown', hthen, helse]

theorem about_checkCondition {condition : ValueType} (h : P condition) (span : Span) :
    About P (checkCondition condition span) := by
  apply about_unless
  intro hcondition
  obtain ⟨-, hknown⟩ := not_or.mp hcondition
  simp [Finding.types, hknown, h]

/-- What does not fit is known, and so is what it does not fit. -/
theorem ne_unknown_of_not_assignable {source target : ValueType}
    (h : ¬ exports.assignable source target = true) : source ≠ .unknown ∧ target ≠ .unknown := by
  constructor
  · rintro rfl
    exact h (assignable_unknown_left target)
  · rintro rfl
    exact h (assignable_unknown_right source)

theorem about_checkArgument (callee : String) (position : Nat) {expected found : ValueType}
    (hexpected : P expected) (hfound : P found) (span : Span) :
    About P (checkArgument exports callee position expected found span) := by
  apply about_unless
  intro hnot
  obtain ⟨hsource, htarget⟩ := ne_unknown_of_not_assignable hnot
  simp [Finding.types, hsource, htarget, hexpected, hfound]

theorem about_checkNumeric (callee : String) (position : Nat) {found : ValueType}
    (hknown : found ≠ .unknown) (h : P found) (span : Span) :
    About P (checkNumeric callee position found span) := by
  apply about_unless
  intro _
  simp [Finding.types, hknown, h]

theorem about_apply (builtin : Builtin) (hstr : P .str) {args : List (ValueType × Span)}
    (h : ∀ arg ∈ args, P arg.1) : About P (builtin.apply exports args).2 := by
  unfold Builtin.apply
  split
  · exact about_checkArgument _ _ hstr (h _ List.mem_cons_self) _
  · exact about_checkArgument _ _ hstr (h _ List.mem_cons_self) _
  · exact about_checkArgument _ _ hstr (h _ List.mem_cons_self) _
  · exact about_nil
  · split
    · exact about_nil
    · rename_i hnot
      exact about_checkNumeric _ _ (not_or.mp hnot).2 (h _ List.mem_cons_self) _
  case h_8 => exact about_nil
  -- the smaller and the larger of two numbers
  all_goals
    have hfirst := h _ List.mem_cons_self
    have hsecond := h _ (List.mem_cons_of_mem _ List.mem_cons_self)
    split
    · exact about_nil
    · rename_i hknown
      obtain ⟨hl, hr⟩ := not_or.mp hknown
      split
      · exact about_nil
      · exact about_append.mpr
          ⟨about_checkNumeric _ _ hl hfirst _, about_checkNumeric _ _ hr hsecond _⟩

theorem about_checkCall (callee : String) (calleeSpan : Span) (hstr : P .str)
    {args : List (ValueType × Span)} (h : ∀ arg ∈ args, P arg.1) (span : Span) :
    About P (checkCall exports callee calleeSpan args span).2 := by
  unfold checkCall
  split
  · simp [Finding.types]
  · split
    · exact about_apply _ hstr h
    · simp [Finding.types]

theorem forall_mem_inferAll_type {declared : Variables}
    (h : ∀ expr, P (infer exports declared expr).1) (args : List Expr) :
    ∀ arg ∈ (inferAll exports declared args).1, P arg.1 := by
  induction args with
  | nil => simp [inferAll]
  | cons arg args ih =>
      simp only [inferAll, List.forall_mem_cons]
      exact ⟨h arg, ih⟩

mutual

/-- What is found in an expression is about types that expressions have. -/
theorem about_infer {declared : Variables} (hstr : P .str)
    (h : ∀ expr, P (infer exports declared expr).1) :
    ∀ expr : Expr, About P (infer exports declared expr).2
  | .literal value span => by
      cases value <;> exact about_nil
  | .ident name span => by
      simp only [infer]
      split <;> simp [Finding.types]
  | .unary op operand span => by
      simp only [infer, about_append]
      exact ⟨about_infer hstr h operand, about_checkUnary op (h operand) span⟩
  | .binary op left right span => by
      simp only [infer, about_append]
      refine ⟨⟨⟨about_infer hstr h left, about_infer hstr h right⟩, ?_⟩,
        about_checkBinary op (h left) (h right) span⟩
      split <;> simp [Finding.types]
  | .conditional condition thenBranch elseBranch span => by
      simp only [infer, about_append]
      exact ⟨⟨⟨⟨about_infer hstr h condition, about_checkCondition (h condition) _⟩,
        about_infer hstr h thenBranch⟩, about_infer hstr h elseBranch⟩,
        about_checkBranches (h thenBranch) (h elseBranch) span⟩
  | .call callee calleeSpan args span => by
      simp only [infer, about_append]
      exact ⟨about_inferAll hstr h args,
        about_checkCall callee calleeSpan hstr (forall_mem_inferAll_type h args) span⟩

theorem about_inferAll {declared : Variables} (hstr : P .str)
    (h : ∀ expr, P (infer exports declared expr).1) :
    ∀ args : List Expr, About P (inferAll exports declared args).2
  | [] => about_nil
  | arg :: args => by
      simp only [inferAll, about_append]
      exact ⟨about_infer hstr h arg, about_inferAll hstr h args⟩

end

theorem about_checkBody {declared : Variables} {ret : ValueType} (hstr : P .str)
    (h : ∀ expr, P (infer exports declared expr).1) (hret : P ret) (body : Expr) :
    About P (checkBody exports declared ret body) := by
  simp only [checkBody, about_append]
  refine ⟨⟨about_infer hstr h body, about_unless fun hnot => ?_⟩, about_unless fun _ => ?_⟩
  · obtain ⟨hsource, htarget⟩ := ne_unknown_of_not_assignable hnot
    simp [Finding.types, hsource, htarget, h body, hret]
  · simp [Finding.types]

end About

theorem OnlyUnknownTypes.about {P : ValueType → Prop} {found : List Located}
    (h : OnlyUnknownTypes exports found) : About P found := by
  intro located hmem type htype
  obtain ⟨path, hpath, -⟩ := h located hmem
  simp [hpath, Finding.types] at htype

/-- A written type that a header gives: its result, or the type of a parameter. Of two parameters
with one name the later counts. -/
def HeaderGives (params : List Param) (ret ref : TypeRef) : Prop :=
  ref = ret ∨ ∃ name param, params.reverse.find? (·.name == name) = some param ∧ param.type = ref

/-- A written type is unknown itself, or nothing in it is. -/
def TypeRef.Settled (exports : Exports) (ref : TypeRef) : Prop :=
  (resolveType exports ref).1 = .unknown ∨ (resolveType exports ref).2 = []

theorem TypeRef.not_settled_iff {ref : TypeRef} : ¬ ref.Settled exports ↔
    (resolveType exports ref).1 ≠ .unknown ∧ ¬ (resolveType exports ref).1.isWhole = true := by
  rw [Settled, not_or, isWhole_resolveType_iff]

theorem subset_declare (declared : Variables) {params : List Param} {param : Param}
    (h : param ∈ params) :
    (resolveType exports param.type).2 ⊆ (declare exports declared params).2 := by
  induction params generalizing declared with
  | nil => cases h
  | cons first params ih =>
      simp only [declare]
      rcases List.mem_cons.mp h with rfl | h
      · exact List.subset_append_left _ _
      · exact List.Subset.trans (ih _ h) (List.subset_append_right _ _)

/-- What is reported of a type that the header gives is reported of the lambda. -/
theorem HeaderGives.subset {lambda : Lambda} {ref : TypeRef}
    (h : HeaderGives lambda.params lambda.ret ref) :
    (resolveType exports ref).2 ⊆ checkLambda exports lambda := by
  simp only [checkLambda]
  refine List.Subset.trans ?_ (List.subset_append_left _ _)
  rcases h with rfl | ⟨name, param, hfind, rfl⟩
  · exact List.subset_append_right _ _
  · have hmem := List.mem_reverse.mp (List.mem_of_find?_eq_some hfind)
    exact List.Subset.trans (subset_declare [] hmem) (List.subset_append_left _ _)

/-- An exported type that a finding is about is one that the header gives. -/
theorem about_checkLambda (lambda : Lambda) :
    About (fun type => ∀ name args, type = .named name args →
      ∃ ref, HeaderGives lambda.params lambda.ret ref ∧ (resolveType exports ref).1 = type)
      (checkLambda exports lambda) := by
  simp only [checkLambda, about_append]
  refine ⟨⟨(onlyUnknownTypes_declare [] lambda.params).about,
    (onlyUnknownTypes_resolveType lambda.ret).about⟩, about_checkBody ?str ?expr ?ret _⟩
  case str =>
    intro name args htype
    cases htype
  case ret => exact fun _ _ _ => ⟨lambda.ret, .inl rfl, rfl⟩
  case expr =>
    intro expr name args htype
    obtain ⟨variableName, hlookup⟩ := exists_lookup_of_infer_named expr htype
    rw [lookup_declare, List.lookup_nil, Option.or_none, Option.map_eq_some_iff] at hlookup
    obtain ⟨param, hfind, hparam⟩ := hlookup
    exact ⟨param.type, .inr ⟨variableName, param, hfind, rfl⟩, hparam.trans htype.symm⟩

theorem findings_cases {tree : Tree} {modules : List ModuleInfo} {imports : List String}
    {located : Located} (h : located ∈ findings tree modules imports)
    (htypes : located.finding.types ≠ []) :
    ∃ lambda, tree.lambda = some lambda ∧ located ∈ checkLambda (.ofModules modules) lambda := by
  simp only [findings, List.mem_append, List.mem_map] at h
  rcases h with (⟨error, -, rfl⟩ | ⟨name, -, rfl⟩) | h
  · exact absurd rfl htypes
  · exact absurd rfl htypes
  · cases hlambda : tree.lambda with
    | none => simp [hlambda] at h
    | some lambda =>
        rw [hlambda] at h
        exact ⟨lambda, rfl, h⟩

theorem checkLambda_subset_findings {tree : Tree} {lambda : Lambda} (h : tree.lambda = some lambda)
    (modules : List ModuleInfo) (imports : List String) :
    checkLambda (.ofModules modules) lambda ⊆ findings tree modules imports := by
  simp only [findings, h]
  exact List.subset_append_right _ _

/-- What a finding is about is known, and where it has an unknown part the header gives it. -/
theorem origin_of_mem_types {tree : Tree} {modules : List ModuleInfo} {imports : List String}
    {located : Located} (hmem : located ∈ findings tree modules imports) {type : ValueType}
    (htype : type ∈ located.finding.types) :
    type ≠ .unknown ∧ (type.isWhole = true ∨ ∃ lambda ref, tree.lambda = some lambda ∧
      HeaderGives lambda.params lambda.ret ref ∧
        (resolveType (.ofModules modules) ref).1 = type) := by
  obtain ⟨lambda, hlambda, hfound⟩ := findings_cases hmem (List.ne_nil_of_mem htype)
  obtain ⟨hknown, hgiven⟩ := about_checkLambda lambda located hfound type htype
  refine ⟨hknown, or_iff_not_imp_left.mpr fun hpart => ?_⟩
  obtain ⟨name, args, hnamed⟩ := exists_named_of_not_isWhole hknown hpart
  obtain ⟨ref, hgives, hread⟩ := hgiven name args hnamed
  exact ⟨lambda, ref, hlambda, hgives, hread⟩

/-- No finding about types is about one with an unknown part. -/
def NothingFollows (tree : Tree) (modules : List ModuleInfo) (imports : List String) : Prop :=
  ∀ located ∈ findings tree modules imports, located.finding.code ∈ typeCodes →
    ∀ type ∈ located.finding.types, type.isWhole = true

/-- A tree without a source, for a lambda. -/
def Lambda.tree (lambda : Lambda) : Tree := ⟨"", [], some ⟨some lambda, [], ⟨0, 0⟩⟩⟩

/-- An unsettled type of a header is told again in the findings about some body. -/
theorem exists_follows_of_not_settled {modules : List ModuleInfo} {params : List Param}
    {ret ref : TypeRef} (hgives : HeaderGives params ret ref)
    (h : ¬ ref.Settled (.ofModules modules)) :
    ∃ body : Expr, ∀ imports, ¬ NothingFollows (Lambda.tree ⟨params, ret, body, 0⟩) modules imports := by
  rw [TypeRef.not_settled_iff] at h
  obtain ⟨hknown, hpart⟩ := h
  obtain ⟨path, args, htype⟩ := exists_named_of_not_isWhole hknown hpart
  let place : Span := ⟨0, 0⟩
  have tell {body : Expr} (finding : Finding)
      (hfound : finding.at place ∈
        checkBody (.ofModules modules) (declare (.ofModules modules) [] params).1
          (resolveType (.ofModules modules) ret).1 body)
      (hmem : (resolveType (.ofModules modules) ref).1 ∈ finding.types) (imports : List String) :
      ¬ NothingFollows (Lambda.tree ⟨params, ret, body, 0⟩) modules imports := by
    intro hnothing
    have hlambda : finding.at place ∈
        findings (Lambda.tree ⟨params, ret, body, 0⟩) modules imports :=
      checkLambda_subset_findings rfl modules imports (List.mem_append_right _ hfound)
    have hcode := finding.code_mem_typeCodes_iff.mpr (List.ne_nil_of_mem hmem)
    exact hpart (hnothing _ hlambda hcode _ hmem)
  rcases hgives with rfl | ⟨name, param, hfind, rfl⟩
  · -- a number is no value of the result type
    refine ⟨.literal (.int 0) place,
      tell (.resultType .int (resolveType (.ofModules modules) ref).1) ?_ (by simp [Finding.types])⟩
    simp [checkBody, infer, htype, Exports.assignable, Expr.span, place]
  · -- the variable has no negative
    have hlookup : (declare (.ofModules modules) [] params).1.lookup name =
        some (resolveType (.ofModules modules) param.type).1 := by
      rw [lookup_declare, hfind]
      rfl
    refine ⟨.unary .neg (.ident name place) place,
      tell (.unaryOperand .neg (resolveType (.ofModules modules) param.type).1) ?_
        (by simp [Finding.types])⟩
    simp [checkBody, infer, hlookup, htype, checkUnary]

/-- Findings about types are never about the stand-in for an unknown type. One about a type with an
unknown part is about a type that the header gives, and the unknown part is reported as well. So
nothing follows from unknown types, whatever the body, exactly when every type that the header gives
is unknown itself or free of unknown parts. -/
theorem nothingFollows_iff_settled (modules : List ModuleInfo) (imports : List String) :
    (∀ tree, ∀ located ∈ findings tree modules imports, ∀ type ∈ located.finding.types,
      type ≠ .unknown ∧ (type.isWhole = true ∨ ∃ lambda ref, tree.lambda = some lambda ∧
        HeaderGives lambda.params lambda.ret ref ∧ (resolveType (.ofModules modules) ref).1 = type ∧
        ∃ report ∈ (resolveType (.ofModules modules) ref).2,
          report ∈ findings tree modules imports ∧ report.finding.code = "E002")) ∧
    ∀ params ret, (∀ tree lambda, tree.lambda = some lambda → lambda.params = params →
      lambda.ret = ret → NothingFollows tree modules imports) ↔
        ∀ ref, HeaderGives params ret ref → ref.Settled (.ofModules modules) := by
  refine ⟨fun tree located hmem type htype => ?reported, fun params ret => ⟨?settled, ?nothing⟩⟩
  case reported =>
    obtain ⟨hknown, hgiven⟩ := origin_of_mem_types hmem htype
    refine ⟨hknown, or_iff_not_imp_left.mpr fun hpart => ?_⟩
    obtain ⟨lambda, ref, hlambda, hgives, hread⟩ := hgiven.resolve_left hpart
    rw [← hread, isWhole_resolveType_iff] at hpart
    obtain ⟨report, hreport⟩ := List.exists_mem_of_ne_nil _ hpart
    obtain ⟨path, hpath, -⟩ := onlyUnknownTypes_resolveType ref report hreport
    have hcode : report.finding.code = "E002" := by
      rw [hpath]
      rfl
    exact ⟨lambda, ref, hlambda, hgives, hread, report, hreport,
      checkLambda_subset_findings hlambda modules imports (hgives.subset hreport), hcode⟩
  case settled =>
    intro hnothing ref hgives
    by_contra hnot
    obtain ⟨body, hbody⟩ := exists_follows_of_not_settled hgives hnot
    exact hbody imports (hnothing _ _ rfl rfl rfl)
  case nothing =>
    rintro hsettled tree lambda hlambda rfl rfl located hmem - type htype
    obtain ⟨hknown, hgiven⟩ := origin_of_mem_types hmem htype
    by_contra hpart
    obtain ⟨found, ref, hfound, hgives, rfl⟩ := hgiven.resolve_left hpart
    obtain rfl : lambda = found := Option.some.inj (hlambda.symm.trans hfound)
    exact TypeRef.not_settled_iff.mpr ⟨hknown, hpart⟩ (hsettled ref hgives)

/-- A module of lists. -/
def listModule : ModuleInfo := ⟨"coll", ["coll"], [⟨"coll.List", []⟩]⟩

/-- A list of which the element type is unknown, given back as a list of numbers. -/
def listOfUnknown : Lambda :=
  let unknownList : TypeRef := ⟨"coll.List", [⟨"Nope", [], ⟨15, 19⟩⟩], ⟨5, 20⟩⟩
  let numbers : TypeRef := ⟨"coll.List", [⟨"Int", [], ⟨35, 38⟩⟩], ⟨25, 39⟩⟩
  ⟨[⟨"xs", unknownList, ⟨1, 20⟩⟩], numbers, .ident "xs" ⟨41, 43⟩, 41⟩

theorem wrapper?_listOfUnknown :
    (Tree.wrapper? "|xs: coll.List<Nope>| -> coll.List<Int> \x7bxs\x7d").map
      (fun tree => (tree.body, tree.syntaxErrors, tree.lambda)) =
        some (some ⟨41, 43⟩, [], some listOfUnknown) := by
  let lexeme (token : Token) (text : String) (start : Nat) : Lexeme :=
    ⟨token, text.toList, ⟨start, start + text.length⟩⟩
  have hlexemes : tokenize "|xs: coll.List<Nope>| -> coll.List<Int> \x7bxs\x7d" =
      [lexeme .pipe "|" 0, lexeme (.ident "xs") "xs" 1, lexeme .colon ":" 3,
        lexeme (.ident "coll") "coll" 5, lexeme .dot "." 9, lexeme (.ident "List") "List" 10,
        lexeme .lt "<" 14, lexeme (.ident "Nope") "Nope" 15, lexeme .gt ">" 19,
        lexeme .pipe "|" 20, lexeme .arrow "->" 22, lexeme (.ident "coll") "coll" 25,
        lexeme .dot "." 29, lexeme (.ident "List") "List" 30, lexeme .lt "<" 34,
        lexeme (.ident "Int") "Int" 35, lexeme .gt ">" 38, lexeme .lbrace "\x7b" 40,
        lexeme (.ident "xs") "xs" 41, lexeme .rbrace "\x7d" 43] := by
    decide +kernel
  rw [Tree.wrapper?, hlexemes]
  rfl

theorem checkLambda_listOfUnknown : checkLambda (.ofModules [listModule]) listOfUnknown =
    [(Finding.unknownType "Nope").at ⟨15, 19⟩,
      (Finding.resultType (.named "coll.List" [.unknown]) (.named "coll.List" [.int])).at
        ⟨41, 43⟩] := by
  have hderives : Exports.derivesFrom [("coll.List", [])] "coll.List" "coll.List" = false :=
    Exports.derivesFrom_eq_any _ _
  simp [listOfUnknown, Exports.ofModules, listModule, checkLambda, declare, resolveType,
    resolveTypes, ValueType.primitive?, checkBody, infer, Exports.assignable, List.lookup_cons,
    Expr.mentionsVariable, Expr.span, hderives]

/-- A list of which the element type is unknown is no list of numbers, and that is told besides the
unknown type. -/
theorem unknownElements_followed :
    ∃ tree, Tree.wrapper? "|xs: coll.List<Nope>| -> coll.List<Int> \x7bxs\x7d" = some tree ∧
      ¬ NothingFollows tree [listModule] [] ∧
      check tree [listModule] [] =
        [⟨.error, "E002", "unknown type `Nope`; no referenced module exports it", none⟩,
          ⟨.error, "E300", "expression of type `coll.List<\x7bunknown\x7d>` cannot be converted to " ++
            "`coll.List<Int>`", some ⟨0, 2⟩⟩] := by
  obtain ⟨tree, hwrapper, hparts⟩ := Option.map_eq_some_iff.mp wrapper?_listOfUnknown
  simp only [Prod.mk.injEq] at hparts
  obtain ⟨hbody, herrors, hlambda⟩ := hparts
  have hfindings : findings tree [listModule] [] =
      checkLambda (.ofModules [listModule]) listOfUnknown := by
    simp [findings, herrors, hlambda, Surroundings.ofModules]
  rw [checkLambda_listOfUnknown] at hfindings
  refine ⟨tree, hwrapper, fun hnothing => ?_, ?_⟩
  · have hwhole := hnothing _ (hfindings ▸ List.mem_cons_of_mem _ List.mem_cons_self) (by decide) _
      List.mem_cons_self
    cases hwhole
  · simp only [check, hfindings, List.map_cons, List.map_nil, Located.toDiagnostic, Finding.at,
      Option.bind_some, Tree.snippetSpan, hbody]
    decide +kernel

end ExprVet.Calc
