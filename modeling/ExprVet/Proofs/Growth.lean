import ExprVet.Proofs.CheckedLambda
import ExprVet.Proofs.Header

/-!
# Checks against more exports

Exports decide two things about a body: which types its variables have, and which of two types may
be used for the other. The second does not only decide what is reported. It also chooses the type of
a conditional, so that more inheritance could turn one type into another. `Grows` says when it does
not: what inherited before still does, and no type inherits from one of its heirs that did not do so
before. Then a body without errors is given the same type and the same findings.
-/

namespace ExprVet.Calc

/-- For types with names of some kind, later exports keep all inheritance and turn none around. -/
structure Exports.Grows (Named : String → Prop) (first later : Exports) : Prop where
  keeps : ∀ {name base}, Named name → Named base → first.Inherits name base →
    later.Inherits name base
  oneWay : ∀ {name base}, Named name → Named base → first.Inherits base name →
    later.Inherits name base → first.Inherits name base

/-- A type is not an exported one, or its name is of some kind. -/
def ValueType.Within (Named : String → Prop) : ValueType → Prop
  | .named name _ => Named name
  | _ => True

@[simp] theorem within_true (type : ValueType) : type.Within fun _ => True := by
  cases type <;> trivial

/-- The type of an expression is built in or the type of a variable. -/
theorem within_infer {Named : String → Prop} {exports : Exports} {declared : Variables}
    (h : ∀ name type, declared.lookup name = some type → type.Within Named) (e : Expr) :
    (infer exports declared e).1.Within Named := by
  cases htype : (infer exports declared e).1 with
  | named name args =>
      obtain ⟨variableName, hlookup⟩ := exists_lookup_of_infer_named e htype
      exact h variableName _ hlookup
  | _ => trivial

section Grows

variable {Named : String → Prop} {first later : Exports}

/-- Exports matter for exported types only. -/
theorem assignable_congr {source target : ValueType}
    (h : ∀ {name args base baseArgs}, source = .named name args → target = .named base baseArgs →
      first.derivesFrom name base = later.derivesFrom name base) :
    first.assignable source target = later.assignable source target := by
  cases source with
  | named name args =>
      cases target with
      | named base baseArgs =>
          simp only [Exports.assignable]
          rw [h rfl rfl]
      | _ => rfl
  | _ => cases target <;> rfl

theorem Exports.Grows.assignable (h : first.Grows Named later) {source target : ValueType}
    (hsource : source.Within Named) (htarget : target.Within Named)
    (hto : first.assignable source target = true) : later.assignable source target = true := by
  cases source with
  | named name args =>
      cases target with
      | named base baseArgs =>
          simp only [Exports.assignable, Bool.or_eq_true, Exports.derivesFrom_eq_true_iff] at hto ⊢
          exact hto.imp_right (h.keeps hsource htarget)
      | _ => exact hto
  | _ => cases target <;> exact hto

/-- Where one of two types could be used for the other, the opposite does not become possible. -/
theorem Exports.Grows.assignable_back (h : first.Grows Named later) {source target : ValueType}
    (hsource : source.Within Named) (htarget : target.Within Named)
    (hback : first.assignable target source = true)
    (hto : later.assignable source target = true) : first.assignable source target = true := by
  cases source with
  | named name args =>
      cases target with
      | named base baseArgs =>
          simp only [Exports.assignable, Bool.or_eq_true, decide_eq_true_iff,
            Exports.derivesFrom_eq_true_iff] at hto hback ⊢
          rcases hback with heq | hback
          · exact .inl heq.symm
          · exact hto.imp_right (h.oneWay hsource htarget hback)
      | _ => exact hto
  | _ => cases target <;> exact hto

theorem checkArgument_str (callee : String) (position : Nat) (found : ValueType) (span : Span) :
    checkArgument later callee position .str found span =
      checkArgument first callee position .str found span := by
  have hsame : later.assignable found .str = first.assignable found .str :=
    assignable_congr fun _ hstr => by cases hstr
  rw [checkArgument, checkArgument, hsame]

theorem checkCall_congr (callee : String) (calleeSpan : Span) (args : List (ValueType × Span))
    (span : Span) :
    checkCall later callee calleeSpan args span = checkCall first callee calleeSpan args span := by
  have happly (builtin : Builtin) : builtin.apply later args = builtin.apply first args := by
    unfold Builtin.apply
    simp only [@checkArgument_str first later]
  unfold checkCall
  simp only [happly]

/-- Branches that have a common type keep it. -/
theorem Exports.Grows.checkBranches (h : first.Grows Named later) {thenType elseType : ValueType}
    (hthen : thenType.Within Named) (helse : elseType.Within Named) {span : Span}
    (hclean : Clean (checkBranches first thenType elseType span).2) :
    checkBranches later thenType elseType span = checkBranches first thenType elseType span := by
  unfold Calc.checkBranches at hclean ⊢
  split
  · rfl
  · rename_i hknown
    rw [if_neg hknown] at hclean
    split
    · rfl
    · rename_i hdiffer
      rw [if_neg hdiffer] at hclean
      split
      · rfl
      · rename_i hnum
        rw [if_neg hnum] at hclean
        by_cases hto : first.assignable thenType elseType = true
        · rw [if_pos hto, if_pos (h.assignable hthen helse hto)]
        · rw [if_neg hto] at hclean ⊢
          by_cases hback : first.assignable elseType thenType = true
          · have hnot : ¬later.assignable thenType elseType = true :=
              fun hlater => hto (h.assignable_back hthen helse hback hlater)
            rw [if_pos hback, if_neg hnot, if_pos (h.assignable helse hthen hback)]
          · simp [if_neg hback, Finding.isBodyError] at hclean

mutual

/-- An expression without errors has the same type and the same findings. -/
theorem infer_of_grows (h : first.Grows Named later) {declared : Variables}
    (hdeclared : ∀ name type, declared.lookup name = some type → type.Within Named) :
    ∀ e : Expr, Clean (infer first declared e).2 → infer later declared e = infer first declared e
  | .literal value span, _ => by
      cases value <;> rfl
  | .ident name span, _ => rfl
  | .unary op operand span, hclean => by
      simp only [infer, clean_append] at hclean ⊢
      rw [infer_of_grows h hdeclared operand hclean.1]
  | .binary op left right span, hclean => by
      simp only [infer, clean_append] at hclean ⊢
      rw [infer_of_grows h hdeclared left hclean.1.1.1,
        infer_of_grows h hdeclared right hclean.1.1.2]
  | .conditional condition thenBranch elseBranch span, hclean => by
      simp only [infer, clean_append] at hclean ⊢
      obtain ⟨⟨⟨⟨hcondition, -⟩, hthen⟩, helse⟩, hbranches⟩ := hclean
      rw [infer_of_grows h hdeclared condition hcondition,
        infer_of_grows h hdeclared thenBranch hthen, infer_of_grows h hdeclared elseBranch helse,
        h.checkBranches (within_infer hdeclared thenBranch) (within_infer hdeclared elseBranch)
          hbranches]
  | .call callee calleeSpan args span, hclean => by
      simp only [infer, clean_append] at hclean ⊢
      rw [inferAll_of_grows h hdeclared args hclean.1, @checkCall_congr first later]

theorem inferAll_of_grows (h : first.Grows Named later) {declared : Variables}
    (hdeclared : ∀ name type, declared.lookup name = some type → type.Within Named) :
    ∀ args : List Expr, Clean (inferAll first declared args).2 →
      inferAll later declared args = inferAll first declared args
  | [], _ => rfl
  | arg :: args, hclean => by
      simp only [inferAll, clean_append] at hclean ⊢
      rw [infer_of_grows h hdeclared arg hclean.1, inferAll_of_grows h hdeclared args hclean.2]

end

mutual

/-- What a written type denotes depends on its names alone and on which of them are exported. -/
theorem Denotes.transfer (hknown : ∀ path, first.lookup path ≠ none → later.lookup path ≠ none) :
    ∀ {ref ref' : TypeRef} {type : ValueType}, ref'.tree = ref.tree → Denotes first ref type →
      Denotes later ref' type
  | _, ⟨path', args', span'⟩, _, htree, .primitive _ hprimitive => by
      obtain ⟨rfl, hargs⟩ := TypeTree.node.inj htree
      obtain rfl : args' = [] := by simpa [TypeRef.trees_eq_map] using hargs
      exact .primitive span' hprimitive
  | ⟨path, args, _⟩, ⟨path', args', span'⟩, _, htree, .exported _ hlocal hlookup ha => by
      obtain ⟨rfl, hargs⟩ := TypeTree.node.inj htree
      obtain ⟨bases', hbases'⟩ := Option.ne_none_iff_exists'.mp (hknown path' (by simp [hlookup]))
      refine .exported span' (hlocal.imp_right ?_) hbases' (ha.transfer hknown hargs)
      rintro hne rfl
      exact hne (by simpa [TypeRef.trees_eq_map, eq_comm] using hargs)

theorem DenotesAll.transfer
    (hknown : ∀ path, first.lookup path ≠ none → later.lookup path ≠ none) :
    ∀ {refs refs' : List TypeRef} {types : List ValueType},
      TypeRef.trees refs' = TypeRef.trees refs → DenotesAll first refs types →
        DenotesAll later refs' types
  | _, [], _, _, .nil => .nil
  | _, ref' :: refs', _, htrees, .cons h hs => by
      obtain ⟨htree, htrees⟩ := List.cons.inj htrees
      exact .cons (h.transfer hknown htree) (hs.transfer hknown htrees)

end

theorem within_resolveType {Named : String → Prop} {exports : Exports} {ref : TypeRef}
    (h : Named ref.path) : (resolveType exports ref).1.Within Named := by
  obtain ⟨path, args, span⟩ := ref
  unfold resolveType
  split
  · rename_i hprimitive
    unfold ValueType.primitive? at hprimitive
    split at hprimitive <;> cases hprimitive <;> trivial
  · split
    · trivial
    · exact h

/-- What the checker needs of exports to read parameters and to compare their types: a type that a
parameter has by the first exports it has by the later ones, and between the types of the parameters
all inheritance is kept and none turned around. -/
structure Exports.ProvideFor (first later : Exports) (params : List Param) : Prop where
  known : ∀ param ∈ params, ∀ type, Denotes first param.type type → Denotes later param.type type
  grows : first.Grows (fun name => ∃ param ∈ params, param.type.path = name) later

theorem declare_of_known {params : List Param} (hknown : ∀ param ∈ params,
    ∀ type, Denotes first param.type type → Denotes later param.type type)
    {declared : Variables} (h : (declare first declared params).2 = []) :
    declare later declared params = declare first declared params := by
  induction params generalizing declared with
  | nil => rfl
  | cons param params ih =>
      rw [List.forall_mem_cons] at hknown
      simp only [declare, List.append_eq_nil_iff] at h ⊢
      have hdenotes := denotes_of_resolveType param.type h.1
      rw [resolveType_of_denotes _ (hknown.1 _ hdenotes), resolveType_of_denotes _ hdenotes,
        ih hknown.2 h.2]

theorem within_declare {exports : Exports} {params : List Param} {name : String} {type : ValueType}
    (h : (declare exports [] params).1.lookup name = some type) :
    type.Within fun name => ∃ param ∈ params, param.type.path = name := by
  rw [lookup_declare, List.lookup_nil, Option.or_none, Option.map_eq_some_iff] at h
  obtain ⟨param, hfind, rfl⟩ := h
  exact within_resolveType ⟨param, List.mem_reverse.mp (List.mem_of_find?_eq_some hfind), rfl⟩

/-- Exports that provide for the parameters give them the same types, and the body too. -/
theorem Exports.ProvideFor.infer_eq {params : List Param} (h : first.ProvideFor later params)
    (hparams : (declare first [] params).2 = []) {body : Expr}
    (hclean : Clean (infer first (declare first [] params).1 body).2) :
    declare later [] params = declare first [] params ∧
      infer later (declare later [] params).1 body =
        infer first (declare first [] params).1 body := by
  have hdeclare := declare_of_known h.known hparams
  refine ⟨hdeclare, ?_⟩
  rw [hdeclare]
  exact infer_of_grows h.grows (fun _ _ => within_declare) body hclean

end Grows

/-- Nothing worse than a warning is found. -/
def NoError (found : List Located) : Prop := ∀ located ∈ found, located.finding.severity ≠ .error

@[simp] theorem noError_nil : NoError [] := List.forall_mem_nil _

@[simp] theorem noError_append (xs ys : List Located) :
    NoError (xs ++ ys) ↔ NoError xs ∧ NoError ys := List.forall_mem_append

theorem NoError.clean {found : List Located} (h : NoError found) : Clean found := by
  intro located hmem
  have hseverity := h located hmem
  cases hfinding : located.finding <;> simp_all [Finding.isBodyError, Finding.severity]

theorem NoError.eq_nil {exports : Exports} {found : List Located} (h : NoError found)
    (honly : OnlyUnknownTypes exports found) : found = [] := by
  apply List.eq_nil_iff_forall_not_mem.mpr
  intro located hmem
  obtain ⟨path, hpath, -⟩ := honly located hmem
  apply h located hmem
  rw [hpath]
  rfl

/-- Neither a warning nor an error is found. -/
def Quiet (found : List Located) : Prop :=
  ∀ located ∈ found, located.finding.severity.isReportable = false

@[simp] theorem quiet_append (xs ys : List Located) : Quiet (xs ++ ys) ↔ Quiet xs ∧ Quiet ys :=
  List.forall_mem_append

theorem Quiet.noError {found : List Located} (h : Quiet found) : NoError found := by
  intro located hmem herror
  have hquiet := h located hmem
  rw [herror] at hquiet
  cases hquiet

/-- The type that the checker gives the body of a lambda. -/
def Lambda.bodyType (exports : Exports) (lambda : Lambda) : ValueType :=
  (infer exports (declare exports [] lambda.params).1 lambda.body).1

section Extend

variable {first later : Exports}

/-- Exports that know all exported types with the bases that they had. -/
def Exports.Extends (later first : Exports) : Prop :=
  ∀ name bases, first.lookup name = some bases → later.lookup name = some bases

theorem Exports.Extends.inherits (h : later.Extends first) {name base : String}
    (hinherits : first.Inherits name base) : later.Inherits name base := by
  have hlists {name base : String} : first.Lists name base → later.Lists name base :=
    fun ⟨bases, hlookup, hmem⟩ => ⟨bases, h name bases hlookup, hmem⟩
  induction hinherits with
  | single hbase => exact .single (hlists hbase)
  | tail _ hbase ih => exact ih.tail (hlists hbase)

theorem Exports.Extends.known (h : later.Extends first) {path : String}
    (hfirst : first.lookup path ≠ none) : later.lookup path ≠ none := by
  obtain ⟨bases, hbases⟩ := Option.ne_none_iff_exists'.mp hfirst
  rw [h path bases hbases]
  exact Option.some_ne_none bases

/-- Where no type inherits from itself, more exports never turn an inheritance around. -/
theorem Exports.Extends.grows (h : later.Extends first)
    (hacyclic : ∀ name, ¬later.Inherits name name) (Named : String → Prop) :
    first.Grows Named later := by
  constructor
  · intro name base _ _ hinherits
    exact h.inherits hinherits
  · intro name base _ _ hback hto
    exact absurd ((h.inherits hback).trans hto) (hacyclic base)

theorem checkLambda_of_extends (h : later.Extends first)
    (hacyclic : ∀ name, ¬later.Inherits name name) {lambda : Lambda}
    (hquiet : Quiet (checkLambda first lambda)) :
    checkLambda later lambda = checkLambda first lambda ∧
      lambda.bodyType later = lambda.bodyType first := by
  simp only [checkLambda, checkBody, quiet_append] at hquiet
  obtain ⟨⟨hinParams, hinRet⟩, ⟨hinfer, hresult⟩, -⟩ := hquiet
  have hparams := hinParams.noError.eq_nil (onlyUnknownTypes_declare [] lambda.params)
  have hret := hinRet.noError.eq_nil (onlyUnknownTypes_resolveType lambda.ret)
  have hprovide : first.ProvideFor later lambda.params :=
    ⟨fun _ _ _ => Denotes.transfer (fun _ => h.known) rfl, h.grows hacyclic _⟩
  obtain ⟨hdeclare, hbody⟩ := hprovide.infer_eq hparams hinfer.noError.clean
  have hret' : resolveType later lambda.ret = resolveType first lambda.ret := by
    have hdenotes := denotes_of_resolveType lambda.ret hret
    rw [resolveType_of_denotes _ (hdenotes.transfer (fun _ => h.known) rfl),
      resolveType_of_denotes _ hdenotes]
  -- the body fits its result type, so it still does
  have hto : first.assignable (lambda.bodyType first) (resolveType first lambda.ret).1 = true := by
    by_contra hnot
    simp only [Lambda.bodyType] at hnot
    simp [if_neg hnot, Quiet, Finding.at, Finding.severity, Severity.isReportable] at hresult
    cases hresult
  have hto' := (h.grows hacyclic fun _ => True).assignable (within_true _) (within_true _) hto
  simp only [checkLambda, checkBody, Lambda.bodyType] at hto hto' ⊢
  rw [hret', hbody, hdeclare, if_pos hto, if_pos hto']
  exact ⟨rfl, rfl⟩

end Extend

theorem mem_of_lookup_ofModules {modules : List ModuleInfo} {name : String} {bases : List String}
    (h : (Exports.ofModules modules).lookup name = some bases) :
    ⟨name, bases⟩ ∈ modules.flatMap (·.types) := by
  obtain ⟨before, after, hsplit, -⟩ := List.lookup_eq_some_iff.mp h
  have hmem : (name, bases) ∈ Exports.ofModules modules := by simp [hsplit]
  rw [Exports.ofModules, List.mem_reverse, List.mem_map] at hmem
  obtain ⟨type, htype, heq⟩ := hmem
  obtain ⟨rfl, rfl⟩ := Prod.mk.inj heq
  exact htype

theorem flatMap_subset_flatMap {f : α → List β} {xs ys : List α} (h : xs ⊆ ys) :
    xs.flatMap f ⊆ ys.flatMap f := by
  intro found hmem
  obtain ⟨x, hx, hfound⟩ := List.mem_flatMap.mp hmem
  exact List.mem_flatMap.mpr ⟨x, h hx, hfound⟩

/-- Modules of which no two types have one name extend the modules among them. -/
theorem extends_ofModules {modules more : List ModuleInfo} (hsub : modules ⊆ more)
    (honce : ∀ first ∈ more.flatMap (·.types), ∀ second ∈ more.flatMap (·.types),
      first.name = second.name → first = second) :
    (Exports.ofModules more).Extends (.ofModules modules) := by
  intro name bases hlookup
  have hmem := flatMap_subset_flatMap hsub (mem_of_lookup_ofModules hlookup)
  obtain ⟨found, hfound⟩ : ∃ found, (Exports.ofModules more).lookup name = some found := by
    apply Option.ne_none_iff_exists'.mp
    intro hnone
    have hentry : (name, bases) ∈ Exports.ofModules more :=
      List.mem_reverse.mpr (List.mem_map_of_mem hmem)
    simpa using List.lookup_eq_none_iff.mp hnone _ hentry
  obtain ⟨-, rfl⟩ := TypeExport.mk.inj (honce _ hmem _ (mem_of_lookup_ofModules hfound) rfl)
  exact hfound

/-- A tree without warnings and errors stays so when modules are added that give none of the
exported types another meaning: nothing new is found, and the body keeps its type. -/
theorem check_eq_of_more_modules {tree : Tree} {lambda : Lambda} {modules more : List ModuleInfo}
    {imports : List String} (h : tree.lambda = some lambda) (hsub : modules ⊆ more)
    (honce : ∀ first ∈ more.flatMap (·.types), ∀ second ∈ more.flatMap (·.types),
      first.name = second.name → first = second)
    (hacyclic : ∀ name, ¬(Exports.ofModules more).Inherits name name)
    (hquiet : ∀ d ∈ check tree modules imports, d.severity.isReportable = false) :
    check tree more imports = check tree modules imports ∧
      lambda.bodyType (.ofModules more) = lambda.bodyType (.ofModules modules) := by
  have hfound : Quiet (findings tree modules imports) :=
    fun located hmem => hquiet _ (List.mem_map_of_mem hmem)
  simp only [findings, h, Option.map_some, Option.getD_some, quiet_append] at hfound
  obtain ⟨⟨-, hmissing⟩, hlambda⟩ := hfound
  obtain ⟨heq, htype⟩ := checkLambda_of_extends (extends_ofModules hsub honce) hacyclic hlambda
  -- a missing namespace would have been a warning
  have hthere : imports.filter (· ∉ (Surroundings.ofModules modules).namespaces) = [] := by
    by_contra hne
    obtain ⟨name, hname⟩ := List.exists_mem_of_ne_nil _ hne
    cases hmissing _ (List.mem_map_of_mem hname)
  have hthere' : imports.filter (· ∉ (Surroundings.ofModules more).namespaces) = [] := by
    simp only [List.filter_eq_nil_iff, decide_eq_true_iff, not_not] at hthere ⊢
    exact fun name hname => flatMap_subset_flatMap hsub (hthere name hname)
  refine ⟨?_, htype⟩
  simp only [check, findings, h, Option.map_some, Option.getD_some, hthere, hthere']
  rw [show checkLambda (Surroundings.ofModules more).exports lambda = _ from heq]
  rfl

/-- A module with an heir of shapes of its own. -/
def artModule : ModuleInfo := ⟨"art", ["art"], [⟨"art.Frame", ["geo.Shape"]⟩]⟩

theorem not_inherits_shapeModule_artModule (name : String) :
    ¬(Exports.ofModules [shapeModule, artModule]).Inherits name name := by
  have hshape {name base : String}
      (h : (Exports.ofModules [shapeModule, artModule]).Lists name base) :
      base = "geo.Shape" ∧ name ≠ "geo.Shape" := by
    obtain ⟨bases, hlookup, hmem⟩ := h
    have htype := mem_of_lookup_ofModules hlookup
    simp [shapeModule, artModule] at htype
    rcases htype with ⟨rfl, rfl⟩ | ⟨rfl, rfl⟩ | ⟨rfl, rfl⟩ <;> simp_all
  intro hcycle
  obtain ⟨_, hfirst, -⟩ := Relation.TransGen.head'_iff.mp hcycle
  obtain ⟨_, -, hlast⟩ := Relation.TransGen.tail'_iff.mp hcycle
  exact (hshape hfirst).2 (hshape hlast).1

theorem check_squareOrShapeTree_eq_of_artModule :
    squareOrShapeTree.lambda = some squareOrShape ∧ [shapeModule] ⊆ [shapeModule, artModule] ∧
    (∀ d ∈ check squareOrShapeTree [shapeModule] ["geo"], d.severity.isReportable = false) ∧
    check squareOrShapeTree [shapeModule, artModule] ["geo"] =
        check squareOrShapeTree [shapeModule] ["geo"] ∧
      squareOrShape.bodyType (.ofModules [shapeModule, artModule]) =
        squareOrShape.bodyType (.ofModules [shapeModule]) := by
  have hquiet : ∀ d ∈ check squareOrShapeTree [shapeModule] ["geo"],
      d.severity.isReportable = false := by
    simp [check_squareOrShapeTree]
  exact ⟨rfl, by simp, hquiet,
    check_eq_of_more_modules rfl (by simp) (by decide) not_inherits_shapeModule_artModule hquiet⟩

end ExprVet.Calc
