import ExprVet.Proofs.Splicing
import ExprVet.Proofs.Undeclared
import ExprVet.Session.Check

/-!
# What a check declares

A check is asked for the variables of its snippet with types as texts. The variables that the snippet
mentions are meant to be the parameters of the wrapper's lambda. They are, for type texts without
quotes, just if none of the texts contains a colon: the rest of such a text is read as the type of
one more parameter, and what it declares is not reported as undeclared.
-/

namespace ExprVet

namespace Data

theorem nodup_eraseDups (names : List String) : names.eraseDups.Nodup := by
  match names with
  | [] => exact List.nodup_nil
  | name :: names =>
      have hlength : (names.filter fun other => !other == name).length ≤ names.length :=
        List.length_filter_le _ _
      rw [List.eraseDups_cons, List.nodup_cons]
      refine ⟨fun hmem => ?_, nodup_eraseDups _⟩
      rw [List.mem_eraseDups, List.mem_filter] at hmem
      simp at hmem
termination_by names.length

end Data

namespace Calc

/-- A snippet mentions a name where it does not call it. -/
def Mentions (snippet name : String) : Prop :=
  ∃ before lexeme after, tokenize snippet = before ++ lexeme :: after ∧
    lexeme.token = .ident name ∧ firstToken? after ≠ some .lparen

theorem mem_nodesOf_iff {lexemes : List Lexeme} {node : Node} :
    node ∈ Tree.nodesOf lexemes ↔ ∃ before lexeme after, lexemes = before ++ lexeme :: after ∧
      node = ⟨NodeKind.classify lexeme.token (firstToken? after), String.ofList lexeme.text,
        lexeme.span⟩ := by
  induction lexemes with
  | nil => simp [Tree.nodesOf]
  | cons first rest ih =>
      rw [Tree.nodesOf, List.mem_cons, ih]
      constructor
      · rintro (rfl | ⟨before, lexeme, after, rfl, rfl⟩)
        · exact ⟨[], first, rest, rfl, rfl⟩
        · exact ⟨first :: before, lexeme, after, rfl, rfl⟩
      · rintro ⟨_ | ⟨_, before⟩, lexeme, after, heq, rfl⟩
        · obtain ⟨rfl, rfl⟩ := List.cons.inj heq
          exact .inl rfl
        · obtain ⟨rfl, rfl⟩ := List.cons.inj heq
          exact .inr ⟨before, lexeme, after, rfl, rfl⟩

/-- The discovery finds the names that the snippet mentions. -/
theorem mem_identifiers_iff {snippet name : String} :
    name ∈ (Tree.discovery snippet).identifiers ↔ Mentions snippet name := by
  have htext {before after : List Lexeme} {lexeme : Lexeme} {name : String}
      (hsplit : tokenize snippet = before ++ lexeme :: after)
      (hident : lexeme.token = .ident name) : String.ofList lexeme.text = name := by
    have hmem : lexeme ∈ tokenize snippet := by simp [hsplit]
    rw [(text_of_ident hmem hident).1, String.ofList_toList]
  rw [Tree.identifiers, List.mem_eraseDups, List.mem_map]
  constructor
  · rintro ⟨node, hnode, rfl⟩
    obtain ⟨hmem, hkind⟩ := List.mem_filter.mp hnode
    have hkind : node.kind = .identifier := eq_of_beq hkind
    rcases List.mem_cons.mp hmem with rfl | hmem
    · cases hkind
    · obtain ⟨before, lexeme, after, hsplit, rfl⟩ := mem_nodesOf_iff.mp hmem
      obtain ⟨⟨name, hident⟩, hafter⟩ := classify_eq_identifier_iff.mp hkind
      refine ⟨before, lexeme, after, hsplit, ?_, hafter⟩
      rw [htext hsplit hident, hident]
  · rintro ⟨before, lexeme, after, hsplit, hident, hafter⟩
    refine ⟨_, List.mem_filter.mpr ⟨List.mem_cons_of_mem _ (mem_nodesOf_iff.mpr
      ⟨before, lexeme, after, hsplit, rfl⟩), ?_⟩, htext hsplit hident⟩
    exact beq_iff_eq.mpr (classify_eq_identifier_iff.mpr ⟨⟨name, hident⟩, hafter⟩)

end Calc

theorem VariableScope.declareAll_outermost (declarations : List (String × SemanticType))
    (outermost : Frame) : VariableScope.declareAll ⟨[], outermost⟩ declarations =
      ⟨[], declarations.reverse ++ outermost⟩ := by
  induction declarations generalizing outermost with
  | nil => rfl
  | cons declaration declarations ih =>
      have hstep : VariableScope.declareAll ⟨[], outermost⟩ (declaration :: declarations) =
          VariableScope.declareAll ⟨[], declaration :: outermost⟩ declarations := rfl
      rw [hstep, ih, List.reverse_cons, List.append_assoc]
      rfl

theorem nodup_map_name_resolveNames {environment : String → Option SemanticType}
    {names : List String} (h : names.Nodup) :
    ((resolveNames environment names).map (·.name)).Nodup := by
  have hsublist : ((resolveNames environment names).map (·.name)).Sublist names := by
    induction names with
    | nil => exact List.Sublist.refl _
    | cons name names ih =>
        have htail := ih (List.nodup_cons.mp h).2
        rw [resolveNames, List.filterMap_cons]
        cases environment name with
        | none => exact htail.cons name
        | some type => exact htail.cons_cons name
  exact hsublist.nodup h

namespace CheckRequest

/-- The names of the declared variables. -/
def declared (request : CheckRequest) : List String := request.declarations.map Prod.fst

/-- The variables of a check's snippet as they are written in the header of its wrapper. -/
def bindings (request : CheckRequest) : List Binding := request.toRequest.descriptor.bindings

/-- The parameters of a lambda are the declared variables that the snippet mentions, each once. -/
def DeclaresExactly (request : CheckRequest) (lambda : Calc.Lambda) : Prop :=
  (lambda.params.map (·.name)).Nodup ∧ ∀ name, name ∈ lambda.params.map (·.name) ↔
    name ∈ request.declared ∧ Calc.Mentions request.text name

theorem isSome_environment_iff (request : CheckRequest) (name : String) :
    (request.toRequest.environment name).isSome ↔ name ∈ request.declared := by
  have hlookup : request.toRequest.environment name = request.declarations.reverse.lookup name := by
    change (VariableScope.declareAll ⟨[], []⟩ request.declarations).lookup name = _
    rw [VariableScope.declareAll_outermost, List.append_nil, VariableScope.lookup,
      VariableScope.frames, List.nil_append, List.findSome?_singleton]
  have hmem : name ∈ request.declared ↔ name ∈ request.declarations.reverse.map Prod.fst := by
    rw [declared, List.map_reverse, List.mem_reverse]
  rw [hlookup, hmem, ← not_iff_not, Bool.not_eq_true, Option.isSome_eq_false_iff,
    Option.isNone_iff_eq_none]
  exact Data.lookup_eq_none_iff_not_mem

theorem mem_map_name_bindings_iff (request : CheckRequest) (name : String) :
    name ∈ request.bindings.map (·.name) ↔
      name ∈ request.declared ∧ Calc.Mentions request.text name := by
  rw [bindings, Descriptor.bindings, mem_map_name_resolveNames, and_comm]
  exact and_congr (isSome_environment_iff request name) Calc.mem_identifiers_iff

theorem nodup_map_name_bindings (request : CheckRequest) :
    (request.bindings.map (·.name)).Nodup :=
  nodup_map_name_resolveNames (Data.nodup_eraseDups _)

theorem isIdentifier_of_mem_bindings (request : CheckRequest) :
    ∀ b ∈ request.bindings, Calc.IsIdentifier b.name.toList := by
  intro b hmem
  have hname : b.name ∈ request.bindings.map (·.name) := List.mem_map_of_mem hmem
  exact Calc.isIdentifier_of_mem_identifiers (mem_map_name_resolveNames.mp hname).1

end CheckRequest

/-- A check whose wrapper can be read tells what is found in it. -/
theorem exists_check_eq (config : SessionConfig) {request : CheckRequest} {tree : Calc.Tree}
    (hwrapper : Calc.Tree.wrapper? request.toRequest.descriptor.wrapper = some tree) :
    ∃ translator : Translator, ∃ modules imports,
      check config request = .ok (translator.translate (Calc.check tree modules imports)) := by
  simp only [check, Validator.validate, Validator.compile, Request.compile_eq, hwrapper]
  exact ⟨_, _, _, rfl⟩

theorem Translator.mem_translate_of_error {translator : Translator} {found : List Diagnostic}
    {d : Diagnostic} (h : d ∈ found) (hseverity : d.severity = .error) :
    ∃ error ∈ translator.translate found, error.message = d.rendered ∧ error.isWarning = false := by
  cases translator with
  | plain => exact ⟨_, List.mem_filterMap.mpr ⟨d, h, by rw [translateOne, hseverity]⟩, rfl, rfl⟩
  | located => exact ⟨_, List.mem_filterMap.mpr ⟨d, h, by rw [translateOne, hseverity]⟩, rfl, rfl⟩

/-- A variable of the body that is no parameter is reported. -/
theorem exists_error_of_undeclared (config : SessionConfig) {request : CheckRequest}
    {tree : Calc.Tree} {lambda : Calc.Lambda}
    (hwrapper : Calc.Tree.wrapper? request.toRequest.descriptor.wrapper = some tree)
    (hlambda : tree.lambda = some lambda) :
    ∃ errors, check config request = .ok errors ∧ ∀ o ∈ lambda.body.occurrences,
      o.1 ∉ lambda.params.map (·.name) → ∃ error ∈ errors,
        error.message = "E100: " ++ (Calc.Finding.undeclared o.1).message ∧
        error.isWarning = false := by
  obtain ⟨translator, modules, imports, hcheck⟩ := exists_check_eq config hwrapper
  refine ⟨_, hcheck, fun o ho hundeclared => ?_⟩
  have hfound : Calc.undeclaredDiagnostic tree o ∈
      (Calc.check tree modules imports).filter (·.code == "E100") := by
    rw [Calc.filter_undeclared_check hlambda]
    exact List.mem_map_of_mem (List.mem_filter.mpr ⟨ho, by simpa using hundeclared⟩)
  exact Translator.mem_translate_of_error (List.mem_of_mem_filter hfound) rfl

/-- The parameters of a check's lambda are the names before the colons in front of the first arrow
of its wrapper. If the types that are written there contain no quotes, then the parameters are the
declared variables that the snippet mentions just if none of these types contains a colon. And if
they are, then every undeclared variable of the body is reported. -/
theorem declaresExactly_iff_no_colon (config : SessionConfig) (request : CheckRequest)
    {tree : Calc.Tree} {lambda : Calc.Lambda}
    (hwrapper : Calc.Tree.wrapper? request.toRequest.descriptor.wrapper = some tree)
    (hlambda : tree.lambda = some lambda) :
    lambda.params.map (·.name) = Calc.namesBeforeColons
      ((Calc.withoutErrors tree.lexemes).takeWhile (·.token != .arrow)) ∧
    ((∀ b ∈ request.bindings, '"' ∉ b.type.calcText.toList) →
      (request.DeclaresExactly lambda ↔ ∀ b ∈ request.bindings, ':' ∉ b.type.calcText.toList)) ∧
    ∃ errors, check config request = .ok errors ∧
      (request.DeclaresExactly lambda → ∀ o ∈ lambda.body.occurrences, o.1 ∉ request.declared →
        ∃ error ∈ errors, error.message = "E100: " ++ (Calc.Finding.undeclared o.1).message ∧
          error.isWarning = false) := by
  refine ⟨?names, ?exact, ?reported⟩
  case names =>
    obtain ⟨hlexemes, parts, htokens, hparts⟩ := Calc.exists_parts_of_wrapper? hwrapper hlambda
    rw [hlexemes, htokens]
    exact hparts.names_eq
  case exact =>
    intro hquote
    have hiff := Calc.exact_iff_no_colon hwrapper hlambda request.isIdentifier_of_mem_bindings
      hquote request.nodup_map_name_bindings
    refine Iff.trans (and_congr_right fun _ => forall_congr' fun name => ?_) hiff
    exact iff_congr Iff.rfl (request.mem_map_name_bindings_iff name).symm
  case reported =>
    obtain ⟨errors, hcheck, hreported⟩ := exists_error_of_undeclared config hwrapper hlambda
    refine ⟨errors, hcheck, fun hexact o ho hundeclared => ?_⟩
    exact hreported o ho fun hmem => hundeclared ((hexact.2 o.1).mp hmem).1

/-- A check of `x + y` for a variable `x` with a type as typed in. -/
def sumCheck (type : String) : CheckRequest :=
  ⟨"x + y", .integer, [("x", .ofEntry type)], [], []⟩

/-- With an integer `x` the check declares `x` alone, and `y` is reported. -/
theorem sumCheck_integer_exact :
    ∃ tree lambda errors,
      Calc.Tree.wrapper? (sumCheck "Int").toRequest.descriptor.wrapper = some tree ∧
      tree.lambda = some lambda ∧ (sumCheck "Int").DeclaresExactly lambda ∧
      check .standard (sumCheck "Int") = .ok errors ∧
      ∃ error ∈ errors, error.message = "E100: undeclared identifier `y`" := by
  have hparsed : ((Calc.Tree.wrapper? (sumCheck "Int").toRequest.descriptor.wrapper).bind
      (·.lambda)).map (·.body.occurrences.map (·.1)) = some ["x", "y"] := by
    decide +kernel
  obtain ⟨lambda, hlambda, hnames⟩ := Option.map_eq_some_iff.mp hparsed
  obtain ⟨tree, hwrapper, hlambda⟩ := Option.bind_eq_some_iff.mp hlambda
  obtain ⟨-, hexact, errors, hcheck, hreported⟩ :=
    declaresExactly_iff_no_colon .standard (sumCheck "Int") hwrapper hlambda
  have htext : ∀ b ∈ (sumCheck "Int").bindings,
      '"' ∉ b.type.calcText.toList ∧ ':' ∉ b.type.calcText.toList := by
    decide +kernel
  have hdeclares := (hexact fun b hb => (htext b hb).1).mpr fun b hb => (htext b hb).2
  have hy : "y" ∈ lambda.body.occurrences.map (·.1) := by
    rw [hnames]
    decide
  obtain ⟨o, ho, hname⟩ := List.mem_map.mp hy
  have hundeclared : o.1 ∉ (sumCheck "Int").declared := by
    rw [hname]
    decide
  obtain ⟨error, hmem, hmessage, -⟩ := hreported hdeclares o ho hundeclared
  rw [hname] at hmessage
  exact ⟨tree, lambda, errors, hwrapper, hlambda, hdeclares, hcheck, error, hmem, hmessage⟩

/-- A type with a comma and a colon in it declares a second variable, and then `y` is not
reported. -/
theorem sumCheck_foreign_parameter :
    parseBinding "x: Int, y: Int" = .ok ("x", .ofEntry "Int, y: Int") ∧
    ∃ tree lambda,
      Calc.Tree.wrapper? (sumCheck "Int, y: Int").toRequest.descriptor.wrapper = some tree ∧
      tree.lambda = some lambda ∧ lambda.params.map (·.name) = ["x", "y"] ∧
      ¬ (sumCheck "Int, y: Int").DeclaresExactly lambda ∧
      "y" ∉ (sumCheck "Int, y: Int").declared ∧
      "y" ∈ lambda.body.occurrences.map (·.1) ∧
      check .standard (sumCheck "Int, y: Int") = .ok [] := by
  have hparsed : ((Calc.Tree.wrapper? (sumCheck "Int, y: Int").toRequest.descriptor.wrapper).bind
      (·.lambda)).map (fun lambda => (lambda.params.map (·.name),
        lambda.body.occurrences.map (·.1))) = some (["x", "y"], ["x", "y"]) := by
    decide +kernel
  obtain ⟨lambda, hlambda, hnames⟩ := Option.map_eq_some_iff.mp hparsed
  obtain ⟨tree, hwrapper, hlambda⟩ := Option.bind_eq_some_iff.mp hlambda
  obtain ⟨hparams, hbody⟩ := Prod.mk.inj hnames
  have hundeclared : "y" ∉ (sumCheck "Int, y: Int").declared := by
    decide
  have hcheck : check .standard (sumCheck "Int, y: Int") = .ok [] := by
    decide +kernel
  refine ⟨rfl, tree, lambda, hwrapper, hlambda, hparams, fun hexact => ?_, hundeclared, ?_, hcheck⟩
  · have hy : "y" ∈ lambda.params.map (·.name) := by
      rw [hparams]
      decide
    exact hundeclared ((hexact.2 "y").mp hy).1
  · rw [hbody]
    decide

end ExprVet
