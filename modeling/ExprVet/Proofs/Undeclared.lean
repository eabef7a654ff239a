import ExprVet.Proofs.References
import ExprVet.Proofs.Wrapper

/-!
# Undeclared variables of snippets

The discovery of a snippet and the lambda of its wrapper are two readings of the same tokens. Every
variable of the body is a name of the discovery, so it is declared if the environment resolves it,
and what is reported of the others are their places in the snippet.
-/

namespace ExprVet

open Text

/-- A part of the body lies in the body. -/
theorem Span.Selects.within_shift {span : Span} {text part : List Char}
    (h : span.Selects text part) (start : Nat) :
    (span.shift start).within ⟨start, start + byteLength text⟩ = some span := by
  obtain ⟨before, after, rfl, rfl⟩ := h
  have hinside : ¬ (start + byteLength before < start ∨
      start + byteLength (before ++ (part ++ after)) < start + byteLength before) := by
    simp only [byteLength_append]
    omega
  have hstop : max (start + byteLength before)
      (min (start + (byteLength before + byteLength part))
        (start + byteLength (before ++ (part ++ after)))) - start =
      byteLength before + byteLength part := by
    simp only [byteLength_append]
    omega
  simp only [Span.within, Span.shift, if_neg hinside, hstop, Nat.add_sub_cancel_left]

theorem environment_of_mem_resolveNames {environment : String → Option SemanticType}
    {names : List String} {b : Binding} (h : b ∈ resolveNames environment names) :
    environment b.name = some b.type := by
  obtain ⟨name, -, hb⟩ := List.mem_filterMap.mp h
  obtain ⟨type, htype, rfl⟩ := Option.map_eq_some_iff.mp hb
  exact htype

/-- The names that get a binding are those that the environment resolves. -/
theorem mem_map_name_resolveNames {environment : String → Option SemanticType}
    {names : List String} {name : String} :
    name ∈ (resolveNames environment names).map (·.name) ↔
      name ∈ names ∧ (environment name).isSome := by
  simp only [resolveNames, List.mem_map, List.mem_filterMap, Option.map_eq_some_iff,
    Option.isSome_iff_exists]
  constructor
  · rintro ⟨binding, ⟨found, hmem, type, htype, rfl⟩, rfl⟩
    exact ⟨hmem, type, htype⟩
  · rintro ⟨hmem, type, htype⟩
    exact ⟨⟨name, type⟩, ⟨name, hmem, type, htype, rfl⟩, rfl⟩

namespace Calc

/-- The variables of a snippet with their places in it. -/
def variablesOf (text : String) : List Occurrence := freeNames (withoutErrors (tokenize text))

/-- Each variable stands in the snippet where it is said to. -/
theorem selects_of_mem_variablesOf {text : String} {o : Occurrence} (h : o ∈ variablesOf text) :
    o.2.Selects text.toList o.1.toList := by
  obtain ⟨lexeme, hmem, hident, hspan, -⟩ := mem_nodesOf_of_mem_freeNames h
  obtain ⟨span, hselects, hshift⟩ := selects_of_mem_lexemes hmem
  rw [(text_of_ident hmem hident).1] at hselects
  have hzero : span.shift 0 = span := by
    simp only [Span.shift, Nat.zero_add]
  rw [← hspan, hshift, hzero]
  exact hselects

/-- Each variable is among the identifiers of the discovery. -/
theorem mem_identifiers_of_mem_variablesOf {text : String} {o : Occurrence}
    (h : o ∈ variablesOf text) : o.1 ∈ (Tree.discovery text).identifiers := by
  obtain ⟨lexeme, hmem, hident, -, hnode⟩ := mem_nodesOf_of_mem_freeNames h
  have htext : String.ofList lexeme.text = o.1 := by
    rw [(text_of_ident hmem hident).1, String.ofList_toList]
  rw [htext] at hnode
  rw [Tree.identifiers, List.mem_eraseDups, List.mem_map]
  refine ⟨_, List.mem_filter.mpr ⟨List.mem_cons_of_mem _ hnode, rfl⟩, rfl⟩

theorem exists_lexeme_of_mem_nodesOf {lexemes : List Lexeme} {node : Node}
    (h : node ∈ Tree.nodesOf lexemes) :
    ∃ lexeme ∈ lexemes, ∃ following, node.kind = NodeKind.classify lexeme.token following ∧
      node.text = String.ofList lexeme.text := by
  induction lexemes with
  | nil => cases h
  | cons lexeme rest ih =>
      rcases List.mem_cons.mp h with rfl | h
      · exact ⟨lexeme, List.mem_cons_self, _, rfl, rfl⟩
      · obtain ⟨found, hmem, hfound⟩ := ih h
        exact ⟨found, List.mem_cons_of_mem _ hmem, hfound⟩

/-- A discovered name can be written as the name of a parameter. -/
theorem isIdentifier_of_mem_identifiers {text name : String}
    (h : name ∈ (Tree.discovery text).identifiers) : IsIdentifier name.toList := by
  rw [Tree.identifiers, List.mem_eraseDups, List.mem_map] at h
  obtain ⟨node, hnode, rfl⟩ := h
  obtain ⟨hmem, hkind⟩ := List.mem_filter.mp hnode
  have hkind : node.kind = .identifier := eq_of_beq hkind
  rcases List.mem_cons.mp hmem with rfl | hmem
  · cases hkind
  · obtain ⟨lexeme, hlexeme, following, hclass, htext⟩ := exists_lexeme_of_mem_nodesOf hmem
    rw [hclass] at hkind
    obtain ⟨⟨name, hident⟩, -⟩ := classify_eq_identifier_iff.mp hkind
    obtain ⟨hname, hidentifier⟩ := text_of_ident hlexeme hident
    rw [htext, hname, String.ofList_toList]
    exact hidentifier

section

variable {bindings : List Binding} {expected : SemanticType} {body : String} {tree : Tree}
  {lambda : Lambda}

/-- A variable of the snippet is located where it stands in the snippet. -/
theorem ReadsBack.undeclaredDiagnostic_shift (htree : ReadsBack bindings expected body tree)
    {o : Occurrence} (h : o ∈ variablesOf body) :
    undeclaredDiagnostic tree (o.1, o.2.shift (bodyStart bindings expected)) =
      ⟨.error, "E100", (Finding.undeclared o.1).message, some o.2⟩ := by
  have hplace : tree.snippetSpan (o.2.shift (bodyStart bindings expected)) = some o.2 := by
    simp only [Tree.snippetSpan, htree.body_eq]
    exact (selects_of_mem_variablesOf h).within_shift _
  rw [undeclaredDiagnostic, hplace]

/-- The undeclared variables that are reported of a wrapper are those of the snippet without a
binding. -/
theorem ReadsBack.filter_undeclared_check (htree : ReadsBack bindings expected body tree)
    (h : tree.lambda = some lambda)
    (hdeclares : List.Forall₂ Param.Declares bindings lambda.params)
    (hoccurrences : lambda.body.occurrences = (variablesOf body).map fun o =>
      (o.1, o.2.shift (bodyStart bindings expected)))
    (modules : List ModuleInfo) (imports : List String) :
    (check tree modules imports).filter (·.code == "E100") =
      ((variablesOf body).filter fun o => o.1 ∉ bindings.map (·.name)).map fun o =>
        ⟨.error, "E100", (Finding.undeclared o.1).message, some o.2⟩ := by
  have hnames : lambda.params.map (·.name) = bindings.map (·.name) :=
    map_eq_map_of_forall₂ hdeclares fun _ _ hname => hname.1
  rw [Calc.filter_undeclared_check h, hnames, hoccurrences, List.filter_map, List.map_map]
  apply List.map_congr_left
  intro o hmem
  exact htree.undeclaredDiagnostic_shift (List.mem_filter.mp hmem).1

end

end Calc

namespace Descriptor

/-- The bindings of a snippet are well named if their types are. -/
theorem wellNamed_of_mem_bindings {descriptor : Descriptor}
    (htypes : ∀ b ∈ descriptor.bindings, b.type.WellNamed) {b : Binding}
    (h : b ∈ descriptor.bindings) : b.WellNamed := by
  refine ⟨?_, htypes b h⟩
  have hname : b.name ∈ descriptor.bindings.map (·.name) := List.mem_map_of_mem h
  exact Calc.isIdentifier_of_mem_identifiers (mem_map_name_resolveNames.mp hname).1

/-- A variable is left without a binding just if the environment does not resolve it. -/
theorem not_mem_map_name_bindings_iff {descriptor : Descriptor} {o : Calc.Occurrence}
    (h : o ∈ Calc.variablesOf descriptor.text) :
    o.1 ∉ descriptor.bindings.map (·.name) ↔ (descriptor.environment o.1).isNone := by
  have hidentifier := Calc.mem_identifiers_of_mem_variablesOf h
  rw [bindings, mem_map_name_resolveNames, Option.isNone_iff_eq_none,
    ← Option.not_isSome_iff_eq_none]
  exact not_congr (and_iff_right hidentifier)

end Descriptor

namespace Validator

/-- A compilation reports as undeclared exactly the variables of the parsed body that the
environment does not resolve, from left to right, each with its place in the snippet. -/
theorem undeclared_eq_unresolved (validator : Validator) (cache : ReferenceCache)
    (request : Request) {lambda : Calc.Lambda}
    (htypes : ∀ b ∈ request.descriptor.bindings, b.type.WellNamed)
    (hexpected : request.expected.WellNamed)
    (hlambda : (Calc.Tree.wrapper? request.descriptor.wrapper).bind (·.lambda) = some lambda) :
    ∃ compiled, (validator.compile cache request).1 = .ok compiled ∧
      ∃ places : List Calc.Occurrence,
        lambda.body.occurrences = places.map (fun o => (o.1, o.2.shift lambda.bodyOffset)) ∧
        (∀ o ∈ places, o.2.Selects request.text.toList o.1.toList) ∧
        compiled.diagnostics.filter (·.code == "E100") =
          (places.filter fun o => (request.environment o.1).isNone).map fun o =>
            ⟨.error, "E100", (Calc.Finding.undeclared o.1).message, some o.2⟩ := by
  have hbindings : ∀ b ∈ request.descriptor.bindings, b.WellNamed := by
    intro b hmem
    exact Descriptor.wellNamed_of_mem_bindings htypes hmem
  obtain ⟨tree, hwrapper, htree⟩ :=
    Calc.exists_wrapper_synthesize hbindings hexpected request.text
  have hsource : Calc.Tree.wrapper? request.descriptor.wrapper = some tree := hwrapper
  rw [hsource] at hlambda
  have hreads := htree.readsFrom hbindings hexpected request.text hlambda
  have hoccurrences := hreads.occurrences_eq
  simp only [compile, Request.compile_eq, hsource]
  refine ⟨_, rfl, Calc.variablesOf request.text, ?_, ?_, ?_⟩
  · rw [hreads.offset_eq]
    exact hoccurrences
  · intro o hmem
    exact Calc.selects_of_mem_variablesOf hmem
  · rw [htree.filter_undeclared_check hlambda hreads.declares hoccurrences]
    congr 1
    apply List.filter_congr
    intro o hmem
    rw [Bool.eq_iff_iff, decide_eq_true_iff]
    exact Descriptor.not_mem_map_name_bindings_iff hmem

/-- A snippet with a bad character, a declared variable and a variable that is not. -/
def scaledRequest : Request :=
  ⟨.none, fun name => if name = "x" then some .integer else none, .integer, "x @ + y * f(y)"⟩

/-- The variables of this snippet are found although a character of it is bad. -/
theorem scaledRequest_undeclared :
    ∃ lambda compiled,
      (Calc.Tree.wrapper? scaledRequest.descriptor.wrapper).bind (·.lambda) = some lambda ∧
      (Validator.compile ⟨⟨[], 0, 0⟩, [], .located⟩ ⟨[]⟩ scaledRequest).1 = .ok compiled ∧
      ∃ places : List Calc.Occurrence,
        lambda.body.occurrences = places.map (fun o => (o.1, o.2.shift lambda.bodyOffset)) ∧
        (∀ o ∈ places, o.2.Selects scaledRequest.text.toList o.1.toList) ∧
        compiled.diagnostics.filter (·.code == "E100") =
          (places.filter fun o => (scaledRequest.environment o.1).isNone).map fun o =>
            ⟨.error, "E100", (Calc.Finding.undeclared o.1).message, some o.2⟩ := by
  have hlambda :
      ((Calc.Tree.wrapper? scaledRequest.descriptor.wrapper).bind (·.lambda)).isSome := by
    decide +kernel
  obtain ⟨lambda, hlambda⟩ := Option.isSome_iff_exists.mp hlambda
  have htypes : ∀ b ∈ scaledRequest.descriptor.bindings, b.type.WellNamed := by
    intro b hmem
    have htype := environment_of_mem_resolveNames hmem
    obtain ⟨-, htype⟩ := Option.ite_none_right_eq_some.mp htype
    rw [← Option.some.inj htype]
    exact wellNamed_integer
  obtain ⟨compiled, hok, hplaces⟩ := undeclared_eq_unresolved ⟨⟨[], 0, 0⟩, [], .located⟩ ⟨[]⟩
    scaledRequest htypes wellNamed_integer hlambda
  exact ⟨lambda, compiled, hlambda, hok, hplaces⟩

end Validator

end ExprVet
