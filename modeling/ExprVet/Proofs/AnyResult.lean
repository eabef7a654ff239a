import ExprVet.Proofs.Acceptance
import ExprVet.Proofs.Growth
import ExprVet.Proofs.Layout
import ExprVet.Proofs.Rereading

/-!
# Everything converts to any

The expected type of a snippet is used three times: it is written into the header, it is what the
body has to convert to, and its modules are attached. Written as any, it leaves the tokens before
and behind it alone, provided that no quote in the header makes a string literal of them. Everything
converts to it. Only its modules are other ones, and they have to provide for the variables.
-/

namespace ExprVet

open Text

namespace Calc

/-- The tokens of a wrapper without quotes in its header: those of the parameters, the arrow, those
of the result, a brace, and those of the snippet with a brace behind it. -/
theorem exists_tokenize_of_no_quote {bindings : List Binding} {expected : SemanticType}
    (hquote : '"' ∉ headerText bindings expected) (body : String) :
    ∃ arrow start, arrow.token = .arrow ∧ tokenize (synthesize bindings expected body) =
      lexemes 0 (paramsText bindings) ++ arrow :: (lexemes start expected.calcText.toList ++
        openingBrace bindings expected ::
          lexemes (bodyStart bindings expected) (body.toList ++ ['\x7d'])) := by
  simp only [headerText, List.mem_append, not_or] at hquote
  obtain ⟨hparams, -, hresult, -⟩ := hquote
  obtain ⟨arrow, harrow, hread⟩ := exists_tokenize_of_no_quote_params hparams expected body
  refine ⟨arrow, byteLength (paramsText bindings) + byteLength " -> ".toList, harrow,
    hread.trans ?_⟩
  have hapart : ∀ d ∈ (' ' :: '\x7b' :: (body.toList ++ ['\x7d'])).head?, Apart d := by
    intro d hd
    cases hd
    decide
  have hoffset : byteLength (paramsText bindings) + byteLength " -> ".toList +
      byteLength expected.calcText.toList + Char.utf8Size ' ' =
        byteLength (headerText bindings expected) := by
    simp only [headerText, byteLength_append, byteLength_cons, byteLength_nil]
    omega
  rw [lexemes_append hapart (not_endsUnterminated_of_no_quote hresult _),
    lexemes_separator (by decide), lexemes_token rfl rfl, hoffset]
  rfl

/-- Texts that are read in one place are read in another. -/
def Relocation.shift (first second : Nat) : Relocation :=
  ⟨fun place => place - first + second, fun place => place - first + second⟩

theorem move_lexemes (first second : Nat) (cs : List Char) :
    move (.shift first second) (lexemes first cs) = lexemes second cs := by
  rw [lexemes_eq_map_shift first, lexemes_eq_map_shift second]
  refine List.map_map.trans (List.map_congr_left fun lexeme _ => ?_)
  have hplace (place : Nat) : first + place - first + second = second + place := by omega
  exact congrArg (Lexeme.mk _ _) (congrArg₂ Span.mk (hplace _) (hplace _))

/-- A wrapper without syntax errors has no error tokens, and all its tokens are read as a lambda. -/
theorem exists_yields_of_no_errors {source : String} {tree : Tree}
    (hwrapper : Tree.wrapper? source = some tree) (herrors : tree.syntaxErrors = []) :
    (∀ lexeme ∈ tokenize source, lexeme.token ≠ .error) ∧ ∃ lambda after,
      tree.lambda = some lambda ∧ Parser.lambda.Yields ⟨0, tokenize source⟩ lambda after ∧
        after.rest = [] := by
  simp only [Tree.wrapper?, Option.bind_eq_bind, Option.bind_eq_some_iff] at hwrapper
  obtain ⟨body, -, htree⟩ := hwrapper
  obtain rfl := Option.some.inj htree
  obtain ⟨parse, hparse, -, hsome⟩ :=
    parseWrapper_cases body.stop source.utf8ByteSize (tokenize source)
  have happend := hparse.symm.trans herrors
  rw [List.append_eq_nil_iff, List.map_eq_nil_iff] at happend
  have hplain : ∀ lexeme ∈ tokenize source, lexeme.token ≠ .error := by
    simpa [List.filter_eq_nil_iff] using happend.1
  obtain ⟨lambda, hlambda⟩ := Option.isSome_iff_exists.mp (hsome.mp happend.2)
  obtain ⟨after, hyields, hafter⟩ := parseWrapper_fst hlambda
  rw [withoutErrors_of_plain hplain] at hyields
  exact ⟨hplain, lambda, after, hlambda, hyields, hafter⟩

/-- What is read as an expression once is read as the same expression every time. -/
theorem gives_expr_of_yields {stop stop' : Nat} {read rest : List Lexeme} {e : Expr}
    (h : Parser.expr.Yields ⟨stop, read ++ rest⟩ e ⟨stop', rest⟩)
    (hcloses : Closes (firstToken? rest)) :
    Parser.expr.Gives ⟨stop, read ++ rest⟩ (some (e, ⟨stop', rest⟩)) := by
  obtain ⟨own, hreads, hderives⟩ := Parser.sound_expr h
  obtain rfl : read = own := List.append_cancel_right hreads.rest
  obtain ⟨found, place, -, hgives⟩ :=
    Parser.accepts_expr (Derives.scans hderives) read stop rest rfl hcloses
  rw [hgives.eq_of_yields h] at hgives
  exact hgives

theorem Parser.Moves.yields {α : Type} [Movable α] {m : Relocation} {p q : Parser α}
    (h : Moves m p q) {cursor after : Cursor} {value : α} (hyields : p.Yields cursor value after) :
    q.Yields (move m cursor) (move m value) (move m after) := by
  obtain ⟨pending, hrun⟩ := hyields
  refine ⟨move m pending, ?_⟩
  rw [h cursor pending]
  exact congrArg (move m) hrun

/-- The text of the parameters is read as certain parameters, whatever follows it. -/
structure ParamsReadAs (bindings : List Binding) (params : List Param) : Prop where
  plain : ∀ lexeme ∈ lexemes 0 (paramsText bindings),
    lexeme.token ≠ .error ∧ lexeme.token ≠ .lbrace
  accepts : (Parser.orElse Parser.noParameters Parser.parameters).Accepts (fun _ => True)
    ((lexemes 0 (paramsText bindings)).map (·.token)) (List.Forall₂ Param.Like params)

/-- A snippet with a brace behind it is read at some place as an expression. -/
def BodyReadAs (start : Nat) (body : String) (e : Expr) : Prop :=
  ∃ inBody closing stop, lexemes start (body.toList ++ ['\x7d']) = inBody ++ [closing] ∧
    (∀ lexeme ∈ inBody, lexeme.token ≠ .error) ∧ closing.token = .rbrace ∧
    Parser.expr.Gives ⟨start, inBody ++ [closing]⟩ (some (e, ⟨stop, [closing]⟩))

theorem BodyReadAs.elsewhere {first : Nat} {body : String} {e : Expr} (h : BodyReadAs first body e)
    (second : Nat) : BodyReadAs second body (move (.shift first second) e) := by
  obtain ⟨inBody, closing, stop, hread, hplain, hclosing, hgives⟩ := h
  let m : Relocation := .shift first second
  have hstart : m.stop first = second := by
    simp [m, Relocation.shift]
  have hyields : Parser.expr.Yields ⟨first, inBody ++ [closing]⟩ e ⟨stop, [closing]⟩ :=
    ⟨none, hgives none⟩
  have hmoved := (Parser.moves_expr : Parser.Moves m _ _).yields hyields
  change Parser.expr.Yields ⟨m.stop first, move m (inBody ++ [closing])⟩ _
    ⟨m.stop stop, [move m closing]⟩ at hmoved
  rw [hstart, move_append] at hmoved
  have hclosing' : (move m closing).token = .rbrace := hclosing
  refine ⟨move m inBody, move m closing, m.stop stop, ?_, ?_, hclosing',
    gives_expr_of_yields hmoved (closes_cons hclosing' (by simp) [])⟩
  · rw [← move_lexemes first second, hread, move_append]
    rfl
  · exact List.forall_mem_map.mpr hplain

section

variable {bindings : List Binding} {expected : SemanticType} {body : String}
  (hquote : '"' ∉ headerText bindings expected)

include hquote

theorem exists_lambda_reads {tree : Tree}
    (hwrapper : Tree.wrapper? (synthesize bindings expected body) = some tree)
    (herrors : tree.syntaxErrors = []) :
    ∃ lambda, tree.lambda = some lambda ∧ ParamsReadAs bindings lambda.params ∧
      BodyReadAs (bodyStart bindings expected) body lambda.body := by
  obtain ⟨hplain, lambda, after, hlambda, hyields, hafter⟩ :=
    exists_yields_of_no_errors hwrapper herrors
  obtain ⟨parts, stop, hparts, hread, haccepts, hbody⟩ := Parser.rereads_lambda hyields
  obtain ⟨arrow, start, harrow, htokens⟩ := exists_tokenize_of_no_quote hquote body
  rw [hafter] at hbody
  rw [hafter, List.append_nil] at hparts
  -- the parts of the lambda are those of the text
  have hsplit := htokens.symm.trans hparts
  have hinParams := hread.inParams_eq harrow hsplit
  rw [← List.cons_append, ← List.append_assoc] at hsplit
  obtain ⟨-, hopened, hinBody⟩ := hread.brace_eq rfl hsplit
  rw [htokens, hinBody] at hplain
  simp only [List.forall_mem_append, List.forall_mem_cons] at hplain
  obtain ⟨hplainParams, -, -, -, hplainBody, -⟩ := hplain
  have hcloses : Closes (firstToken? [parts.closing]) := closes_cons hread.closing (by simp) []
  rw [← hopened] at hbody
  refine ⟨lambda, hlambda, ⟨fun lexeme hmem => ⟨hplainParams lexeme hmem, ?_⟩, ?_⟩, parts.inBody,
    parts.closing, stop, hinBody, hplainBody, hread.closing, gives_expr_of_yields hbody hcloses⟩
  · rw [hinParams] at hmem
    exact (hread.params.declared.plain lexeme hmem).2
  · rw [hinParams]
    exact haccepts

theorem exists_tree_of_reads {params : List Param} {e : Expr} (hexpected : expected.WellNamed)
    (hparams : ParamsReadAs bindings params)
    (hbody : BodyReadAs (bodyStart bindings expected) body e) :
    ∃ tree params' ret, Tree.wrapper? (synthesize bindings expected body) = some tree ∧
      tree.syntaxErrors = [] ∧
      tree.lambda = some ⟨params', ret, e, bodyStart bindings expected⟩ ∧
      List.Forall₂ Param.Like params params' ∧ ret.tree = expected.tree := by
  obtain ⟨arrow, start, harrow, htokens⟩ := exists_tokenize_of_no_quote hquote body
  obtain ⟨inBody, closing, stop, hinBody, hplainBody, hclosing, hgivesBody⟩ := hbody
  -- the result is read as it is written
  obtain ⟨inResult, hresult⟩ := exists_typeTokens expected hexpected
  obtain ⟨readResult, hreadResult, hlexes⟩ := hresult.written.lexes [] ends_nil start
  rw [List.append_nil, lexemes_nil, List.append_nil] at hlexes
  have hplainResult : ∀ lexeme ∈ readResult, lexeme.token ≠ .error ∧ lexeme.token ≠ .lbrace := by
    intro lexeme hmem
    exact hresult.written.plain _ (hreadResult ▸ List.mem_map_of_mem hmem)
  rw [hlexes, hinBody] at htokens
  -- the parts make the lambda
  have hends : EndsType (firstToken? (openingBrace bindings expected :: (inBody ++ [closing]))) :=
    ⟨by simp [firstToken?, openingBrace], by simp [firstToken?, openingBrace]⟩
  obtain ⟨params', stop1, hlike, hgivesParams⟩ := hparams.accepts _ 0 _ rfl trivial
  obtain ⟨ret, stop2, hret, hgivesRet⟩ :=
    hresult.spelt.type readResult arrow.span.stop _ hreadResult hends
  have hrun := Parser.run_of_gives
    (Parser.gives_lambda hgivesParams harrow hgivesRet rfl hgivesBody hclosing)
  have hplain : ∀ lexeme ∈ tokenize (synthesize bindings expected body), lexeme.token ≠ .error := by
    rw [htokens]
    simp only [List.forall_mem_append, List.forall_mem_cons, harrow, hclosing]
    exact ⟨fun lexeme hmem => (hparams.plain lexeme hmem).1, by simp,
      fun lexeme hmem => (hplainResult lexeme hmem).1, by simp [openingBrace], hplainBody, by simp,
      List.forall_mem_nil _⟩
  have hheader : ∀ lexeme ∈ lexemes 0 (paramsText bindings) ++ arrow :: readResult,
      lexeme.token ≠ .lbrace := by
    simp only [List.forall_mem_append, List.forall_mem_cons, harrow]
    exact ⟨fun lexeme hmem => (hparams.plain lexeme hmem).2, by simp,
      fun lexeme hmem => (hplainResult lexeme hmem).2⟩
  have hbodySpan := bodySpan?_of_header body
    (htokens.trans (by rw [List.append_assoc, List.cons_append])) hheader
  obtain ⟨tree, hwrapper, htree⟩ := exists_wrapper_of_bodySpan? body hbodySpan
  have hparse := htree.parse_eq hplain
  rw [htokens, hrun] at hparse
  obtain ⟨hlambda, herrors⟩ := Prod.mk.inj hparse
  exact ⟨tree, params', ret, hwrapper, herrors, hlambda, hlike, hret⟩

end

@[simp] theorem noError_move (m : Relocation) (found : List Located) :
    NoError (move m found) ↔ NoError found := List.forall_mem_map

theorem declare_of_like {exports : Exports} {params params' : List Param}
    (hlike : List.Forall₂ Param.Like params params') {declared : Variables}
    (h : (declare exports declared params).2 = []) :
    declare exports declared params' = declare exports declared params := by
  induction hlike generalizing declared with
  | nil => rfl
  | @cons param param' _ _ hsame _ ih =>
      simp only [declare, List.append_eq_nil_iff] at h ⊢
      have hdenotes := denotes_of_resolveType param.type h.1
      have hdenotes' := hdenotes.transfer (fun _ => id) hsame.2
      rw [resolveType_of_denotes _ hdenotes', resolveType_of_denotes _ hdenotes, hsame.1, ih h.2]

theorem resolveType_any {exports : Exports} {ref : TypeRef}
    (h : ref.tree = SemanticType.object.tree) : resolveType exports ref = (.any, []) := by
  obtain ⟨path, args, span⟩ := ref
  obtain ⟨rfl, hargs⟩ := TypeTree.node.inj h
  obtain rfl : args = [] := by simpa [TypeRef.trees_eq_map, SemanticType.trees] using hargs
  exact resolveType_of_primitive span rfl

theorem assignable_any (exports : Exports) (type : ValueType) :
    exports.assignable type .any = true := by
  cases type <;> rfl

/-- A body without errors converts to any, by exports that provide for its variables. -/
theorem noError_checkLambda_any {first later : Exports} {lambda : Lambda}
    (hprovide : first.ProvideFor later lambda.params)
    (hfound : NoError (checkLambda first lambda)) {params : List Param} {ret : TypeRef}
    (hlike : List.Forall₂ Param.Like lambda.params params)
    (hret : ret.tree = SemanticType.object.tree) (m : Relocation) (offset : Nat) :
    NoError (checkLambda later ⟨params, ret, move m lambda.body, offset⟩) := by
  simp only [checkLambda, checkBody, noError_append] at hfound
  obtain ⟨⟨hinParams, -⟩, ⟨hinfer, -⟩, -⟩ := hfound
  have hparams := hinParams.eq_nil (onlyUnknownTypes_declare [] lambda.params)
  obtain ⟨hdeclare, hbody⟩ := hprovide.infer_eq hparams hinfer.clean
  have hknown : (declare later [] lambda.params).2 = [] := by rw [hdeclare, hparams]
  rw [← hbody] at hinfer
  have hnote (notes : Bool) (span : Span) :
      NoError (if notes then [] else [Finding.constant.at span]) := by
    cases notes <;> simp [NoError, Finding.at, Finding.severity]
  simp only [checkLambda, declare_of_like hlike hknown, hknown, resolveType_any hret,
    checkBody_move, noError_append, noError_move]
  refine ⟨⟨noError_nil, noError_nil⟩, ?_⟩
  simp only [checkBody, noError_append, assignable_any]
  exact ⟨⟨hinfer, noError_nil⟩, hnote _ _⟩

/-- Only what is missed in the source and what is found in the lambda is worse than a warning. -/
theorem noError_findings_iff (tree : Tree) (modules : List ModuleInfo) (imports : List String) :
    NoError (findings tree modules imports) ↔ tree.syntaxErrors = [] ∧
      ∀ lambda, tree.lambda = some lambda → NoError (checkLambda (.ofModules modules) lambda) := by
  have hparsed : NoError (tree.syntaxErrors.map fun error =>
      (Finding.syntaxError error.message).at error.span) ↔ tree.syntaxErrors = [] := by
    simp [NoError, Finding.at, Finding.severity, List.eq_nil_iff_forall_not_mem]
  have hmissing : NoError ((imports.filter (· ∉ (Surroundings.ofModules modules).namespaces)).map
      fun name => ⟨.missingNamespace name, none⟩) :=
    List.forall_mem_map.mpr fun _ _ => by simp [Finding.severity]
  simp only [findings, noError_append, hparsed, hmissing, and_true]
  apply and_congr_right'
  cases tree.lambda with
  | none => simp
  | some lambda => exact ⟨fun h _ hsome => Option.some.inj hsome ▸ h, fun h => h lambda rfl⟩

theorem wellNamed_object : SemanticType.object.WellNamed :=
  ⟨isPath_intercalate (List.cons_ne_nil "core" ["Object"]) (by decide +kernel), trivial⟩

/-- A snippet without errors has none when it is expected to be any, with modules that provide for
its variables. -/
theorem exists_check_any {bindings : List Binding} {expected : SemanticType} {body : String}
    {tree : Tree} {modules others : List ModuleInfo} {imports : List String}
    (hquote : '"' ∉ headerText bindings expected)
    (hwrapper : Tree.wrapper? (synthesize bindings expected body) = some tree)
    (hclean : ∀ d ∈ check tree modules imports, d.severity ≠ .error)
    (hprovide : ∀ lambda, tree.lambda = some lambda →
      (Exports.ofModules modules).ProvideFor (.ofModules others) lambda.params) :
    ∃ tree', Tree.wrapper? (synthesize bindings .object body) = some tree' ∧
      ∀ d ∈ check tree' others imports, d.severity ≠ .error := by
  have hfound : NoError (findings tree modules imports) :=
    fun located hmem => hclean _ (List.mem_map_of_mem hmem)
  obtain ⟨herrors, hinLambda⟩ := (noError_findings_iff ..).mp hfound
  have hquote' : '"' ∉ headerText bindings .object := by
    rw [headerText, List.mem_append, not_or] at hquote ⊢
    exact ⟨hquote.1, by decide +kernel⟩
  obtain ⟨lambda, hlambda, hparams, hbody⟩ := exists_lambda_reads hquote hwrapper herrors
  obtain ⟨tree', params, ret, hwrapper', herrors', hlambda', hlike, hret⟩ :=
    exists_tree_of_reads hquote' wellNamed_object hparams (hbody.elsewhere _)
  have hany := noError_checkLambda_any (hprovide lambda hlambda) (hinLambda lambda hlambda) hlike
    hret (.shift (bodyStart bindings expected) (bodyStart bindings .object))
    (bodyStart bindings .object)
  have hfound' : NoError (findings tree' others imports) := by
    rw [noError_findings_iff, hlambda']
    exact ⟨herrors', fun lambda hsome => Option.some.inj hsome ▸ hany⟩
  exact ⟨tree', hwrapper', List.forall_mem_map.mpr hfound'⟩

end Calc

/-- Only errors are told as more than warnings. -/
theorem Translator.forall_isWarning_iff (translator : Translator) (found : List Diagnostic) :
    (∀ error ∈ translator.translate found, error.isWarning = true) ↔
      ∀ d ∈ found, d.severity ≠ .error := by
  have hone (d : Diagnostic) : (∀ error, translator.translateOne d = some error →
      error.isWarning = true) ↔ d.severity ≠ .error := by
    rcases d with ⟨_ | _ | _ | _, _, _, _⟩ <;> simp [translateOne]
  simp only [translate, List.mem_filterMap, forall_exists_index, and_imp]
  rw [forall_comm]
  exact forall_congr' fun d => forall_comm.trans (forall_congr' fun _ => hone d)

namespace Service

/-- The types that are exported where a request is checked. -/
def exports (service : Service) (request : Request) : Calc.Exports :=
  .ofModules (service.attached request)

/-- What is told of a snippet is what it was compiled to. -/
theorem answer_eq_of_compile {service : Service} {request : Request} {compiled : Compiled}
    (h : (service.validator.compile service.cache request).1 = .ok compiled) :
    service.answer request = .ok (service.validator.translator.translate compiled.diagnostics) := by
  have hanswer : service.answer request = (service.validator.compile service.cache request).1.map
      fun compiled => service.validator.translator.translate compiled.diagnostics := rfl
  rw [hanswer, h]
  rfl

/-- Everything converts to any: a snippet that is answered with no more than warnings is answered so
when it is expected to be any, whatever calls are between. This is so when no quote stands in the
header, and when the modules that are attached then provide for the parameters as those did that
were attached before. -/
theorem answer_any_of_answer (service : Service) (between : List Call) {request : Request}
    {errors : List ValidationError}
    (hquote : '"' ∉ Calc.headerText request.descriptor.bindings request.expected)
    (hanswer : service.answer request = .ok errors)
    (hclean : ∀ error ∈ errors, error.isWarning = true)
    (hprovide : ∀ compiled lambda,
      (service.validator.compile service.cache request).1 = .ok compiled →
      compiled.lambda = some lambda →
      (service.exports request).ProvideFor
        (service.exports { request with expected := .object }) lambda.params) :
    ∃ errors', (service.serveAll between).answer { request with expected := .object } =
        .ok errors' ∧
      ∀ error ∈ errors', error.isWarning = true := by
  obtain ⟨tree, hwrapper⟩ : ∃ tree, Calc.Tree.wrapper? request.descriptor.wrapper = some tree := by
    apply Option.ne_none_iff_exists'.mp
    intro hnone
    rw [answer_eq_map, Request.compile_eq, hnone] at hanswer
    cases hanswer
  obtain ⟨compiled, hcompiled, hlambda, hfound⟩ := service.exists_compiled hwrapper
  rw [answer_eq_of_compile hcompiled] at hanswer
  obtain rfl := Except.ok.inj hanswer
  rw [Translator.forall_isWarning_iff, hfound] at hclean
  obtain ⟨tree', hwrapper', hclean'⟩ := Calc.exists_check_any hquote hwrapper hclean
    fun lambda h => hprovide compiled lambda hcompiled (hlambda.trans h)
  -- the snippet has the same variables, and the calls between attach nothing
  have hsource : Calc.Tree.wrapper? { request with expected := .object }.descriptor.wrapper =
      some tree' :=
    hwrapper'
  obtain ⟨compiled', hcompiled', -, hfound'⟩ := (service.serveAll between).exists_compiled hsource
  rw [attached_serveAll] at hfound'
  refine ⟨_, answer_eq_of_compile hcompiled', ?_⟩
  rw [Translator.forall_isWarning_iff, hfound']
  exact hclean'

/-- A square that is returned as it is, in an activity that declares some modules. -/
def squareRequest (modules : List ModuleId) : Request :=
  let square : SemanticType := .named "geo.Square" "geo"
  ⟨⟨[], modules⟩, fun name => if name = "s" then some square else none, square, "s"⟩

theorem squareRequest_answer_any_of_answer :
    let service := start SemanticType.squareCatalog .standard
    let request := squareRequest ["geo"]
    '"' ∉ Calc.headerText request.descriptor.bindings request.expected ∧
    service.answer request = .ok [] ∧
    (∀ error ∈ ([] : List ValidationError), error.isWarning = true) ∧
    (∀ params, (service.exports request).ProvideFor
      (service.exports { request with expected := .object }) params) ∧
    ∃ errors', (service.serveAll [.validate request]).answer { request with expected := .object } =
        .ok errors' ∧
      ∀ error ∈ errors', error.isWarning = true := by
  intro service request
  have hquote : '"' ∉ Calc.headerText request.descriptor.bindings request.expected := by
    decide +kernel
  have hanswer : service.answer request = .ok [] := by
    decide +kernel
  have hexports : service.exports { request with expected := .object } =
      service.exports request := by
    decide +kernel
  have hprovide (params : List Calc.Param) : (service.exports request).ProvideFor
      (service.exports { request with expected := .object }) params := by
    rw [hexports]
    exact ⟨fun _ _ _ => id, fun _ _ => id, fun _ _ _ => id⟩
  exact ⟨hquote, hanswer, nofun, hprovide, answer_any_of_answer service [.validate request] hquote
    hanswer nofun fun _ lambda _ _ => hprovide lambda.params⟩

/-- A snippet that is a quote, expected to be of a type that opens a string literal before it. -/
def quoteRequest : Request :=
  ⟨.none, fun _ => none, .named "Str \x7b\"" coreModule, "\""⟩

/-- A square is unknown as any where only its own module exports it, and a quote in a header can
make a snippet of what is none. -/
theorem squareRequest_not_any :
    let service := start SemanticType.squareCatalog .standard
    let asAny (request : Request) := { request with expected := SemanticType.object }
    (service.answer (squareRequest []) = .ok [] ∧
      service.answer (asAny (squareRequest [])) =
        .ok [⟨"E002: " ++ (Calc.Finding.unknownType "geo.Square").message, false, none⟩]) ∧
    service.answer quoteRequest = .ok [] ∧
      service.answer (asAny quoteRequest) =
        .ok [⟨"E001: unterminated string literal", false, none⟩,
          ⟨"E001: found end of input expected expression", false, none⟩] := by
  decide +kernel

end Service

end ExprVet
