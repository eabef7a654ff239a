import ExprVet.Proofs.Header
import ExprVet.Proofs.Joining
import ExprVet.Proofs.LambdaSyntax
import ExprVet.Proofs.Variables

/-!
# Wrappers read again

A wrapper is read as its header, a brace, the snippet and a brace. The first brace is the one of the
header, so the body of the tree is the snippet; if a lambda is read, its header is the one that was
written and its body derives from tokens of the snippet.
-/

namespace ExprVet.Calc

open Text

/-- Where the snippet begins in its wrapper. -/
def bodyStart (bindings : List Binding) (expected : SemanticType) : Nat :=
  byteLength (headerText bindings expected) + 1

def bodySpan (bindings : List Binding) (expected : SemanticType) (body : String) : Span :=
  ⟨bodyStart bindings expected, bodyStart bindings expected + byteLength body.toList⟩

/-- The opening brace of a wrapper. -/
def openingBrace (bindings : List Binding) (expected : SemanticType) : Lexeme :=
  ⟨.lbrace, ['\x7b'], ⟨byteLength (headerText bindings expected), bodyStart bindings expected⟩⟩

theorem getLast?_synthesize (bindings : List Binding) (expected : SemanticType) (body : String) :
    (synthesize bindings expected body).toList.getLast? = some '\x7d' := by
  rw [toList_synthesize, ← List.cons_append, ← List.append_assoc]
  exact List.getLast?_concat

theorem utf8ByteSize_synthesize (bindings : List Binding) (expected : SemanticType)
    (body : String) : (synthesize bindings expected body).utf8ByteSize =
      bodyStart bindings expected + byteLength body.toList + 1 := by
  have hopen : Char.utf8Size '\x7b' = 1 := rfl
  have hclose : Char.utf8Size '\x7d' = 1 := rfl
  rw [← byteLength_toList, toList_synthesize]
  simp only [byteLength_append, byteLength_cons, byteLength_nil, bodyStart]
  omega

section

variable {bindings : List Binding} {expected : SemanticType}
  (hbindings : ∀ b ∈ bindings, b.WellNamed) (hexpected : expected.WellNamed) (body : String)

include hbindings hexpected in
/-- The tokens of a wrapper: those of its header, a brace and those of the snippet with a brace
behind it. -/
theorem exists_tokenize_synthesize :
    ∃ inParams inResult header, ParamsTokens bindings inParams ∧ TypeTokens expected inResult ∧
      header.map (·.token) = inParams ++ .arrow :: inResult ∧
      tokenize (synthesize bindings expected body) =
        header ++ openingBrace bindings expected ::
          lexemes (bodyStart bindings expected) (body.toList ++ ['\x7d']) := by
  obtain ⟨inParams, hparams⟩ := exists_paramsTokens hbindings
  obtain ⟨inResult, hresult⟩ := exists_typeTokens expected hexpected
  obtain ⟨header, htokens, hread⟩ :=
    lexes_header hparams hresult ('\x7b' :: (body.toList ++ ['\x7d'])) 0
  refine ⟨inParams, inResult, header, hparams, hresult, htokens, ?_⟩
  rw [tokenize, toList_synthesize, hread, lexemes_token rfl rfl]
  simp only [Nat.zero_add]
  rfl

theorem header_plain {inParams inResult : List Token} {header : List Lexeme}
    (hparams : ParamsTokens bindings inParams) (hresult : TypeTokens expected inResult)
    (hheader : header.map (·.token) = inParams ++ .arrow :: inResult) :
    ∀ lexeme ∈ header, lexeme.token ≠ .error ∧ lexeme.token ≠ .lbrace := by
  intro lexeme hmem
  have htoken : lexeme.token ∈ inParams ++ .arrow :: inResult := by
    rw [← hheader]
    exact List.mem_map_of_mem hmem
  rcases List.mem_append.mp htoken with htoken | htoken
  · exact hparams.plain _ htoken
  · rcases List.mem_cons.mp htoken with htoken | htoken
    · rw [htoken]
      exact ⟨by simp, by simp⟩
    · exact hresult.written.plain _ htoken

omit hbindings hexpected in
/-- The body of a wrapper is the snippet where no brace is read before it. -/
theorem bodySpan?_of_header {header rest : List Lexeme}
    (htokens : tokenize (synthesize bindings expected body) =
      header ++ openingBrace bindings expected :: rest)
    (hheader : ∀ lexeme ∈ header, lexeme.token ≠ .lbrace) :
    Tree.bodySpan? (synthesize bindings expected body)
      (tokenize (synthesize bindings expected body)) = some (bodySpan bindings expected body) := by
  have hfind : (tokenize (synthesize bindings expected body)).find? (·.token == .lbrace) =
      some (openingBrace bindings expected) := by
    rw [htokens, List.find?_append, List.find?_cons_of_pos rfl]
    have hnone : header.find? (·.token == .lbrace) = none := by
      rw [List.find?_eq_none]
      intro lexeme hmem
      simpa using hheader lexeme hmem
    rw [hnone]
    rfl
  have hle : (openingBrace bindings expected).span.stop ≤
      (synthesize bindings expected body).utf8ByteSize - 1 := by
    rw [utf8ByteSize_synthesize]
    exact Nat.le_add_right _ _
  simp only [Tree.bodySpan?, hfind, Option.bind_eq_bind, Option.bind_some]
  rw [if_pos ⟨getLast?_synthesize bindings expected body, hle⟩, utf8ByteSize_synthesize]
  rfl

include hbindings hexpected in
theorem bodySpan?_synthesize :
    Tree.bodySpan? (synthesize bindings expected body)
      (tokenize (synthesize bindings expected body)) = some (bodySpan bindings expected body) := by
  obtain ⟨inParams, inResult, header, hparams, hresult, hheader, htokens⟩ :=
    exists_tokenize_synthesize hbindings hexpected body
  exact bodySpan?_of_header body htokens fun lexeme hmem =>
    (header_plain hparams hresult hheader lexeme hmem).2

/-- What is known of a tree that was read from a wrapper. -/
structure ReadsBack (bindings : List Binding) (expected : SemanticType) (body : String)
    (tree : Tree) : Prop where
  body_eq : tree.body = some (bodySpan bindings expected body)
  lambda_eq : tree.lambda =
    (parseWrapper (bodySpan bindings expected body).stop
      (synthesize bindings expected body).utf8ByteSize
      (tokenize (synthesize bindings expected body))).1
  errors_eq : tree.syntaxErrors =
    (parseWrapper (bodySpan bindings expected body).stop
      (synthesize bindings expected body).utf8ByteSize
      (tokenize (synthesize bindings expected body))).2

omit hbindings hexpected in
theorem exists_wrapper_of_bodySpan? (h : Tree.bodySpan? (synthesize bindings expected body)
      (tokenize (synthesize bindings expected body)) = some (bodySpan bindings expected body)) :
    ∃ tree, Tree.wrapper? (synthesize bindings expected body) = some tree ∧
      ReadsBack bindings expected body tree := by
  simp only [Tree.wrapper?, h, Option.bind_eq_bind, Option.bind_some]
  exact ⟨_, rfl, rfl, rfl, rfl⟩

include hbindings hexpected in
theorem exists_wrapper_synthesize :
    ∃ tree, Tree.wrapper? (synthesize bindings expected body) = some tree ∧
      ReadsBack bindings expected body tree :=
  exists_wrapper_of_bodySpan? body (bodySpan?_synthesize hbindings hexpected body)

theorem parseWrapper_fst {close sourceEnd : Nat} {lexemes : List Lexeme} {lambda : Lambda}
    (h : (parseWrapper close sourceEnd lexemes).1 = some lambda) :
    ∃ after, Parser.lambda.Yields ⟨0, withoutErrors lexemes⟩ lambda after ∧ after.rest = [] := by
  have hgood : (lexemes.partition (·.token == .error)).2 = withoutErrors lexemes := by
    rw [List.partition_eq_filter_filter]
    rfl
  simp only [parseWrapper, hgood] at h
  split at h
  · rename_i found hrun
    cases h
    simp only [Parser.run] at hrun
    split at hrun
    · rename_i value last pending hwhole
      cases hrun
      obtain ⟨first, middle, hfirst, hrest⟩ := Parser.yields_bind ⟨none, by rw [hwhole]⟩
      obtain ⟨_, last, hend, hpure⟩ := Parser.yields_bind hrest
      obtain ⟨rfl, -⟩ := Parser.yields_pure hpure
      exact ⟨middle, hfirst, Parser.yields_endOfInput hend⟩
    · cases hrun
  · cases h

/-- A lambda behind a header: it declares the bindings, returns a type of the expected shape and
has for its body an expression that derives from the tokens up to a closing brace. -/
structure Lambda.ReadsFrom (bindings : List Binding) (expected : SemanticType) (offset : Nat)
    (body : List Lexeme) (lambda : Lambda) : Prop where
  declares : List.Forall₂ Param.Declares bindings lambda.params
  ret_eq : lambda.ret.tree = expected.tree
  offset_eq : lambda.bodyOffset = offset
  derives : ∃ read closing, DerivesAt .disjunction read lambda.body ∧
    closing.token = .rbrace ∧ body = read ++ [closing]

/-- A lambda that takes all tokens has the parameters and the result of the header. -/
theorem readsFrom_of_yields {inParams inResult : List Token}
    (hparams : ParamsTokens bindings inParams) (hresult : TypeTokens expected inResult)
    {readParams readResult rest : List Lexeme} {arrow brace : Lexeme} {start : Nat}
    (hreadParams : readParams.map (·.token) = inParams)
    (hreadResult : readResult.map (·.token) = inResult) (hbrace : brace.token = .lbrace)
    {lambda : Lambda} {after : Cursor}
    (h : Parser.lambda.Yields ⟨start, readParams ++ arrow :: (readResult ++ brace :: rest)⟩ lambda
      after) (hafter : after.rest = []) :
    lambda.ReadsFrom bindings expected brace.span.stop rest := by
  obtain ⟨params, ret, body, offset⟩ := lambda
  obtain ⟨_, _, closing, _, _, _, _, _, -, -, hclosing, hyieldsParams, hyieldsRet, hoffset,
    hyieldsBody, -⟩ := Parser.yields_lambda h
  -- what is read of the header is what its tokens are accepted for
  obtain ⟨params', stop, hdeclares, hgives⟩ :=
    hparams.accepts readParams start _ hreadParams trivial
  cases hgives.eq_of_yields hyieldsParams
  have hfollow : EndsType (firstToken? (brace :: rest)) := by
    simp [EndsType, firstToken?, hbrace]
  obtain ⟨ret', stop', hret, hgives⟩ :=
    hresult.spelt.type readResult arrow.span.stop (brace :: rest) hreadResult hfollow
  cases hgives.eq_of_yields hyieldsRet
  -- the rest is the body and the closing brace
  obtain ⟨read, hread, hderives⟩ := Parser.sound_expr hyieldsBody
  refine ⟨hdeclares, hret, hoffset, read, closing, hderives, hclosing, ?_⟩
  rw [← hafter]
  exact hread.rest

theorem withoutErrors_of_plain {lexemes : List Lexeme}
    (h : ∀ lexeme ∈ lexemes, lexeme.token ≠ .error) : withoutErrors lexemes = lexemes := by
  apply List.filter_eq_self.mpr
  intro lexeme hmem
  simpa using h lexeme hmem

theorem withoutErrors_append_of_plain {header rest : List Lexeme}
    (h : ∀ lexeme ∈ header, lexeme.token ≠ .error) :
    withoutErrors (header ++ rest) = header ++ withoutErrors rest := by
  rw [withoutErrors, List.filter_append]
  exact congrArg (· ++ withoutErrors rest) (withoutErrors_of_plain h)

include hbindings hexpected in
/-- The lambda of a wrapper reads back what the wrapper was made of. -/
theorem ReadsBack.readsFrom {tree : Tree} (htree : ReadsBack bindings expected body tree)
    {lambda : Lambda} (h : tree.lambda = some lambda) :
    lambda.ReadsFrom bindings expected (bodyStart bindings expected) (withoutErrors
      (lexemes (bodyStart bindings expected) (body.toList ++ ['\x7d']))) := by
  obtain ⟨inParams, inResult, header, hparams, hresult, hheader, htokens⟩ :=
    exists_tokenize_synthesize hbindings hexpected body
  have hplain := header_plain hparams hresult hheader
  rw [htree.lambda_eq] at h
  obtain ⟨after, hyields, hafter⟩ := parseWrapper_fst h
  rw [htokens, withoutErrors_append_of_plain fun lexeme hmem => (hplain lexeme hmem).1] at hyields
  obtain ⟨readParams, header, rfl, hreadParams, hheader⟩ := List.map_eq_append_iff.mp hheader
  obtain ⟨arrow, readResult, rfl, -, hreadResult⟩ := List.map_eq_cons_iff.mp hheader
  have hbrace (rest : List Lexeme) : withoutErrors (openingBrace bindings expected :: rest) =
      openingBrace bindings expected :: withoutErrors rest := rfl
  rw [hbrace, List.append_assoc, List.cons_append] at hyields
  exact readsFrom_of_yields hparams hresult hreadParams hreadResult rfl hyields hafter

theorem withoutErrors_map_shift (offset : Nat) (lexemes : List Lexeme) :
    withoutErrors (lexemes.map (Lexeme.shift offset)) =
      (withoutErrors lexemes).map (Lexeme.shift offset) := by
  rw [withoutErrors, List.filter_map]
  rfl

/-- A brace behind a snippet adds no variable to it. -/
theorem freeNames_of_append_brace {offset : Nat} {text : List Char} {read : List Lexeme}
    {closing : Lexeme} (hclosing : closing.token = .rbrace)
    (h : withoutErrors (lexemes offset (text ++ ['\x7d'])) = read ++ [closing]) :
    freeNames read = freeNames (withoutErrors (lexemes offset text)) := by
  rcases lexemes_append_brace offset text with hbrace |
    ⟨before, last, longer, hlast, hlonger, herror, herror', -⟩
  · have hkeep : withoutErrors [closingBrace (offset + byteLength text)] =
        [closingBrace (offset + byteLength text)] := rfl
    rw [hbrace, withoutErrors, List.filter_append, ← withoutErrors, ← withoutErrors, hkeep] at h
    obtain ⟨hread, -⟩ := List.append_inj' h rfl
    rw [hread]
  · -- the literal that takes in the brace is set aside, so the tokens end in a brace of the snippet
    have hdrop (error : Lexeme) (h : error.token = .error) :
        withoutErrors (before ++ [error]) = withoutErrors before := by
      simp [withoutErrors, h]
    have hjoint : Joint closing.token := joint_of_mem (by simp [hclosing])
    rw [hlonger, hdrop longer herror'] at h
    rw [hlast, hdrop last herror, h, freeNames_concat_joint hjoint]

/-- The variables of a body are those among the tokens of the snippet, read on its own. -/
theorem Lambda.ReadsFrom.occurrences_eq {lambda : Lambda} {offset : Nat} {text : List Char}
    (h : lambda.ReadsFrom bindings expected offset
      (withoutErrors (lexemes offset (text ++ ['\x7d'])))) :
    lambda.body.occurrences = (freeNames (withoutErrors (lexemes 0 text))).map fun o =>
      (o.1, o.2.shift offset) := by
  obtain ⟨read, closing, hderives, hclosing, hread⟩ := h.derives
  calc
    lambda.body.occurrences = freeNames read := hderives.occurrences_eq
    _ = freeNames (withoutErrors (lexemes offset text)) :=
      freeNames_of_append_brace hclosing hread
    _ = freeNames ((withoutErrors (lexemes 0 text)).map (Lexeme.shift offset)) := by
      rw [← withoutErrors_map_shift, ← lexemes_add, Nat.add_zero]
    _ = _ := freeNames_map_shift offset _

include hbindings hexpected in
/-- The wrapper of a snippet is read as what it was made for, whatever the snippet. Its body is the
snippet with the place where it was written. If it has a lambda, this declares the names in their
order, with types of the same names and arguments, and starts its body where the snippet starts. -/
theorem wrapper_reads_as_written :
    ∃ tree before, Tree.wrapper? (synthesize bindings expected body) = some tree ∧
      (synthesize bindings expected body).toList = before ++ (body.toList ++ ['\x7d']) ∧
      tree.body = some ⟨byteLength before, byteLength before + byteLength body.toList⟩ ∧
      ∀ lambda, tree.lambda = some lambda →
        lambda.params.map (·.name) = bindings.map (·.name) ∧
        lambda.params.map (·.type.tree) = bindings.map (·.type.tree) ∧
        lambda.ret.tree = expected.tree ∧
        lambda.bodyOffset = byteLength before := by
  obtain ⟨tree, hwrapper, htree⟩ := exists_wrapper_synthesize hbindings hexpected body
  have hstart : byteLength (headerText bindings expected ++ ['\x7b']) =
      bodyStart bindings expected := by
    rw [byteLength_append]
    rfl
  refine ⟨tree, headerText bindings expected ++ ['\x7b'], hwrapper, ?_, ?_, ?_⟩
  · rw [toList_synthesize, List.append_assoc]
    rfl
  · rw [hstart]
    exact htree.body_eq
  · intro lambda hlambda
    have hreads := htree.readsFrom hbindings hexpected body hlambda
    rw [hstart]
    exact ⟨map_eq_map_of_forall₂ hreads.declares fun _ _ hdeclares => hdeclares.1,
      map_eq_map_of_forall₂ hreads.declares fun _ _ hdeclares => hdeclares.2,
      hreads.ret_eq, hreads.offset_eq⟩

end

/-- `coll.Map<core.Integer, coll.Map<core.Integer>>` -/
def nestedMap : SemanticType :=
  ⟨"coll.Map", "coll", [.integer, ⟨"coll.Map", "coll", [.integer], []⟩], []⟩

theorem wellNamed_nestedMap : nestedMap.WellNamed := by
  have hpath : IsPath "coll.Map" :=
    isPath_intercalate (List.cons_ne_nil "coll" ["Map"]) (by decide +kernel)
  exact ⟨hpath, wellNamed_integer, ⟨hpath, wellNamed_integer, trivial⟩, trivial⟩

/-- A header with nested arguments, whose brackets stand side by side, and a body that starts with
a brace in a string literal. -/
theorem nestedMap_reads_as_written :
    ∃ tree before lambda,
      Tree.wrapper? (synthesize [⟨"m", nestedMap⟩, ⟨"n", .integer⟩] nestedMap "f(\"\x7b\", m, n)") =
        some tree ∧
      tree.lambda = some lambda ∧
      (synthesize [⟨"m", nestedMap⟩, ⟨"n", .integer⟩] nestedMap "f(\"\x7b\", m, n)").toList =
        before ++ ("f(\"\x7b\", m, n)".toList ++ ['\x7d']) ∧
      tree.body = some ⟨byteLength before, byteLength before + 12⟩ ∧
      lambda.params.map (·.name) = ["m", "n"] ∧
      lambda.params.map (·.type.tree) = [nestedMap.tree, .node "Int" []] ∧
      lambda.ret.tree = nestedMap.tree ∧
      lambda.bodyOffset = byteLength before := by
  have hbindings : ∀ b ∈ [(⟨"m", nestedMap⟩ : Binding), ⟨"n", .integer⟩], b.WellNamed := by
    intro b hmem
    simp only [List.mem_cons, List.not_mem_nil, or_false] at hmem
    rcases hmem with rfl | rfl
    · exact ⟨by decide +kernel, wellNamed_nestedMap⟩
    · exact ⟨by decide +kernel, wellNamed_integer⟩
  have hlambda : ((Tree.wrapper? (synthesize [⟨"m", nestedMap⟩, ⟨"n", .integer⟩] nestedMap
      "f(\"\x7b\", m, n)")).bind (·.lambda)).isSome = true := by
    decide +kernel
  obtain ⟨tree, before, hwrapper, hsource, hbody, hheader⟩ :=
    wrapper_reads_as_written hbindings wellNamed_nestedMap "f(\"\x7b\", m, n)"
  rw [hwrapper] at hlambda
  obtain ⟨lambda, hlambda⟩ := Option.isSome_iff_exists.mp hlambda
  exact ⟨tree, before, lambda, hwrapper, hlambda, hsource, hbody, hheader lambda hlambda⟩

end ExprVet.Calc
