import ExprVet.Proofs.Boundaries
import ExprVet.Proofs.SnippetTokens
import ExprVet.Proofs.Splicing
import ExprVet.Proofs.Undeclared

/-!
# Places in snippets

Whatever text is validated, its wrapper is read and checked, and what is found is located inside the
text or not at all. Syntax errors and findings of the body are located by tokens of the wrapper, of
which the part inside the snippet is told. Findings about the header are located in front of the
snippet, so they are told without a place.
-/

namespace ExprVet

open Text

namespace Calc

/-- The span reaches from one of some tokens to the same token or one behind it. -/
def Reaches (read : List Lexeme) (span : Span) : Prop :=
  ∃ first rest last, (first :: rest).Sublist read ∧ last ∈ first :: rest ∧
    span = first.span.join last.span

theorem Reaches.mono {read more : List Lexeme} {span : Span} (h : Reaches read span)
    (hsublist : read.Sublist more) : Reaches more span := by
  obtain ⟨first, rest, last, hrest, hlast, rfl⟩ := h
  exact ⟨first, rest, last, hrest.trans hsublist, hlast, rfl⟩

theorem reaches_of_mem {read : List Lexeme} {lexeme : Lexeme} (h : lexeme ∈ read) :
    Reaches read lexeme.span :=
  ⟨lexeme, [], lexeme, List.singleton_sublist.mpr h, List.mem_cons_self, rfl⟩

theorem Reaches.cons_join {read : List Lexeme} {span : Span} (h : Reaches read span)
    (before : Lexeme) : Reaches (before :: read) (before.span.join span) := by
  obtain ⟨first, rest, last, hrest, hlast, rfl⟩ := h
  exact ⟨before, first :: rest, last, hrest.cons_cons before, List.mem_cons_of_mem _ hlast, rfl⟩

theorem Reaches.append_join {left right : List Lexeme} {first second : Span}
    (hleft : Reaches left first) (hright : Reaches right second) (between : Lexeme) :
    Reaches (left ++ between :: right) (first.join second) := by
  obtain ⟨lexeme, rest, _, hrest, -, rfl⟩ := hleft
  obtain ⟨lexeme', rest', last, hrest', hlast, rfl⟩ := hright
  refine ⟨lexeme, rest ++ lexeme' :: rest', last, ?_, ?_, rfl⟩
  · exact hrest.append (hrest'.cons between)
  · exact List.mem_cons_of_mem _ (List.mem_append_right _ hlast)

theorem exists_lastStop (first : Lexeme) (rest : List Lexeme) :
    ∃ last ∈ first :: rest, lastStop first.span.stop rest = last.span.stop := by
  induction rest generalizing first with
  | nil => exact ⟨first, List.mem_cons_self, rfl⟩
  | cons next rest ih =>
      obtain ⟨last, hmem, hlast⟩ := ih next
      exact ⟨last, List.mem_cons_of_mem _ hmem, hlast⟩

theorem reaches_stretch (first : Lexeme) (rest : List Lexeme) :
    Reaches (first :: rest) (stretch (first :: rest)) := by
  obtain ⟨last, hmem, hlast⟩ := exists_lastStop first rest
  exact ⟨first, rest, last, List.Sublist.refl _, hmem, by rw [stretch, hlast]; rfl⟩

theorem Reaches.bounded {read : List Lexeme} {span : Span} {text : List Char}
    (h : Reaches read span) (hread : ∀ lexeme ∈ read, lexeme.span.Bounded text) :
    span.Bounded text := by
  obtain ⟨first, rest, last, hrest, hlast, rfl⟩ := h
  exact (hread first (hrest.subset List.mem_cons_self)).join (hread last (hrest.subset hlast))

/-- The places of the expressions that tokens stand for. -/
def Phrase.spans : Phrase → List Span
  | .expr _ e => e.spans
  | .arguments args | .argumentList args => Expr.allSpans args

theorem forall_reaches_mono {read more : List Lexeme} {spans : List Span}
    (h : ∀ span ∈ spans, Reaches read span) (hsublist : read.Sublist more) :
    ∀ span ∈ spans, Reaches more span :=
  fun span hspan => (h span hspan).mono hsublist

theorem sublist_behind (left : List Lexeme) (between : Lexeme) (right : List Lexeme) :
    right.Sublist (left ++ between :: right) :=
  List.sublist_append_of_sublist_right (List.sublist_cons_self between right)

theorem reaches_joined {left right : List Lexeme} {first second : Expr}
    (hleft : ∀ span ∈ first.spans, Reaches left span)
    (hright : ∀ span ∈ second.spans, Reaches right span) (level : Level) (op : BinaryOp)
    (between : Lexeme) : ∀ span ∈ (Phrase.expr level (.joined op first second)).spans,
      Reaches (left ++ between :: right) span := by
  have hjoin := (hleft _ first.span_mem_spans).append_join (hright _ second.span_mem_spans) between
  simp only [Phrase.spans, Expr.joined, Expr.spans, List.forall_mem_cons, List.forall_mem_append]
  exact ⟨hjoin, forall_reaches_mono hleft (List.sublist_append_left _ _),
    forall_reaches_mono hright (sublist_behind left between right)⟩

/-- Every place in an expression reaches from one of its tokens to the same or a later one. -/
theorem Derives.reaches {read : List Lexeme} {phrase : Phrase} (h : Derives read phrase) :
    ∀ span ∈ phrase.spans, Reaches read span := by
  have hinside (before after : Lexeme) (read rest : List Lexeme) :
      read.Sublist (before :: (read ++ after :: rest)) :=
    (List.sublist_append_left _ _).cons before
  induction h with
  | operand _ ih | someArguments _ ih => exact ih
  | binary _ _ _ ihleft ihright => exact reaches_joined ihleft ihright _ _ _
  | comparison _ _ _ ihleft ihright => exact reaches_joined ihleft ihright _ _ _
  | @unary op before read e _ _ ih =>
      simp only [Phrase.spans, Expr.spans, List.forall_mem_cons]
      exact ⟨(ih _ (Expr.span_mem_spans _)).cons_join before,
        forall_reaches_mono ih (List.sublist_cons_self before read)⟩
  | literal | ident =>
      simp only [Phrase.spans, Expr.spans, List.forall_mem_singleton]
      exact reaches_of_mem List.mem_cons_self
  | call _ _ _ _ ih =>
      simp only [Phrase.spans, Expr.spans, List.forall_mem_cons]
      exact ⟨reaches_stretch _ _, reaches_of_mem List.mem_cons_self,
        forall_reaches_mono ih ((hinside _ _ _ _).cons _)⟩
  | conditional _ _ _ _ _ _ ihcondition ihthen ihelse =>
      simp only [Phrase.spans, Expr.spans, List.forall_mem_cons, List.forall_mem_append]
      refine ⟨reaches_stretch _ _, forall_reaches_mono ihcondition (hinside _ _ _ _),
        forall_reaches_mono ihthen ?_, forall_reaches_mono ihelse ?_⟩
      · exact ((List.sublist_append_left _ _).trans (sublist_behind _ _ _)).cons _
      · exact ((sublist_behind _ _ _).trans (sublist_behind _ _ _)).cons _
  | parenthesised _ _ _ ih => exact forall_reaches_mono ih (hinside _ _ _ _)
  | argument _ ih =>
      simp only [Phrase.spans, Expr.allSpans, List.append_nil]
      exact ih
  | noArguments =>
      intro span hspan
      cases hspan
  | moreArguments _ _ _ ihfirst ihrest =>
      simp only [Phrase.spans, Expr.allSpans, List.forall_mem_append]
      exact ⟨forall_reaches_mono ihfirst (List.sublist_append_left _ _),
        forall_reaches_mono ihrest (sublist_behind _ _ _)⟩
  | lastComma _ _ ih => exact forall_reaches_mono ih (List.sublist_append_left _ _)

section

variable {bindings : List Binding} {expected : SemanticType} {body : String} {tree : Tree}

/-- The source of a wrapper around the place of its snippet. -/
theorem toList_synthesize_append (bindings : List Binding) (expected : SemanticType)
    (body : String) : (synthesize bindings expected body).toList =
      (headerText bindings expected ++ ['\x7b']) ++ (body.toList ++ ['\x7d']) := by
  rw [toList_synthesize, List.append_assoc]
  rfl

theorem byteLength_header (bindings : List Binding) (expected : SemanticType) :
    byteLength (headerText bindings expected ++ ['\x7b']) = bodyStart bindings expected := by
  rw [byteLength_append]
  rfl

theorem isBoundary_bodySpan_stop (bindings : List Binding) (expected : SemanticType)
    (body : String) : IsBoundary (synthesize bindings expected body).toList
      (bodySpan bindings expected body).stop := by
  rw [toList_synthesize_append, ← List.append_assoc, bodySpan, ← byteLength_header,
    ← byteLength_append]
  exact isBoundary_byteLength (List.prefix_append _ _)

theorem ReadsBack.snippetSpan_eq (htree : ReadsBack bindings expected body tree) (span : Span) :
    tree.snippetSpan span = span.within (bodySpan bindings expected body) := by
  simp only [Tree.snippetSpan, htree.body_eq]

/-- What is told of a span of the source is inside the snippet. -/
theorem ReadsBack.inside (htree : ReadsBack bindings expected body tree) {span place : Span}
    (h : span.Bounded (synthesize bindings expected body).toList)
    (hplace : tree.snippetSpan span = some place) : place.Inside body := by
  rw [toList_synthesize_append] at h
  rw [htree.snippetSpan_eq, bodySpan, ← byteLength_header] at hplace
  exact h.inside hplace

theorem ReadsBack.bounded_of_mem_syntaxErrors (htree : ReadsBack bindings expected body tree)
    {error : SyntaxError} (h : error ∈ tree.syntaxErrors) :
    error.span.Bounded (synthesize bindings expected body).toList := by
  have hend := isBoundary_length (synthesize bindings expected body).toList
  rw [byteLength_toList] at hend
  rw [htree.errors_eq] at h
  exact bounded_of_mem_parseWrapper (isBoundary_bodySpan_stop bindings expected body) hend
    (fun lexeme hlexeme => bounded_of_mem_tokenize hlexeme) h

section

variable (hbindings : ∀ b ∈ bindings, b.WellNamed) (hexpected : expected.WellNamed)
  (htree : ReadsBack bindings expected body tree)
  (hwrapper : Tree.wrapper? (synthesize bindings expected body) = some tree)

include hbindings hexpected hwrapper in
/-- The header of a lambda is read from the header of the wrapper and its body from the snippet with
the brace behind it. -/
theorem exists_parts_of_lambda {lambda : Lambda} (hlambda : tree.lambda = some lambda) :
    ∃ parts, lambda.ReadFrom parts ∧
      tokenize (String.ofList (headerText bindings expected)) =
        parts.inParams ++ parts.arrow :: parts.inResult ∧
      withoutErrors (lexemes (bodyStart bindings expected) (body.toList ++ ['\x7d'])) =
        parts.inBody ++ [parts.closing] := by
  have hplain := plain_tokenize_header hbindings hexpected
  obtain ⟨-, parts, hparts, hread⟩ := exists_parts_of_wrapper? hwrapper hlambda
  rw [tokenize_synthesize hbindings hexpected,
    withoutErrors_append_of_plain fun lexeme hmem => (hplain lexeme hmem).1] at hparts
  obtain ⟨hheader, -, hbody⟩ := hread.brace_eq rfl hparts
  exact ⟨parts, hread, hheader, hbody⟩

include hbindings hexpected in
/-- The header of a wrapper stands in front of the snippet. -/
theorem start_lt_of_mem_header {lexeme : Lexeme}
    (h : lexeme ∈ tokenize (String.ofList (headerText bindings expected))) :
    lexeme.span.start < bodyStart bindings expected := by
  have htokens := tokenize_synthesize hbindings hexpected ""
  have hlexeme : lexeme ∈ tokenize (synthesize bindings expected "") := by simp [htokens, h]
  have horder := pairwise_lexemes 0 (synthesize bindings expected "").toList
  rw [← tokenize, htokens, List.pairwise_append] at horder
  have hbrace := horder.2.2 lexeme h _ List.mem_cons_self
  exact Nat.lt_succ_of_lt (Nat.lt_of_lt_of_le (start_lt_stop_of_mem_lexemes hlexeme) hbrace)

include hbindings hexpected hwrapper in
/-- What is found in a lambda is an unknown type, at a token of the header, or it is about the body
and reaches from one token of the snippet to another. -/
theorem exists_places_of_lambda (exports : Exports) {lambda : Lambda}
    (hlambda : tree.lambda = some lambda) :
    ∃ inBody closing, withoutErrors (lexemes (bodyStart bindings expected)
        (body.toList ++ ['\x7d'])) = inBody ++ [closing] ∧
      ∀ located ∈ checkLambda exports lambda,
        (located.At (fun span => ∃ lexeme ∈ tokenize (String.ofList (headerText bindings expected)),
          span.start = lexeme.span.start) ∧ located.finding.isAroundBody = true) ∨
        (located.At (Reaches inBody) ∧ located.finding.isAroundBody = false) := by
  obtain ⟨parts, hread, hheader, hbody⟩ :=
    exists_parts_of_lambda hbindings hexpected hwrapper hlambda
  refine ⟨parts.inBody, parts.closing, hbody, fun located h => ?_⟩
  have hparams : ∀ param ∈ lambda.params, ∀ span ∈ param.type.spans,
      ∃ lexeme ∈ tokenize (String.ofList (headerText bindings expected)),
        span.start = lexeme.span.start := by
    intro param hparam span hspan
    obtain ⟨lexeme, hlexeme, hstart⟩ := hread.params.starts hparam hspan
    exact ⟨lexeme, by simp [hheader, hlexeme], hstart⟩
  have hret : ∀ span ∈ lambda.ret.spans,
      ∃ lexeme ∈ tokenize (String.ofList (headerText bindings expected)),
        span.start = lexeme.span.start := by
    intro span hspan
    obtain ⟨lexeme, hlexeme, hstart⟩ := hread.ret.starts span hspan
    exact ⟨lexeme, by simp [hheader, hlexeme], hstart⟩
  obtain ⟨hat, path, hpath, -⟩ | hin :=
    header_or_body_of_mem_checkLambda hparams hret hread.body.reaches h
  · exact .inl ⟨hat, by rw [hpath]; rfl⟩
  · exact .inr hin

/-- How a finding is told that was made in a wrapper. -/
structure Located.Told (tree : Tree) (source : String) (located : Located) : Prop where
  /-- What is around the body has no place in the snippet. -/
  around : located.finding.isAroundBody = true → located.span.bind tree.snippetSpan = none
  /-- Everything else is located between characters of the source. -/
  bounded : located.finding.isAroundBody = false →
    ∀ span ∈ located.span, span.Bounded source.toList

include hbindings hexpected htree hwrapper

theorem told_of_mem_checkLambda {exports : Exports} {lambda : Lambda}
    (hlambda : tree.lambda = some lambda) {located : Located}
    (h : located ∈ checkLambda exports lambda) :
    located.Told tree (synthesize bindings expected body) := by
  obtain ⟨inBody, closing, hread, hplaces⟩ :=
    exists_places_of_lambda hbindings hexpected hwrapper exports hlambda
  obtain ⟨⟨span, hspan, lexeme, hlexeme, hstart⟩, haround⟩ | ⟨⟨span, hspan, hreaches⟩, hbody⟩ :=
    hplaces located h
  · have hbefore : span.start < (bodySpan bindings expected body).start :=
      hstart ▸ start_lt_of_mem_header hbindings hexpected hlexeme
    constructor
    · intro _
      rw [hspan, Option.bind_some, htree.snippetSpan_eq, Span.within_eq_none hbefore]
    · intro hbody
      rw [haround] at hbody
      cases hbody
  · constructor
    · intro haround
      rw [hbody] at haround
      cases haround
    · intro _ place hplace
      rw [hspan] at hplace
      cases hplace
      apply hreaches.bounded
      intro lexeme hlexeme
      have hinBody : lexeme ∈ withoutErrors (lexemes (bodyStart bindings expected)
          (body.toList ++ ['\x7d'])) := by simp [hread, hlexeme]
      apply bounded_of_mem_tokenize
      rw [tokenize_synthesize hbindings hexpected]
      exact List.mem_append_right _ (List.mem_cons_of_mem _ (List.mem_of_mem_filter hinBody))

theorem told_of_mem_findings {modules : List ModuleInfo} {imports : List String}
    {located : Located} (h : located ∈ findings tree modules imports) :
    located.Told tree (synthesize bindings expected body) := by
  simp only [findings, List.append_assoc, List.mem_append, List.mem_map] at h
  rcases h with ⟨error, herror, rfl⟩ | ⟨name, -, rfl⟩ | h
  · constructor
    · intro haround
      cases haround
    · rintro - _ ⟨⟩
      exact htree.bounded_of_mem_syntaxErrors herror
  · constructor
    · intro _
      rfl
    · intro hbody
      cases hbody
  · cases hlambda : tree.lambda with
    | none => simp [hlambda] at h
    | some lambda =>
        rw [hlambda] at h
        exact told_of_mem_checkLambda hbindings hexpected htree hwrapper hlambda h

/-- A diagnostic of a wrapper is located inside the snippet, unless it is about the header or the
imports. Then it is not located. -/
theorem places_of_mem_check {modules : List ModuleInfo} {imports : List String} {d : Diagnostic}
    (h : d ∈ check tree modules imports) :
    (∀ span ∈ d.span, span.Inside body) ∧ (d.code = "E002" ∨ d.code = "W400" → d.span = none) := by
  obtain ⟨located, hlocated, rfl⟩ := List.mem_map.mp h
  have htold := told_of_mem_findings hbindings hexpected htree hwrapper hlocated
  constructor
  · intro place hplace
    obtain ⟨span, hspan, hinside⟩ := Option.bind_eq_some_iff.mp hplace
    cases haround : located.finding.isAroundBody with
    | true => exact absurd hplace (by simp [Located.toDiagnostic, htold.around haround])
    | false => exact htree.inside (htold.bounded haround span hspan) hinside
  · intro hcode
    exact htold.around ((Finding.isAroundBody_iff_code _).mpr hcode)

end

end

end Calc

/-- An error has the place of its diagnostic or none. -/
theorem Translator.span_of_mem_translate {translator : Translator} {diagnostics : List Diagnostic}
    {error : ValidationError} (h : error ∈ translator.translate diagnostics) {span : Span}
    (hspan : span ∈ error.span) : ∃ d ∈ diagnostics, span ∈ d.span := by
  obtain ⟨d, hmem, hd⟩ := List.mem_filterMap.mp h
  refine ⟨d, hmem, ?_⟩
  simp only [translateOne] at hd
  split at hd <;> cases hd
  all_goals
    cases translator with
    | plain => cases hspan
    | located => exact hspan

namespace Validator

/-- A snippet whose types are well named is compiled and validated without a failure, whatever its
text, its host and the cache. Every place that is told is inside the text, between characters of
it; findings about unknown types and missing namespaces are told without a place. -/
theorem places_inside (validator : Validator) (cache : ReferenceCache) (request : Request)
    (htypes : ∀ b ∈ request.descriptor.bindings, b.type.WellNamed)
    (hexpected : request.expected.WellNamed) :
    ∃ compiled errors, (validator.compile cache request).1 = .ok compiled ∧
      (validator.validate cache request).1 = .ok errors ∧
      (∀ d ∈ compiled.diagnostics, ∀ span ∈ d.span, span.Inside request.text) ∧
      (∀ d ∈ compiled.diagnostics, d.code = "E002" ∨ d.code = "W400" → d.span = none) ∧
      ∀ error ∈ errors, ∀ span ∈ error.span, span.Inside request.text := by
  have hbindings : ∀ b ∈ request.descriptor.bindings, b.WellNamed := by
    intro b hmem
    exact Descriptor.wellNamed_of_mem_bindings htypes hmem
  obtain ⟨tree, hwrapper, htree⟩ :=
    Calc.exists_wrapper_synthesize hbindings hexpected request.text
  have hsource : Calc.Tree.wrapper? request.descriptor.wrapper = some tree := hwrapper
  simp only [validate, compile, Request.compile_eq, hsource, Except.map]
  have hplaces {modules : List ModuleInfo} {imports : List String} {d : Diagnostic}
      (hd : d ∈ Calc.check tree modules imports) :=
    Calc.places_of_mem_check hbindings hexpected htree hwrapper hd
  refine ⟨_, _, rfl, rfl, fun d hd => (hplaces hd).1, fun d hd => (hplaces hd).2, ?_⟩
  intro error herror span hspan
  obtain ⟨d, hd, hspan⟩ := Translator.span_of_mem_translate herror hspan
  exact (hplaces hd).1 span hspan

/-- A snippet with a bad character and a string literal that nothing ends, both beyond ASCII. -/
def accentedRequest : Request :=
  ⟨⟨["net"], []⟩, fun name => if name = "x" then some .integer else none, .integer, "x é \"é"⟩

/-- The literal takes in the brace that closes the wrapper but is told without it. What is missing
at the end of the source is not in the snippet. -/
theorem accentedRequest_places :
    ∃ compiled errors,
      (Validator.compile ⟨⟨[], 0, 0⟩, [], .located⟩ ⟨[]⟩ accentedRequest).1 = .ok compiled ∧
      (Validator.validate ⟨⟨[], 0, 0⟩, [], .located⟩ ⟨[]⟩ accentedRequest).1 = .ok errors ∧
      compiled.diagnostics.map (fun d => (d.code, d.span)) =
        [("E001", some ⟨2, 4⟩), ("E001", some ⟨5, 8⟩), ("E001", none), ("W400", none)] ∧
      (∀ d ∈ compiled.diagnostics, ∀ span ∈ d.span, span.Inside accentedRequest.text) ∧
      (∀ d ∈ compiled.diagnostics, d.code = "E002" ∨ d.code = "W400" → d.span = none) ∧
      ∀ error ∈ errors, ∀ span ∈ error.span, span.Inside accentedRequest.text := by
  have htypes : ∀ b ∈ accentedRequest.descriptor.bindings, b.type.WellNamed := by
    intro b hmem
    have htype := environment_of_mem_resolveNames hmem
    obtain ⟨-, htype⟩ := Option.ite_none_right_eq_some.mp htype
    rw [← Option.some.inj htype]
    exact wellNamed_integer
  have hfound : ((Validator.compile ⟨⟨[], 0, 0⟩, [], .located⟩ ⟨[]⟩ accentedRequest).1.toOption.map
      fun compiled => compiled.diagnostics.map fun d => (d.code, d.span)) =
        some [("E001", some ⟨2, 4⟩), ("E001", some ⟨5, 8⟩), ("E001", none), ("W400", none)] := by
    decide +kernel
  obtain ⟨compiled, errors, hcompiled, herrors, hplaces⟩ :=
    places_inside ⟨⟨[], 0, 0⟩, [], .located⟩ ⟨[]⟩ accentedRequest htypes wellNamed_integer
  rw [hcompiled] at hfound
  exact ⟨compiled, errors, hcompiled, herrors, Option.some.inj hfound, hplaces⟩

end Validator

end ExprVet
