import ExprVet.Proofs.Nesting
import ExprVet.Proofs.RelocatedChecks
import ExprVet.Proofs.ReturnTypes

/-!
# Layout does not matter

Snippets with the same words, in whatever layout, are wrapped behind the same header. The tokens of
one wrapper are those of the other one in other places. So both are parsed and checked alike, and
what is found is told at corresponding tokens.
-/

namespace ExprVet

open Text

namespace Calc

/-- A token with its text, wherever it stands. -/
def Lexeme.word (lexeme : Lexeme) : Token × List Char := (lexeme.token, lexeme.text)

/-- The tokens of a snippet with their texts, without anything between them. -/
def words (snippet : String) : List (Token × List Char) := (tokenize snippet).map Lexeme.word

/-- Tokens in a row can be moved to any other places. -/
theorem exists_relocation {xs ys : List Lexeme} (hwords : xs.map Lexeme.word = ys.map Lexeme.word)
    (hstart : ∀ lexeme ∈ xs, lexeme.span.start < lexeme.span.stop)
    (horder : xs.Pairwise fun first second => first.span.stop ≤ second.span.start) :
    ∃ m : Relocation, m.stop 0 = 0 ∧ ys = move m xs := by
  induction xs generalizing ys with
  | nil => exact ⟨⟨id, id⟩, rfl, List.map_eq_nil_iff.mp hwords.symm⟩
  | cons x xs ih =>
      obtain ⟨y, ys, rfl, hword, hrest⟩ := List.map_eq_cons_iff.mp hwords.symm
      rw [List.forall_mem_cons] at hstart
      rw [List.pairwise_cons] at horder
      obtain ⟨m, hzero, rfl⟩ := ih hrest.symm hstart.2 horder.2
      refine ⟨⟨Function.update m.start x.span.start y.span.start,
        Function.update m.stop x.span.stop y.span.stop⟩, ?_, ?_⟩
      · exact (Function.update_of_ne (Nat.ne_of_lt (Nat.zero_lt_of_lt hstart.1)) _ _).trans hzero
      · obtain ⟨htoken, htext⟩ := Prod.mk.inj hword
        rw [move_cons]
        congr 1
        · obtain ⟨token, text, start, stop⟩ := y
          simp only [move, Function.update_self] at htoken htext ⊢
          rw [htoken, htext]
        · apply List.map_congr_left
          intro lexeme hmem
          have hbehind := horder.1 lexeme hmem
          have hown := hstart.2 lexeme hmem
          simp only [move]
          rw [Function.update_of_ne (by omega), Function.update_of_ne (by omega)]

instance : Movable Node := ⟨fun m node => { node with span := move m node.span }⟩

theorem nodesOf_move (m : Relocation) (tokens : List Lexeme) :
    Tree.nodesOf (move m tokens) = move m (Tree.nodesOf tokens) := by
  induction tokens with
  | nil => rfl
  | cons lexeme rest ih =>
      rw [move_cons]
      simp only [Tree.nodesOf, move_cons, ih]
      cases rest <;> rfl

theorem identifiers_eq_of_words {first second : String} (h : words first = words second) :
    (Tree.discovery second).identifiers = (Tree.discovery first).identifiers := by
  obtain ⟨hstart, horder⟩ := start_lt_and_pairwise_lexemes 0 first.toList
  obtain ⟨m, -, hmoved⟩ := exists_relocation h hstart horder
  have hnodes : Tree.nodesOf (tokenize second) = move m (Tree.nodesOf (tokenize first)) := by
    rw [hmoved, ← nodesOf_move]
  have hkinds : ((Tree.nodesOf (tokenize second)).filter (·.kind == .identifier)).map (·.text) =
      ((Tree.nodesOf (tokenize first)).filter (·.kind == .identifier)).map (·.text) := by
    rw [hnodes]
    exact (congrArg _ List.filter_map).trans List.map_map
  exact congrArg List.eraseDups hkinds

section

variable {bindings : List Binding} {expected : SemanticType} {first second : String}
  (hbindings : ∀ b ∈ bindings, b.WellNamed) (hexpected : expected.WellNamed)

include hbindings hexpected

/-- The tokens of a wrapper around a snippet without error tokens. -/
theorem tokenize_synthesize_of_plain {body : String}
    (hplain : ∀ lexeme ∈ tokenize body, lexeme.token ≠ .error) :
    tokenize (synthesize bindings expected body) =
      tokenize (String.ofList (headerText bindings expected)) ++ openingBrace bindings expected ::
        ((tokenize body).map (Lexeme.shift (bodyStart bindings expected)) ++
          [closingBrace (bodySpan bindings expected body).stop]) := by
  rw [tokenize_synthesize hbindings hexpected,
    (lexemes_body _ body).1 (not_endsUnterminated_of_plain hplain)]
  rfl

theorem plain_tokenize_synthesize {body : String}
    (hplain : ∀ lexeme ∈ tokenize body, lexeme.token ≠ .error) :
    ∀ lexeme ∈ tokenize (synthesize bindings expected body), lexeme.token ≠ .error := by
  rw [tokenize_synthesize_of_plain hbindings hexpected hplain]
  simp only [List.forall_mem_append, List.forall_mem_cons, List.forall_mem_map]
  exact ⟨fun lexeme hmem => (plain_tokenize_header hbindings hexpected lexeme hmem).1,
    by simp [openingBrace], hplain, by simp [closingBrace], List.forall_mem_nil _⟩

end

/-- How the tokens of the wrappers of two layouts lie to each other. -/
structure Relays (bindings : List Binding) (expected : SemanticType) (first second : String)
    (inSnippet inWrapper : Relocation) : Prop where
  start_eq : inWrapper.stop 0 = 0
  snippet_eq : tokenize second = move inSnippet (tokenize first)
  wrapper_eq : tokenize (synthesize bindings expected second) =
    move inWrapper (tokenize (synthesize bindings expected first))
  header : ∀ lexeme ∈ tokenize (String.ofList (headerText bindings expected)),
    move inWrapper lexeme ∈ tokenize (String.ofList (headerText bindings expected))
  opening : move inWrapper (openingBrace bindings expected) = openingBrace bindings expected
  body : ∀ lexeme ∈ tokenize first, move inWrapper (lexeme.shift (bodyStart bindings expected)) =
    (move inSnippet lexeme).shift (bodyStart bindings expected)
  closing : move inWrapper (closingBrace (bodySpan bindings expected first).stop) =
    closingBrace (bodySpan bindings expected second).stop

section

variable {bindings : List Binding} {expected : SemanticType} {first second : String}
  (hbindings : ∀ b ∈ bindings, b.WellNamed) (hexpected : expected.WellNamed)
  (hwords : words first = words second)
  (hplain : ∀ lexeme ∈ tokenize first, lexeme.token ≠ .error)

include hwords hplain in
theorem plain_of_words : ∀ lexeme ∈ tokenize second, lexeme.token ≠ .error := by
  intro lexeme hmem
  have hword : lexeme.word ∈ words first := hwords ▸ List.mem_map_of_mem hmem
  obtain ⟨found, hfound, heq⟩ := List.mem_map.mp hword
  rw [← (Prod.mk.inj heq).1]
  exact hplain found hfound

include hbindings hexpected hwords hplain

theorem exists_relays : ∃ inSnippet inWrapper,
    Relays bindings expected first second inSnippet inWrapper := by
  have hplain' := plain_of_words hwords hplain
  have hfirst := tokenize_synthesize_of_plain hbindings hexpected hplain
  have hsecond := tokenize_synthesize_of_plain hbindings hexpected hplain'
  obtain ⟨hstart, horder⟩ := start_lt_and_pairwise_lexemes 0 first.toList
  obtain ⟨inSnippet, -, hsnippet⟩ := exists_relocation hwords hstart horder
  have hwrapperWords : (tokenize (synthesize bindings expected first)).map Lexeme.word =
      (tokenize (synthesize bindings expected second)).map Lexeme.word := by
    have hshift (body : String) : ((tokenize body).map
        (Lexeme.shift (bodyStart bindings expected))).map Lexeme.word = words body := List.map_map
    rw [hfirst, hsecond]
    simp only [List.map_append, List.map_cons, hshift, hwords]
    rfl
  obtain ⟨hstart, horder⟩ :=
    start_lt_and_pairwise_lexemes 0 (synthesize bindings expected first).toList
  obtain ⟨inWrapper, hzero, hwrapper⟩ := exists_relocation hwrapperWords hstart horder
  have htokens := hwrapper
  rw [hfirst, hsecond, move_append, move_cons, move_append] at htokens
  obtain ⟨hheader, hrest⟩ := List.append_inj htokens (length_move _ _).symm
  obtain ⟨hopening, hrest⟩ := List.cons.inj hrest
  obtain ⟨hbody, hclosing⟩ := List.append_inj hrest (by simp [hsnippet])
  have hmaps : (tokenize first).map (Lexeme.shift (bodyStart bindings expected) ∘ move inSnippet) =
      (tokenize first).map (move inWrapper ∘ Lexeme.shift (bodyStart bindings expected)) := by
    rw [hsnippet] at hbody
    rw [← List.map_map, ← List.map_map]
    exact hbody
  refine ⟨inSnippet, inWrapper, hzero, hsnippet, hwrapper, fun lexeme hmem => ?_, hopening.symm,
    fun lexeme hmem => ?_, (List.cons.inj hclosing).1.symm⟩
  · rw [hheader]
    exact List.mem_map_of_mem hmem
  · exact (List.map_inj_left.mp hmaps lexeme hmem).symm

end

/-- Places in two layouts of a snippet that correspond: nowhere in both, or from one token to
another token, each of which is in the same position of both. -/
inductive SamePlace (first second : String) : Option Span → Option Span → Prop
  | nowhere : SamePlace first second none none
  | tokens {start start' stop stop' : Lexeme}
      (hstart : (start, start') ∈ (tokenize first).zip (tokenize second))
      (hstop : (stop, stop') ∈ (tokenize first).zip (tokenize second)) :
      SamePlace first second (some (start.span.join stop.span))
        (some (start'.span.join stop'.span))

/-- The end of a snippet as a place in it. -/
def endOf (snippet : String) : Span := ⟨snippet.utf8ByteSize, snippet.utf8ByteSize⟩

theorem mem_zip_move {m : Relocation} {tokens : List Lexeme} {lexeme : Lexeme}
    (h : lexeme ∈ tokens) : (lexeme, move m lexeme) ∈ tokens.zip (move m tokens) := by
  induction tokens with
  | nil => cases h
  | cons first rest ih =>
      rcases List.mem_cons.mp h with rfl | h
      · exact List.mem_cons_self
      · exact List.mem_cons_of_mem _ (ih h)

theorem Reaches.samePlace {first second : String} {m : Relocation} {span : Span}
    (h : Reaches (tokenize first) span) (hmoved : tokenize second = move m (tokenize first)) :
    SamePlace first second (some span) (some (move m span)) := by
  obtain ⟨start, rest, stop, hrest, hstop, rfl⟩ := h
  have hzip {lexeme : Lexeme} (hmem : lexeme ∈ tokenize first) :
      (lexeme, move m lexeme) ∈ (tokenize first).zip (tokenize second) := by
    rw [hmoved]
    exact mem_zip_move hmem
  exact .tokens (hzip (hrest.subset List.mem_cons_self)) (hzip (hrest.subset hstop))

theorem Reaches.move {read : List Lexeme} {span : Span} (h : Reaches read span) (m : Relocation) :
    Reaches (move m read) (move m span) := by
  obtain ⟨start, rest, stop, hrest, hstop, rfl⟩ := h
  exact ⟨_, _, _, hrest.map _, List.mem_map_of_mem hstop, rfl⟩

theorem Reaches.exists_shift {read : List Lexeme} {span : Span} {offset : Nat}
    (h : Reaches (read.map (Lexeme.shift offset)) span) :
    ∃ own, Reaches read own ∧ span = own.shift offset := by
  obtain ⟨start, rest, stop, hrest, hstop, rfl⟩ := h
  obtain ⟨part, hpart, heq⟩ := List.sublist_map_iff.mp hrest
  obtain ⟨start', rest', rfl, rfl, rfl⟩ := List.map_eq_cons_iff.mp heq.symm
  rw [← List.map_cons] at hstop
  obtain ⟨stop', hstop', rfl⟩ := List.mem_map.mp hstop
  exact ⟨_, ⟨start', rest', stop', hpart, hstop', rfl⟩, rfl⟩

theorem Reaches.start_le_stop_le {text : String} {span : Span} (h : Reaches (tokenize text) span) :
    span.start ≤ span.stop ∧ span.stop ≤ byteLength text.toList := by
  have hlt := h.start_lt_stop (ordered_tokenize text)
  obtain ⟨_, _, stop, hrest, hstop, rfl⟩ := h
  exact ⟨hlt.le, (bounded_of_mem_tokenize (hrest.subset hstop)).stop.le_byteLength⟩

/-- The brace that closes a wrapper is told at the end of the snippet. -/
theorem within_closingBrace (bindings : List Binding) (expected : SemanticType) (body : String) :
    (closingBrace (bodySpan bindings expected body).stop).span.within
      (bodySpan bindings expected body) = some (endOf body) := by
  have hlength : byteLength body.toList = body.utf8ByteSize := byteLength_toList body
  have hinside (start length : Nat) :
      ¬(start + length < start ∨ start + length < start + length) := by omega
  have hend (start length : Nat) : start + length - start = length ∧
      max (start + length) (min (start + length + 1) (start + length)) - start = length := by
    omega
  obtain ⟨hstart, hstop⟩ := hend (bodyStart bindings expected) (byteLength body.toList)
  rw [endOf, ← hlength]
  exact (if_neg (hinside _ _)).trans (congrArg some (congrArg₂ Span.mk hstart hstop))

section

variable {bindings : List Binding} {expected : SemanticType} {first second : String}
  {inSnippet inWrapper : Relocation}
  (hrelays : Relays bindings expected first second inSnippet inWrapper)

include hrelays

theorem Relays.samePlace_body {span : Span}
    (h : Reaches ((tokenize first).map (Lexeme.shift (bodyStart bindings expected))) span) :
    SamePlace first second (span.within (bodySpan bindings expected first))
      ((move inWrapper span).within (bodySpan bindings expected second)) := by
  obtain ⟨own, hown, rfl⟩ := h.exists_shift
  have hmoved : move inWrapper (own.shift (bodyStart bindings expected)) =
      (move inSnippet own).shift (bodyStart bindings expected) := by
    obtain ⟨start, rest, stop, hrest, hstop, rfl⟩ := hown
    have hfirst := congrArg Lexeme.span (hrelays.body start (hrest.subset List.mem_cons_self))
    have hlast := congrArg Lexeme.span (hrelays.body stop (hrest.subset hstop))
    exact congrArg₂ Span.join hfirst hlast
  have hthere : Reaches (tokenize second) (move inSnippet own) := by
    rw [hrelays.snippet_eq]
    exact hown.move inSnippet
  obtain ⟨hle, hstop⟩ := hown.start_le_stop_le
  obtain ⟨hle', hstop'⟩ := hthere.start_le_stop_le
  rw [hmoved, bodySpan, bodySpan, Span.within_shift hle hstop, Span.within_shift hle' hstop']
  exact hown.samePlace hrelays.snippet_eq

theorem Relays.samePlace_header (hbindings : ∀ b ∈ bindings, b.WellNamed)
    (hexpected : expected.WellNamed) {span : Span} {lexeme : Lexeme}
    (h : lexeme ∈ tokenize (String.ofList (headerText bindings expected)))
    (hstart : span.start = lexeme.span.start) :
    SamePlace first second (span.within (bodySpan bindings expected first))
      ((move inWrapper span).within (bodySpan bindings expected second)) := by
  have hbefore := start_lt_of_mem_header hbindings hexpected h
  have hbefore' := start_lt_of_mem_header hbindings hexpected (hrelays.header lexeme h)
  have hmoved : (move inWrapper span).start = (move inWrapper lexeme).span.start :=
    congrArg inWrapper.start hstart
  rw [Span.within_eq_none (hstart ▸ hbefore), Span.within_eq_none (hmoved ▸ hbefore')]
  exact .nowhere

/-- Where a parse fails, it fails at the same token of both wrappers, or at their ends. -/
theorem Relays.samePlace_parseError (hbindings : ∀ b ∈ bindings, b.WellNamed)
    (hexpected : expected.WellNamed) (hplain : ∀ lexeme ∈ tokenize first, lexeme.token ≠ .error)
    {pending : Pending} (hrest : pending.rest ⊆ tokenize (synthesize bindings expected first)) :
    let error := parseError (synthesize bindings expected first).utf8ByteSize
      (tokenize (synthesize bindings expected first)) pending
    let error' := parseError (synthesize bindings expected second).utf8ByteSize
      (tokenize (synthesize bindings expected second)) (move inWrapper pending)
    SamePlace first second (error.span.within (bodySpan bindings expected first))
        (error'.span.within (bodySpan bindings expected second)) ∨
      error.span.within (bodySpan bindings expected first) = some (endOf first) ∧
        error'.span.within (bodySpan bindings expected second) = some (endOf second) := by
  intro error error'
  cases htokens : pending.rest with
  | nil =>
      have hspan : error.span.start = (synthesize bindings expected first).utf8ByteSize := by
        simp only [error, parseError, htokens]
      have hspan' : error'.span.start = (synthesize bindings expected second).utf8ByteSize := by
        simp only [error', parseError, Pending.rest_move, htokens]
        rfl
      rw [utf8ByteSize_synthesize] at hspan hspan'
      rw [Span.within, Span.within, if_pos (.inr (by rw [hspan]; exact Nat.lt_succ_self _)),
        if_pos (.inr (by rw [hspan']; exact Nat.lt_succ_self _))]
      exact .inl .nowhere
  | cons lexeme rest =>
      have hspan : error.span = lexeme.span := by
        simp only [error, parseError, htokens]
      have hspan' : error'.span = move inWrapper lexeme.span := by
        simp only [error', parseError, Pending.rest_move, htokens]
        rfl
      rw [hspan, hspan']
      have hmem : lexeme ∈ tokenize (synthesize bindings expected first) :=
        hrest (by rw [htokens]; exact List.mem_cons_self)
      rw [tokenize_synthesize_of_plain hbindings hexpected hplain] at hmem
      simp only [List.mem_append, List.mem_cons, List.not_mem_nil, or_false] at hmem
      rcases hmem with hheader | rfl | hbody | rfl
      · exact .inl (hrelays.samePlace_header hbindings hexpected hheader rfl)
      · have hbefore : (openingBrace bindings expected).span.start < bodyStart bindings expected :=
          Nat.lt_succ_self _
        have hmoved : move inWrapper (openingBrace bindings expected).span =
            (openingBrace bindings expected).span := congrArg Lexeme.span hrelays.opening
        rw [hmoved, Span.within_eq_none hbefore, Span.within_eq_none hbefore]
        exact .inl .nowhere
      · exact .inl (hrelays.samePlace_body (reaches_of_mem hbody))
      · have hmoved : move inWrapper (closingBrace (bodySpan bindings expected first).stop).span =
            (closingBrace (bodySpan bindings expected second).stop).span :=
          congrArg Lexeme.span hrelays.closing
        rw [hmoved]
        exact .inr ⟨within_closingBrace .., within_closingBrace ..⟩

/-- The wrappers are parsed alike. -/
theorem Relays.run_eq : Parser.lambda.run 0 (tokenize (synthesize bindings expected second)) =
    move inWrapper (Parser.lambda.run 0 (tokenize (synthesize bindings expected first))) := by
  have hmoves : Parser.Moves inWrapper Parser.lambda Parser.lambda := Parser.moves_lambda
  have hmoved := hmoves.run_eq 0 (tokenize (synthesize bindings expected first))
  rwa [hrelays.start_eq, ← hrelays.wrapper_eq] at hmoved

end

/-- Diagnostics of two layouts of a snippet that say the same of corresponding places. An error of
the parse may also be at the end of both. -/
structure SameFinding (first second : String) (d d' : Diagnostic) : Prop where
  severity : d'.severity = d.severity
  code : d'.code = d.code
  message : d'.message = d.message
  place : SamePlace first second d.span d'.span ∨
    d.code = "E001" ∧ d.span = some (endOf first) ∧ d'.span = some (endOf second)

theorem parseWrapper_of_plain {close sourceEnd : Nat} {tokens : List Lexeme}
    (h : ∀ lexeme ∈ tokens, lexeme.token ≠ .error) :
    parseWrapper close sourceEnd tokens =
      match Parser.lambda.run 0 tokens with
      | .ok lambda => (some lambda, [])
      | .error pending => (none, (pending.map (parseError sourceEnd tokens)).toList) := by
  have hpartition : tokens.partition (·.token == .error) = ([], tokens) := by
    rw [List.partition_eq_filter_filter]
    refine Prod.ext (List.filter_eq_nil_iff.mpr ?_) (withoutErrors_of_plain h)
    intro lexeme hmem
    simpa using h lexeme hmem
  simp only [parseWrapper, hpartition]
  rfl

/-- Without error tokens a wrapper has a lambda, or the one error of its parse. -/
theorem ReadsBack.parse_eq {bindings : List Binding} {expected : SemanticType} {body : String}
    {tree : Tree} (h : ReadsBack bindings expected body tree)
    (hplain : ∀ lexeme ∈ tokenize (synthesize bindings expected body), lexeme.token ≠ .error) :
    (tree.lambda, tree.syntaxErrors) =
      match Parser.lambda.run 0 (tokenize (synthesize bindings expected body)) with
      | .ok lambda => (some lambda, [])
      | .error pending => (none, (pending.map (parseError
          (synthesize bindings expected body).utf8ByteSize
          (tokenize (synthesize bindings expected body)))).toList) := by
  rw [h.lambda_eq, h.errors_eq, parseWrapper_of_plain hplain]

theorem check_eq (tree : Tree) (modules : List ModuleInfo) (imports : List String) :
    check tree modules imports =
      (tree.syntaxErrors.map fun error =>
        ((Finding.syntaxError error.message).at error.span).toDiagnostic tree) ++
      ((imports.filter (· ∉ (Surroundings.ofModules modules).namespaces)).map fun name =>
        Located.toDiagnostic tree ⟨.missingNamespace name, none⟩) ++
      ((tree.lambda.map (checkLambda (.ofModules modules))).getD []).map
        (Located.toDiagnostic tree) := by
  simp only [check, findings, List.map_append, List.map_map]
  rfl

section

variable {bindings : List Binding} {expected : SemanticType} {first second : String}
  {tree tree' : Tree} (hbindings : ∀ b ∈ bindings, b.WellNamed) (hexpected : expected.WellNamed)
  (hwords : words first = words second)
  (hplain : ∀ lexeme ∈ tokenize first, lexeme.token ≠ .error)
  (htree : ReadsBack bindings expected first tree)
  (hwrapper : Tree.wrapper? (synthesize bindings expected first) = some tree)
  (htree' : ReadsBack bindings expected second tree')

include htree htree' in
/-- What is found in corresponding places is told alike. -/
theorem sameFinding_at {finding : Finding} {span span' : Span}
    (h : SamePlace first second (span.within (bodySpan bindings expected first))
        (span'.within (bodySpan bindings expected second)) ∨
      finding.code = "E001" ∧
        span.within (bodySpan bindings expected first) = some (endOf first) ∧
        span'.within (bodySpan bindings expected second) = some (endOf second)) :
    SameFinding first second ((finding.at span).toDiagnostic tree)
      ((finding.at span').toDiagnostic tree') := by
  refine ⟨rfl, rfl, rfl, ?_⟩
  simp only [Located.toDiagnostic, Finding.at, Option.bind_some, htree.snippetSpan_eq,
    htree'.snippetSpan_eq]
  exact h

include hbindings hexpected hplain htree hwrapper htree' in
theorem sameFindings_lambda {inSnippet inWrapper : Relocation}
    (hrelays : Relays bindings expected first second inSnippet inWrapper) (exports : Exports)
    {lambda : Lambda} (hlambda : tree.lambda = some lambda) :
    List.Forall₂ (SameFinding first second)
      ((checkLambda exports lambda).map (Located.toDiagnostic tree))
      ((checkLambda exports (move inWrapper lambda)).map (Located.toDiagnostic tree')) := by
  obtain ⟨inBody, closing, hbody, hplaces⟩ :=
    exists_places_of_lambda hbindings hexpected hwrapper exports hlambda
  have hread : inBody = (tokenize first).map (Lexeme.shift (bodyStart bindings expected)) := by
    have hkeep : ∀ lexeme ∈ (tokenize first).map (Lexeme.shift (bodyStart bindings expected)) ++
        [closingBrace (bodySpan bindings expected first).stop], lexeme.token ≠ .error := by
      simp only [List.forall_mem_append, List.forall_mem_map]
      exact ⟨hplain, by simp [closingBrace]⟩
    rw [(lexemes_body _ first).1 (not_endsUnterminated_of_plain hplain)] at hbody
    exact (List.append_inj' ((withoutErrors_of_plain hkeep).symm.trans hbody) rfl).1.symm
  have hmoved : checkLambda exports (move inWrapper lambda) =
      (checkLambda exports lambda).map (move inWrapper) := checkLambda_move inWrapper exports lambda
  rw [hmoved, List.map_map, List.forall₂_map_left_iff, List.forall₂_map_right_iff,
    List.forall₂_same]
  rintro ⟨finding, place⟩ hlocated
  obtain ⟨⟨span, hspan, lexeme, hlexeme, hstart⟩, -⟩ | ⟨⟨span, hspan, hreaches⟩, -⟩ :=
    hplaces _ hlocated
  · obtain rfl : place = some span := hspan
    exact sameFinding_at htree htree'
      (.inl (hrelays.samePlace_header hbindings hexpected hlexeme hstart))
  · obtain rfl : place = some span := hspan
    rw [hread] at hreaches
    exact sameFinding_at htree htree' (.inl (hrelays.samePlace_body hreaches))

include hbindings hexpected hwords hplain htree hwrapper htree'

/-- Two layouts of a snippet both have a lambda or neither has one, and what is found in them is the
same at corresponding places. -/
theorem sameFindings_check (modules : List ModuleInfo) (imports : List String) :
    tree'.lambda.isSome = tree.lambda.isSome ∧
      List.Forall₂ (SameFinding first second) (check tree modules imports)
        (check tree' modules imports) := by
  obtain ⟨inSnippet, inWrapper, hrelays⟩ := exists_relays hbindings hexpected hwords hplain
  have hplain' := plain_of_words hwords hplain
  have hparse := htree.parse_eq (plain_tokenize_synthesize hbindings hexpected hplain)
  have hparse' := htree'.parse_eq (plain_tokenize_synthesize hbindings hexpected hplain')
  rw [hrelays.run_eq] at hparse'
  have hmissing : List.Forall₂ (SameFinding first second)
      ((imports.filter (· ∉ (Surroundings.ofModules modules).namespaces)).map fun name =>
        Located.toDiagnostic tree ⟨.missingNamespace name, none⟩)
      ((imports.filter (· ∉ (Surroundings.ofModules modules).namespaces)).map fun name =>
        Located.toDiagnostic tree' ⟨.missingNamespace name, none⟩) := by
    rw [List.forall₂_map_left_iff, List.forall₂_map_right_iff, List.forall₂_same]
    exact fun name _ => ⟨rfl, rfl, rfl, .inl .nowhere⟩
  rw [check_eq, check_eq]
  cases hresult : Parser.lambda.run 0 (tokenize (synthesize bindings expected first)) with
  | ok lambda =>
      rw [hresult] at hparse hparse'
      obtain ⟨hlambda, herrors⟩ := Prod.mk.inj hparse
      obtain ⟨hlambda', herrors'⟩ := Prod.mk.inj hparse'
      rw [hlambda, hlambda', herrors, herrors']
      refine ⟨rfl, List.rel_append (List.rel_append .nil hmissing) ?_⟩
      exact sameFindings_lambda hbindings hexpected hplain htree hwrapper htree' hrelays _ hlambda
  | error pending =>
      rw [hresult] at hparse hparse'
      obtain ⟨hlambda, herrors⟩ := Prod.mk.inj hparse
      obtain ⟨hlambda', herrors'⟩ := Prod.mk.inj hparse'
      have hamong := Parser.stays_lambda.among_of_run hresult
      rw [hlambda, hlambda', herrors, herrors']
      refine ⟨rfl, List.rel_append (List.rel_append ?_ hmissing) .nil⟩
      cases pending with
      | none => exact .nil
      | some missed =>
          have hplace := hrelays.samePlace_parseError hbindings hexpected hplain (hamong missed rfl)
          have hmessage : (parseError (synthesize bindings expected second).utf8ByteSize
              (tokenize (synthesize bindings expected second)) (move inWrapper missed)).message =
                missed.message := Pending.message_move inWrapper missed
          refine .cons ?_ .nil
          change SameFinding first second _ (((Finding.syntaxError (parseError _ _
            (move inWrapper missed)).message).at _).toDiagnostic tree')
          rw [hmessage]
          exact sameFinding_at htree htree' (hplace.imp_right fun hends => ⟨rfl, hends⟩)

end

end Calc

/-- The lambda that the wrapper of a snippet was parsed to. -/
def Compiled.lambda (compiled : Compiled) : Option Calc.Lambda :=
  compiled.unit.tree?.bind Calc.Tree.lambda

theorem Descriptor.bindings_eq_of_words {first second : Descriptor}
    (hwords : Calc.words first.text = Calc.words second.text)
    (henvironment : second.environment = first.environment) : second.bindings = first.bindings := by
  have hidentifiers : second.discovery.identifiers = first.discovery.identifiers :=
    Calc.identifiers_eq_of_words hwords
  rw [bindings, bindings, hidentifiers, henvironment]

namespace Service

/-- The descriptions of the modules that are attached for a request. -/
def attached (service : Service) (request : Request) : List ModuleInfo :=
  Request.attachedInfos (service.validator.template.map (·.info))
    (request.modules.filterMap (service.cache.description service.validator.catalog))

/-- Calls change nothing of what is attached. -/
theorem attached_serveAll (service : Service) (calls : List Call) :
    (service.serveAll calls).attached = service.attached := by
  induction calls generalizing service with
  | nil => rfl
  | cons call calls ih =>
      refine (ih (service.serve call)).trans (funext fun request => ?_)
      have hserve (served : Request) :=
        ReferenceCache.description_ensureAll service.cache service.validator.catalog served.modules
      cases call with
      | validate served | compile served =>
          exact congrArg (fun description => Request.attachedInfos _
            (request.modules.filterMap description)) (hserve served)

/-- What a snippet is compiled to, from its wrapper and the descriptions of its modules. -/
theorem exists_compiled (service : Service) {request : Request} {tree : Calc.Tree}
    (hwrapper : Calc.Tree.wrapper? request.descriptor.wrapper = some tree) :
    ∃ compiled, (service.validator.compile service.cache request).1 = .ok compiled ∧
      compiled.lambda = tree.lambda ∧
      compiled.diagnostics = Calc.check tree (service.attached request) request.host.imports := by
  simp only [Validator.compile, Request.compile_eq, hwrapper]
  refine ⟨_, rfl, rfl, ?_⟩
  rw [Request.infos_unit, ReferenceCache.map_info_ensureAll]
  rfl

/-- Layout does not matter: two snippets without error tokens that have the same words are compiled
by one validator, whatever calls are between, to diagnostics that say the same in the same order of
corresponding places, and both to a lambda or neither. -/
theorem compile_independent_of_layout (service : Service) (between : List Call) (request : Request)
    (text : String) (htypes : ∀ b ∈ request.descriptor.bindings, b.type.WellNamed)
    (hexpected : request.expected.WellNamed)
    (hwords : Calc.words request.text = Calc.words text)
    (hplain : ∀ lexeme ∈ Calc.tokenize request.text, lexeme.token ≠ .error) :
    let later := service.serveAll between
    ∃ first second,
      (service.validator.compile service.cache request).1 = .ok first ∧
      (later.validator.compile later.cache { request with text }).1 = .ok second ∧
      second.lambda.isSome = first.lambda.isSome ∧
      List.Forall₂ (Calc.SameFinding request.text text) first.diagnostics second.diagnostics := by
  intro later
  have hbindings : ∀ b ∈ request.descriptor.bindings, b.WellNamed := by
    intro b hmem
    exact Descriptor.wellNamed_of_mem_bindings htypes hmem
  obtain ⟨tree, hwrapper, htree⟩ :=
    Calc.exists_wrapper_synthesize hbindings hexpected request.text
  obtain ⟨tree', hwrapper', htree'⟩ := Calc.exists_wrapper_synthesize hbindings hexpected text
  have hsame : { request with text }.descriptor.bindings = request.descriptor.bindings :=
    Descriptor.bindings_eq_of_words hwords rfl
  have hsource : Calc.Tree.wrapper? request.descriptor.wrapper = some tree := hwrapper
  have hsource' : Calc.Tree.wrapper? { request with text }.descriptor.wrapper = some tree' := by
    rw [Descriptor.wrapper, hsame]
    exact hwrapper'
  obtain ⟨first, hfirst, hlambda, hfound⟩ := service.exists_compiled hsource
  obtain ⟨second, hsecond, hlambda', hfound'⟩ := later.exists_compiled hsource'
  rw [attached_serveAll] at hfound'
  refine ⟨first, second, hfirst, hsecond, ?_⟩
  rw [hlambda, hlambda', hfound, hfound']
  exact Calc.sameFindings_check hbindings hexpected hwords hplain htree hwrapper htree' _ _

/-- A sum with a variable that the environment does not know. -/
def openSum : Request := { sumRequest with text := "x+y" }

theorem openSum_compile_independent_of_layout :
    let service := start (.withCore 0) .standard
    let later := service.serveAll [.compile openSum]
    let text := " x\n+  y "
    (∀ b ∈ openSum.descriptor.bindings, b.type.WellNamed) ∧
    Calc.words openSum.text = Calc.words text ∧
    (∀ lexeme ∈ Calc.tokenize openSum.text, lexeme.token ≠ .error) ∧
    ∃ first second,
      (service.validator.compile service.cache openSum).1 = .ok first ∧
      (later.validator.compile later.cache { openSum with text }).1 = .ok second ∧
      first.diagnostics.map (fun d => (d.code, d.span)) = [("E100", some ⟨2, 3⟩)] ∧
      second.diagnostics.map (fun d => (d.code, d.span)) = [("E100", some ⟨6, 7⟩)] ∧
      second.lambda.isSome = first.lambda.isSome ∧
      List.Forall₂ (Calc.SameFinding openSum.text text) first.diagnostics second.diagnostics := by
  intro service later text
  have htypes : ∀ b ∈ openSum.descriptor.bindings, b.type.WellNamed := by
    intro b hmem
    have htype : integers ["x"] b.name = some b.type := environment_of_mem_resolveNames hmem
    obtain ⟨-, htype⟩ := Option.ite_none_right_eq_some.mp htype
    rw [← Option.some.inj htype]
    exact wellNamed_integer
  have hwords : Calc.words openSum.text = Calc.words text := by
    decide +kernel
  have hplain : ∀ lexeme ∈ Calc.tokenize openSum.text, lexeme.token ≠ .error := by
    decide +kernel
  have hfound : ((service.validator.compile service.cache openSum).1.toOption.map
      fun compiled => compiled.diagnostics.map fun d => (d.code, d.span)) =
        some [("E100", some ⟨2, 3⟩)] := by
    decide +kernel
  have hfound' : ((later.validator.compile later.cache { openSum with text }).1.toOption.map
      fun compiled => compiled.diagnostics.map fun d => (d.code, d.span)) =
        some [("E100", some ⟨6, 7⟩)] := by
    decide +kernel
  obtain ⟨first, second, hfirst, hsecond, hsame⟩ := compile_independent_of_layout service
    [.compile openSum] openSum text htypes wellNamed_integer hwords hplain
  rw [hfirst] at hfound
  rw [hsecond] at hfound'
  exact ⟨htypes, hwords, hplain, first, second, hfirst, hsecond, Option.some.inj hfound,
    Option.some.inj hfound', hsame⟩

end Service

end ExprVet
