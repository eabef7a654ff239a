import ExprVet.Proofs.Completeness
import ExprVet.Proofs.Expectations
import ExprVet.Proofs.Wrapper

/-!
# Snippets that are accepted

A snippet is accepted if the wrapper that is made of it is read as a lambda and nothing is wrong
with it. Behind a header of well named types that depends on the snippet alone: it must consist of
tokens that form an expression as a whole. Otherwise each error token is reported in its place, and
then what the parser missed.
-/

namespace ExprVet.Calc

open Text

/-- A lambda was read and nothing is wrong with it. -/
def Tree.Accepted (tree : Tree) : Prop := tree.lambda.isSome ∧ tree.syntaxErrors = []

instance (tree : Tree) : Decidable tree.Accepted :=
  inferInstanceAs (Decidable (tree.lambda.isSome ∧ tree.syntaxErrors = []))

/-- The tokens are without errors and form an expression as a whole. -/
def Grammatical (tokens : List Lexeme) : Prop :=
  (∀ lexeme ∈ tokens, lexeme.token ≠ .error) ∧ ∃ e, DerivesAt .disjunction tokens e

/-- What an error token says of itself, in a text that has `offset` more bytes in front. -/
def Lexeme.error (offset : Nat) (lexeme : Lexeme) : SyntaxError :=
  ⟨lexeme.span.shift offset, lexicalMessage lexeme.text⟩

/-- The lambda of a wrapper and at most one error behind those of its error tokens. -/
theorem parseWrapper_cases (close sourceEnd : Nat) (lexemes : List Lexeme) :
    ∃ parse, (parseWrapper close sourceEnd lexemes).2 =
        (lexemes.filter (·.token == .error)).map (lexicalError close) ++ parse ∧
      parse.length ≤ 1 ∧ (parse = [] ↔ (parseWrapper close sourceEnd lexemes).1.isSome) := by
  simp only [parseWrapper, List.partition_eq_filter_filter]
  split
  · exact ⟨[], (List.append_nil _).symm, Nat.zero_le 1, iff_of_true rfl rfl⟩
  · rename_i pending hrun
    obtain ⟨missed, rfl⟩ := Option.isSome_iff_exists.mp (Parser.tells_lambda.isSome_of_run hrun)
    exact ⟨[_], rfl, Nat.le_refl 1, iff_of_false (List.cons_ne_nil _ _) (by simp)⟩

/-- A closing brace behind a text changes nothing that is said of its error tokens. -/
theorem errors_append_brace (offset : Nat) (cs : List Char) :
    ((lexemes offset (cs ++ ['\x7d'])).filter (·.token == .error)).map
        (lexicalError (offset + byteLength cs)) =
      ((lexemes offset cs).filter (·.token == .error)).map (Lexeme.error 0) := by
  have hown {lexeme : Lexeme} (h : lexeme ∈ lexemes offset cs) :
      lexicalError (offset + byteLength cs) lexeme = lexeme.error 0 := by
    obtain ⟨span, ⟨before, after, rfl, rfl⟩, hspan⟩ := selects_of_mem_lexemes h
    have hle : ¬offset + byteLength (before ++ (lexeme.text ++ after)) < lexeme.span.stop := by
      rw [hspan]
      simp only [Span.shift, byteLength_append]
      omega
    rw [lexicalError, if_neg hle]
    simp [Lexeme.error, Span.shift]
  rcases lexemes_append_brace offset cs with hbrace |
    ⟨before, last, longer, hlast, hlonger, herror, herror', htext, hstart, hstop, hstop'⟩
  · have hdrop : [closingBrace (offset + byteLength cs)].filter (·.token == .error) = [] := rfl
    rw [hbrace, List.filter_append, hdrop, List.append_nil]
    apply List.map_congr_left
    intro lexeme hmem
    exact hown (List.mem_of_mem_filter hmem)
  · -- the error token that takes in the brace is reported without it
    have hlonger' : lexicalError (offset + byteLength cs) longer = last.error 0 := by
      have hlt : offset + byteLength cs < longer.span.stop := by omega
      rw [lexicalError, if_pos hlt, htext, List.dropLast_concat, hstart, ← hstop]
      simp [Lexeme.error, Span.shift]
    have hkeep (lexeme : Lexeme) (h : lexeme.token = .error) :
        [lexeme].filter (·.token == .error) = [lexeme] := by
      simp [h]
    rw [hlast] at hown ⊢
    rw [hlonger, List.filter_append, List.filter_append, hkeep last herror, hkeep longer herror',
      List.map_append, List.map_append, List.map_singleton, List.map_singleton, hlonger']
    congr 1
    apply List.map_congr_left
    intro lexeme hmem
    exact hown (List.mem_append_left _ (List.mem_of_mem_filter hmem))

theorem map_error_shift (offset : Nat) (lexemes : List Lexeme) :
    ((lexemes.map (Lexeme.shift offset)).filter (·.token == .error)).map (Lexeme.error 0) =
      (lexemes.filter (·.token == .error)).map (Lexeme.error offset) := by
  rw [List.filter_map, List.map_map]
  apply List.map_congr_left
  intro lexeme _
  simp [Lexeme.error, Lexeme.shift, Span.shift]

theorem lexemes_eq_map_shift (offset : Nat) (text : List Char) :
    lexemes offset text = (lexemes 0 text).map (Lexeme.shift offset) :=
  lexemes_add 0 offset text

namespace Parser

theorem run_of_gives {α : Type} {p : Parser α} {start stop : Nat} {tokens : List Lexeme} {value : α}
    (h : p.Gives ⟨start, tokens⟩ (some (value, ⟨stop, []⟩))) : p.run start tokens = .ok value := by
  have hend : endOfInput.Gives ⟨stop, []⟩ (some ((), ⟨stop, []⟩)) := fun pending => rfl
  have hwhole : (do let value ← p; endOfInput; return value : Parser α).Gives ⟨start, tokens⟩
      (some (value, ⟨stop, []⟩)) :=
    h.bind (hend.bind (gives_pure value _))
  have hrun := hwhole none
  simp only [run]
  split
  · rename_i hresult
    rw [hresult] at hrun
    cases hrun
    rfl
  · rename_i hresult
    rw [hresult] at hrun
    cases hrun

/-- A lambda is given by its parts. -/
theorem gives_lambda {cursor : Cursor} {params : List Param} {ret : TypeRef} {body : Expr}
    {stop1 stop2 stop3 : Nat} {rest1 rest2 rest3 : List Lexeme} {arrow opened closed : Lexeme}
    (hparams : (orElse noParameters parameters).Gives cursor
      (some (params, ⟨stop1, arrow :: rest1⟩))) (harrow : arrow.token = .arrow)
    (hret : type.Gives ⟨arrow.span.stop, rest1⟩ (some (ret, ⟨stop2, opened :: rest2⟩)))
    (hopened : opened.token = .lbrace)
    (hbody : expr.Gives ⟨opened.span.stop, rest2⟩ (some (body, ⟨stop3, closed :: rest3⟩)))
    (hclosed : closed.token = .rbrace) : lambda.Gives cursor
      (some (⟨params, ret, body, opened.span.stop⟩, ⟨closed.span.stop, rest3⟩)) := by
  apply Gives.labelled
  apply Gives.bind hparams
  apply Gives.bind (gives_token harrow stop1 rest1)
  apply Gives.bind hret
  apply Gives.bind (gives_token hopened stop2 rest2)
  apply Gives.bind hbody
  apply Gives.bind (gives_token hclosed stop3 rest3)
  exact gives_pure _ _

end Parser

/-- A header and an expression in braces form a lambda. -/
theorem exists_run_lambda {bindings : List Binding} {expected : SemanticType}
    {inParams inResult inBody : List Token} (hparams : ParamsTokens bindings inParams)
    (hresult : TypeTokens expected inResult) {P : Expr → Prop}
    (hbody : Parser.expr.Accepts Closes inBody P)
    {readParams readResult readBody : List Lexeme} {arrow opened closed : Lexeme}
    (hreadParams : readParams.map (·.token) = inParams) (harrow : arrow.token = .arrow)
    (hreadResult : readResult.map (·.token) = inResult) (hopened : opened.token = .lbrace)
    (hreadBody : readBody.map (·.token) = inBody) (hclosed : closed.token = .rbrace) (start : Nat) :
    ∃ lambda, P lambda.body ∧ Parser.lambda.run start
      (readParams ++ arrow :: (readResult ++ opened :: (readBody ++ [closed]))) = .ok lambda := by
  have hfollowResult : EndsType (firstToken? (opened :: (readBody ++ [closed]))) := by
    simp [EndsType, firstToken?, hopened]
  have hfollowBody : Closes (firstToken? [closed]) := closes_cons hclosed (by simp) []
  obtain ⟨params, stop1, -, hgives1⟩ := hparams.accepts readParams start
    (arrow :: (readResult ++ opened :: (readBody ++ [closed]))) hreadParams trivial
  obtain ⟨ret, stop2, -, hgives2⟩ := hresult.spelt.type readResult arrow.span.stop
    (opened :: (readBody ++ [closed])) hreadResult hfollowResult
  obtain ⟨e, stop3, he, hgives3⟩ :=
    hbody readBody opened.span.stop [closed] hreadBody hfollowBody
  exact ⟨_, he, Parser.run_of_gives
    (Parser.gives_lambda hgives1 harrow hgives2 hopened hgives3 hclosed)⟩

theorem parseWrapper_of_run {close sourceEnd : Nat} {lexemes : List Lexeme} {lambda : Lambda}
    (h : Parser.lambda.run 0 (withoutErrors lexemes) = .ok lambda) :
    (parseWrapper close sourceEnd lexemes).1 = some lambda := by
  have hgood : (lexemes.partition (·.token == .error)).2 = withoutErrors lexemes := by
    rw [List.partition_eq_filter_filter]
    rfl
  simp only [parseWrapper, hgood, h]

/-- Whether a text has error tokens does not depend on where it stands. -/
theorem plain_lexemes {text : String} (h : ∀ lexeme ∈ tokenize text, lexeme.token ≠ .error)
    (offset : Nat) : ∀ lexeme ∈ lexemes offset text.toList, lexeme.token ≠ .error := by
  rw [lexemes_eq_map_shift]
  intro lexeme hmem
  obtain ⟨own, hown, rfl⟩ := List.mem_map.mp hmem
  exact h own hown

theorem withoutErrors_openingBrace (bindings : List Binding) (expected : SemanticType)
    (rest : List Lexeme) : withoutErrors (openingBrace bindings expected :: rest) =
      openingBrace bindings expected :: withoutErrors rest :=
  rfl

theorem withoutErrors_closingBrace (start : Nat) :
    withoutErrors [closingBrace start] = [closingBrace start] :=
  rfl

theorem lexemes_append_brace_of_plain {offset : Nat} {cs : List Char}
    (h : ∀ lexeme ∈ lexemes offset cs, lexeme.token ≠ .error) :
    lexemes offset (cs ++ ['\x7d']) =
      lexemes offset cs ++ [closingBrace (offset + byteLength cs)] := by
  rcases lexemes_append_brace offset cs with hbrace | ⟨before, last, longer, hlast, -, herror, -⟩
  · exact hbrace
  · rw [hlast] at h
    exact absurd herror (h last List.mem_concat_self)

section

variable {bindings : List Binding} {expected : SemanticType} {body : String} {tree : Tree}
  (hbindings : ∀ b ∈ bindings, b.WellNamed) (hexpected : expected.WellNamed)
  (htree : ReadsBack bindings expected body tree)

include hbindings hexpected htree

/-- The errors of the snippet's own error tokens come first, then possibly one of the parse. -/
theorem ReadsBack.syntaxErrors_eq :
    ∃ parse, tree.syntaxErrors =
        ((tokenize body).filter (·.token == .error)).map
          (Lexeme.error (bodyStart bindings expected)) ++ parse ∧
      parse.length ≤ 1 ∧ (parse = [] ↔ tree.lambda.isSome) := by
  obtain ⟨inParams, inResult, header, hparams, hresult, hheader, htokens⟩ :=
    exists_tokenize_synthesize hbindings hexpected body
  have hnone : header.filter (·.token == .error) = [] := by
    apply List.filter_eq_nil_iff.mpr
    intro lexeme hmem
    simpa using (header_plain hparams hresult hheader lexeme hmem).1
  have hbrace (rest : List Lexeme) : (openingBrace bindings expected :: rest).filter
      (·.token == .error) = rest.filter (·.token == .error) := rfl
  obtain ⟨parse, herrors, hlength, hiff⟩ :=
    parseWrapper_cases (bodySpan bindings expected body).stop
      (synthesize bindings expected body).utf8ByteSize
      (tokenize (synthesize bindings expected body))
  rw [← htree.lambda_eq] at hiff
  refine ⟨parse, ?_, hlength, hiff⟩
  rw [htree.errors_eq, herrors, htokens, List.filter_append, hnone, List.nil_append, hbrace]
  congr 1
  have herrors' := errors_append_brace (bodyStart bindings expected) body.toList
  rw [lexemes_eq_map_shift _ body.toList, map_error_shift] at herrors'
  exact herrors'

theorem ReadsBack.syntaxErrors_eq_nil (hplain : ∀ lexeme ∈ tokenize body, lexeme.token ≠ .error)
    {lambda : Lambda} (hlambda : tree.lambda = some lambda) : tree.syntaxErrors = [] := by
  obtain ⟨parse, herrors, -, hparse⟩ := htree.syntaxErrors_eq hbindings hexpected
  have hnone : (tokenize body).filter (·.token == .error) = [] := by
    apply List.filter_eq_nil_iff.mpr
    intro lexeme hmem
    simpa using hplain lexeme hmem
  rw [herrors, hnone, hparse.mpr (by rw [hlambda]; rfl)]
  rfl

/-- A snippet whose tokens are accepted as an expression is the body of a lambda. -/
theorem ReadsBack.exists_lambda (hplain : ∀ lexeme ∈ tokenize body, lexeme.token ≠ .error)
    {P : Expr → Prop} (haccepts : Parser.expr.Accepts Closes ((tokenize body).map (·.token)) P) :
    ∃ lambda, tree.lambda = some lambda ∧ P lambda.body := by
  obtain ⟨inParams, inResult, header, hparams, hresult, hheader, htokens⟩ :=
    exists_tokenize_synthesize hbindings hexpected body
  have hheaderPlain := header_plain hparams hresult hheader
  obtain ⟨readParams, header, rfl, hreadParams, hheader⟩ := List.map_eq_append_iff.mp hheader
  obtain ⟨arrow, readResult, rfl, harrow, hreadResult⟩ := List.map_eq_cons_iff.mp hheader
  have hread : (lexemes (bodyStart bindings expected) body.toList).map (·.token) =
      (tokenize body).map (·.token) := by
    rw [lexemes_eq_map_shift, List.map_map]
    rfl
  have hplain' := plain_lexemes hplain (bodyStart bindings expected)
  have hopened : (openingBrace bindings expected).token = .lbrace := rfl
  have hclosed (start : Nat) : (closingBrace start).token = .rbrace := rfl
  obtain ⟨lambda, hbody, hrun⟩ := exists_run_lambda hparams hresult haccepts hreadParams harrow
    hreadResult hopened hread (hclosed (bodyStart bindings expected + byteLength body.toList)) 0
  refine ⟨lambda, ?_, hbody⟩
  rw [htree.lambda_eq]
  apply parseWrapper_of_run
  rw [htokens, withoutErrors_append_of_plain fun lexeme hmem => (hheaderPlain lexeme hmem).1,
    withoutErrors_openingBrace, lexemes_append_brace_of_plain hplain',
    withoutErrors_append_of_plain hplain', withoutErrors_closingBrace, List.append_assoc,
    List.cons_append]
  exact hrun

/-- The body of a lambda without errors is read from all tokens of the snippet. -/
theorem ReadsBack.grammatical (h : tree.Accepted) : Grammatical (tokenize body) := by
  obtain ⟨hsome, herrors⟩ := h
  obtain ⟨lambda, hlambda⟩ := Option.isSome_iff_exists.mp hsome
  obtain ⟨parse, hparse, -⟩ := htree.syntaxErrors_eq hbindings hexpected
  rw [herrors] at hparse
  obtain ⟨hlexical, -⟩ := List.append_eq_nil_iff.mp hparse.symm
  have hplain : ∀ lexeme ∈ tokenize body, lexeme.token ≠ .error := by
    have hnone := List.filter_eq_nil_iff.mp (List.map_eq_nil_iff.mp hlexical)
    intro lexeme hmem
    simpa using hnone lexeme hmem
  have hplain' := plain_lexemes hplain (bodyStart bindings expected)
  obtain ⟨read, closing, hderives, -, hread⟩ :=
    (htree.readsFrom hbindings hexpected body hlambda).derives
  rw [lexemes_append_brace_of_plain hplain', withoutErrors_append_of_plain hplain',
    withoutErrors_closingBrace] at hread
  obtain ⟨rfl, -⟩ := List.append_inj' hread rfl
  refine ⟨hplain, exists_derives_iff_scans.mpr ?_⟩
  have hscans := hderives.scans
  rw [lexemes_eq_map_shift, List.map_map] at hscans
  exact hscans

theorem ReadsBack.accepted (h : Grammatical (tokenize body)) : tree.Accepted := by
  obtain ⟨hplain, hderives⟩ := h
  have haccepts := Parser.accepts_expr (exists_derives_iff_scans.mp hderives)
  obtain ⟨lambda, hlambda, -⟩ := htree.exists_lambda hbindings hexpected hplain haccepts
  exact ⟨by rw [hlambda]; rfl, htree.syntaxErrors_eq_nil hbindings hexpected hplain hlambda⟩

end

/-- A snippet is accepted behind a header of well named types exactly if its tokens are without
errors and form an expression as a whole; then no brace of its own closes the wrapper. Otherwise
something is reported: first each of its error tokens, in their order, and then at most one error of
the parse, which is there exactly if no lambda was read. -/
theorem accepted_iff_grammatical {bindings : List Binding} {expected : SemanticType}
    (hbindings : ∀ b ∈ bindings, b.WellNamed) (hexpected : expected.WellNamed) (body : String) :
    ∃ tree parse, Tree.wrapper? (synthesize bindings expected body) = some tree ∧
      (tree.Accepted ↔ Grammatical (tokenize body)) ∧
      (tree.Accepted → ∀ lexeme ∈ tokenize body, lexeme.token ≠ .rbrace) ∧
      (¬tree.Accepted → tree.syntaxErrors ≠ []) ∧
      tree.syntaxErrors =
        ((tokenize body).filter (·.token == .error)).map
          (Lexeme.error (bodyStart bindings expected)) ++ parse ∧
      parse.length ≤ 1 ∧ (parse = [] ↔ tree.lambda.isSome) := by
  obtain ⟨tree, hwrapper, htree⟩ := exists_wrapper_synthesize hbindings hexpected body
  obtain ⟨parse, herrors, hlength, hparse⟩ := htree.syntaxErrors_eq hbindings hexpected
  have hgrammatical := htree.grammatical hbindings hexpected
  refine ⟨tree, parse, hwrapper, ⟨hgrammatical, htree.accepted hbindings hexpected⟩, ?_, ?_,
    herrors, hlength, hparse⟩
  · intro h lexeme hmem heq
    obtain ⟨-, hderives⟩ := hgrammatical h
    obtain ⟨e, hderives⟩ := hderives
    exact hderives.ne (by simp) lexeme hmem heq
  · intro hnot hnil
    rw [herrors] at hnil
    obtain ⟨-, hnone⟩ := List.append_eq_nil_iff.mp hnil
    rw [← herrors] at hnil
    exact hnot ⟨hparse.mp hnone, hnil⟩

/-- The second comparison cannot be part of the else branch but of what is around it. A snippet that
closes its wrapper early is not accepted. -/
theorem negatedBranch_accepted :
    ∃ tree, Tree.wrapper? (synthesize [⟨"a", .integer⟩] .integer "-if a then a else a < a == a") =
        some tree ∧ tree.Accepted ∧ Grammatical (tokenize "-if a then a else a < a == a") ∧
      ¬Grammatical (tokenize "a\x7d + \x7ba") := by
  have hbindings : ∀ b ∈ [(⟨"a", .integer⟩ : Binding)], b.WellNamed := by
    intro b hmem
    rw [List.mem_singleton.mp hmem]
    exact ⟨by decide +kernel, wellNamed_integer⟩
  have haccepted : (Tree.wrapper? (synthesize [⟨"a", .integer⟩] .integer
      "-if a then a else a < a == a")).map (fun tree => decide tree.Accepted) = some true := by
    decide +kernel
  have hrejected : (Tree.wrapper? (synthesize [⟨"a", .integer⟩] .integer
      "a\x7d + \x7ba")).map (fun tree => decide tree.Accepted) = some false := by
    decide +kernel
  obtain ⟨tree, -, hwrapper, hiff, -⟩ :=
    accepted_iff_grammatical hbindings wellNamed_integer "-if a then a else a < a == a"
  obtain ⟨tree', -, hwrapper', hiff', -⟩ :=
    accepted_iff_grammatical hbindings wellNamed_integer "a\x7d + \x7ba"
  rw [hwrapper, Option.map_some, Option.some_inj, decide_eq_true_iff] at haccepted
  rw [hwrapper', Option.map_some, Option.some_inj, decide_eq_false_iff_not, hiff'] at hrejected
  exact ⟨tree, hwrapper, haccepted, hiff.mp haccepted, hrejected⟩

end ExprVet.Calc
