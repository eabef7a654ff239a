import ExprVet.Proofs.Wrapper

/-!
# A snippet is read alike on its own and in its wrapper

The names of a snippet are looked for among the tokens that it has on its own, and its lambda is
read from the tokens of the wrapper. The two readings agree: the wrapper has the tokens of its
header, a brace, those of the snippet, moved to where the snippet stands, and a brace. Only an
unterminated string literal at the end of the snippet takes the closing brace in.
-/

namespace ExprVet.Calc

open Text

theorem not_endsUnterminated_of_plain {offset : Nat} {cs : List Char}
    (h : ∀ lexeme ∈ lexemes offset cs, lexeme.token ≠ .error) : ¬ EndsUnterminated offset cs := by
  rintro ⟨last, hlast, hunterminated, -⟩
  exact h last (List.mem_of_getLast? hlast) hunterminated.1

/-- The wrapper's token for a string literal that nothing in the snippet closes. -/
def unterminatedInWrapper (start : Nat) (last : Lexeme) : Lexeme :=
  ⟨.error, last.text ++ ['\x7d'], ⟨start + last.span.start, start + last.span.stop + 1⟩⟩

theorem Lexeme.Unterminated.withBrace_shift {last : Lexeme} (h : last.Unterminated)
    (start : Nat) : (last.shift start).withBrace = unterminatedInWrapper start last := by
  simp only [withBrace, shift, unterminatedInWrapper, h.1]
  rfl

/-- The tokens of a snippet with a brace behind it, at some place of a source. -/
theorem lexemes_body (start : Nat) (body : String) :
    (¬ EndsUnterminated 0 body.toList →
      lexemes start (body.toList ++ ['\x7d']) =
        (tokenize body).map (Lexeme.shift start) ++
          [closingBrace (start + byteLength body.toList)]) ∧
    (EndsUnterminated 0 body.toList → ∃ before last, tokenize body = before ++ [last] ∧
      last.Unterminated ∧ last.span.stop = byteLength body.toList ∧
      lexemes start (body.toList ++ ['\x7d']) =
        before.map (Lexeme.shift start) ++ [unterminatedInWrapper start last]) := by
  have hmoved (cs : List Char) : lexemes start cs = (lexemes 0 cs).map (Lexeme.shift start) :=
    lexemes_add 0 start cs
  constructor
  · intro hclosed
    have hthere := (not_congr (endsUnterminated_add 0 start body.toList)).mpr hclosed
    rw [Nat.add_zero] at hthere
    rw [lexemes_append apart_brace hthere, lexemes_closingBrace, hmoved]
    rfl
  · intro hopen
    obtain ⟨before, last, hlast, hunterminated, hstop, hbrace⟩ :=
      lexemes_append_brace_of_unterminated hopen
    refine ⟨before, last, hlast, hunterminated, by rw [hstop, Nat.zero_add], ?_⟩
    rw [hmoved, hbrace, List.map_append, List.map_singleton, ← hunterminated.withBrace_shift]
    rfl

section

variable {bindings : List Binding} {expected : SemanticType}
  (hbindings : ∀ b ∈ bindings, b.WellNamed) (hexpected : expected.WellNamed) (body : String)

include hbindings hexpected in
theorem plain_tokenize_header :
    ∀ lexeme ∈ tokenize (String.ofList (headerText bindings expected)),
      lexeme.token ≠ .error ∧ lexeme.token ≠ .lbrace := by
  obtain ⟨inParams, hparams⟩ := exists_paramsTokens hbindings
  obtain ⟨inResult, hresult⟩ := exists_typeTokens expected hexpected
  obtain ⟨header, htokens, hread⟩ := lexes_header hparams hresult [] 0
  rw [List.append_nil, lexemes_nil, List.append_nil] at hread
  rw [tokenize, String.toList_ofList, hread]
  exact header_plain hparams hresult htokens

include hbindings hexpected in
theorem header_not_endsUnterminated : ¬ EndsUnterminated 0 (headerText bindings expected) := by
  apply not_endsUnterminated_of_plain
  intro lexeme hmem
  apply (plain_tokenize_header hbindings hexpected lexeme _).1
  rwa [tokenize, String.toList_ofList]

include hbindings hexpected in
/-- The tokens of a wrapper are those of its header, a brace and those of the snippet with a brace
behind it. -/
theorem tokenize_synthesize : tokenize (synthesize bindings expected body) =
    tokenize (String.ofList (headerText bindings expected)) ++
      openingBrace bindings expected ::
        lexemes (bodyStart bindings expected) (body.toList ++ ['\x7d']) := by
  have hapart : ∀ d ∈ ('\x7b' :: (body.toList ++ ['\x7d'])).head?, Apart d := by
    intro d hd
    cases hd
    decide
  have hclosed := header_not_endsUnterminated hbindings hexpected
  rw [tokenize, tokenize, toList_synthesize, String.toList_ofList,
    lexemes_append hapart hclosed, lexemes_token rfl rfl]
  simp only [Nat.zero_add]
  rfl

include hbindings hexpected in
/-- The wrapper of a snippet has the tokens of its header, an opening brace, the tokens that the
snippet has on its own, moved by the start of the body, and a closing brace. If the snippet ends
with an unterminated string literal, then only the last token differs: it starts where the literal
does and takes the closing brace in. -/
theorem snippet_read_alike :
    ∃ tree, Tree.wrapper? (synthesize bindings expected body) = some tree ∧
      tree.body = some (bodySpan bindings expected body) ∧
      (¬ EndsUnterminated 0 body.toList →
        tree.lexemes = tokenize (String.ofList (headerText bindings expected)) ++
          openingBrace bindings expected ::
            ((Tree.discovery body).lexemes.map (Lexeme.shift (bodyStart bindings expected)) ++
              [closingBrace (bodySpan bindings expected body).stop])) ∧
      (EndsUnterminated 0 body.toList → ∃ before last,
        (Tree.discovery body).lexemes = before ++ [last] ∧ last.Unterminated ∧
        last.span.stop = byteLength body.toList ∧
        tree.lexemes = tokenize (String.ofList (headerText bindings expected)) ++
          openingBrace bindings expected ::
            (before.map (Lexeme.shift (bodyStart bindings expected)) ++
              [unterminatedInWrapper (bodyStart bindings expected) last])) := by
  obtain ⟨hwithBrace, hwithoutBrace⟩ := lexemes_body (bodyStart bindings expected) body
  simp only [Tree.wrapper?, bodySpan?_synthesize hbindings hexpected, Option.bind_eq_bind,
    Option.bind_some]
  refine ⟨_, rfl, rfl, ?closed, ?unterminated⟩
  case closed =>
    intro hclosed
    exact (tokenize_synthesize hbindings hexpected body).trans (by rw [hwithBrace hclosed]; rfl)
  case unterminated =>
    intro hopen
    obtain ⟨before, last, hlast, hunterminated, hstop, hread⟩ := hwithoutBrace hopen
    refine ⟨before, last, hlast, hunterminated, hstop, ?_⟩
    exact (tokenize_synthesize hbindings hexpected body).trans (by rw [hread])

end

/-- A snippet that ends with a backslash in a string literal, so that the brace of the wrapper
stands where an escaped character would. -/
theorem backslash_read_alike :
    let body := "x + \"\\"
    let bindings : List Binding := [⟨"x", .integer⟩]
    tokenize body = [⟨.ident "x", ['x'], ⟨0, 1⟩⟩, ⟨.plus, ['+'], ⟨2, 3⟩⟩,
      ⟨.error, ['"', '\\'], ⟨4, 6⟩⟩] ∧
    ∃ tree, Tree.wrapper? (synthesize bindings .integer body) = some tree ∧
      tree.lexemes = tokenize "|x: Int| -> Int " ++
        [⟨.lbrace, ['\x7b'], ⟨16, 17⟩⟩, ⟨.ident "x", ['x'], ⟨17, 18⟩⟩, ⟨.plus, ['+'], ⟨19, 20⟩⟩,
          ⟨.error, ['"', '\\', '\x7d'], ⟨21, 24⟩⟩] := by
  intro body bindings
  have hread : tokenize body = [⟨.ident "x", ['x'], ⟨0, 1⟩⟩, ⟨.plus, ['+'], ⟨2, 3⟩⟩,
      ⟨.error, ['"', '\\'], ⟨4, 6⟩⟩] := by
    decide +kernel
  have hbindings : ∀ b ∈ bindings, b.WellNamed := by
    intro b hmem
    rw [List.mem_singleton.mp hmem]
    exact ⟨by decide +kernel, wellNamed_integer⟩
  have hlength : byteLength body.toList = 6 := by
    decide +kernel
  have hopen : EndsUnterminated 0 body.toList := by
    refine ⟨⟨.error, ['"', '\\'], ⟨4, 6⟩⟩, congrArg List.getLast? hread, ?_, ?_⟩
    · exact ⟨rfl, ['\\'], rfl, .backslash⟩
    · rw [hlength]
  obtain ⟨tree, hwrapper, -, -, hunterminated⟩ := snippet_read_alike hbindings wellNamed_integer body
  obtain ⟨before, last, hlast, -, -, htree⟩ := hunterminated hopen
  have hsplit : before ++ [last] = [⟨.ident "x", ['x'], ⟨0, 1⟩⟩, ⟨.plus, ['+'], ⟨2, 3⟩⟩] ++
      [⟨.error, ['"', '\\'], ⟨4, 6⟩⟩] := hlast.symm.trans hread
  obtain ⟨hbefore, hlast⟩ := List.append_inj' hsplit rfl
  rw [hbefore, (List.cons.inj hlast).1] at htree
  refine ⟨hread, tree, hwrapper, ?_⟩
  rw [htree]
  decide +kernel

end ExprVet.Calc
