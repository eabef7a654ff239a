import ExprVet.Proofs.Acceptance
import ExprVet.Proofs.Places
import ExprVet.Proofs.TokenTexts

/-!
# Messages about error tokens

What is wrong with an error token is told by its first and its last character. This is right of
numbers. Of a string literal it is right unless the last quote of a text that nothing closes stands
behind a backslash, or the lexer gave a literal up at the end of a line that a later quote closes.
-/

namespace ExprVet.Calc

open Text

/-- What is wrong with a string literal that has an unknown escape. -/
def invalidEscapeMessage : String := "invalid escape in string literal"

/-- What is wrong with a string literal that nothing closes. -/
def unterminatedMessage : String := "unterminated string literal"

/-- The message tells what is wrong with the string literal that starts in front of a text: it is
closed and not all of its escapes are known, or nothing closes it. -/
structure RightOfString (behind : List Char) (message : String) : Prop where
  invalidEscape : message = invalidEscapeMessage ↔
    ∃ contents, contents? behind = some contents ∧ ¬∀ c ∈ escapes contents, c ∈ knownEscapes
  unterminated : message = unterminatedMessage ↔ contents? behind = none

/-- The last characters of string literals do not mislead: a closed one has no newline behind a
backslash, and one that nothing closes has such a newline if its last character is a quote. -/
structure Unmistakable (behind : List Char) : Prop where
  closed : ∀ contents, contents? behind = some contents → '\n' ∉ escapes contents
  unclosed : contents? behind = none → behind.getLast? = some '"' → '\n' ∈ escapes behind

theorem lexicalMessage_quote (rest : List Char) : lexicalMessage ('"' :: rest) =
    if rest.getLast? = some '"' then invalidEscapeMessage else unterminatedMessage :=
  rfl

theorem invalidEscapeMessage_ne : invalidEscapeMessage ≠ unterminatedMessage := by
  decide

section

variable {behind contents : List Char} {message : String}

theorem rightOfString_of_some (h : contents? behind = some contents) :
    RightOfString behind message ↔
      (message = invalidEscapeMessage ↔ ¬∀ c ∈ escapes contents, c ∈ knownEscapes) ∧
      message ≠ unterminatedMessage := by
  have hinvalid : (∃ found, contents? behind = some found ∧
      ¬∀ c ∈ escapes found, c ∈ knownEscapes) ↔ ¬∀ c ∈ escapes contents, c ∈ knownEscapes := by
    simp [h]
  have hclosed : contents? behind ≠ none := by simp [h]
  constructor
  · exact fun hright => ⟨hright.invalidEscape.trans hinvalid, mt hright.unterminated.mp hclosed⟩
  · rintro ⟨hmessage, hne⟩
    exact ⟨hmessage.trans hinvalid.symm, iff_of_false hne hclosed⟩

theorem rightOfString_of_none (h : contents? behind = none) :
    RightOfString behind message ↔ message = unterminatedMessage := by
  constructor
  · exact fun hright => hright.unterminated.mpr h
  · rintro rfl
    exact ⟨iff_of_false invalidEscapeMessage_ne.symm (by simp [h]), iff_of_true rfl h⟩

theorem unmistakable_of_some (h : contents? behind = some contents) :
    Unmistakable behind ↔ '\n' ∉ escapes contents := by
  constructor
  · exact fun hclear => hclear.closed contents h
  · exact fun hnewline => ⟨by simpa [h] using hnewline, by simp [h]⟩

theorem unmistakable_of_none (h : contents? behind = none) :
    Unmistakable behind ↔ (behind.getLast? = some '"' → '\n' ∈ escapes behind) := by
  constructor
  · exact fun hclear => hclear.unclosed h
  · exact fun hlast => ⟨by simp [h], fun _ => hlast⟩

end

theorem rightOfString_iff_unmistakable {behind : List Char} {more : Nat}
    (h : stringToken behind = (.error, more)) :
    RightOfString behind (lexicalMessage ('"' :: behind.take more)) ↔ Unmistakable behind := by
  rw [lexicalMessage_quote]
  rcases stringEnd_contents behind with ⟨contents, hcontents, hescapes, hend⟩ |
    ⟨hnone, hescapes, hend⟩ | ⟨hescapes, length, hend, hlast⟩
  · -- a closed literal with an unknown escape
    rw [stringToken, hend] at h
    obtain ⟨htoken, rfl⟩ := Prod.mk.inj h
    obtain ⟨hcontentsTake, htake⟩ := take_of_contents? hcontents
    have hunknown : ¬∀ c ∈ escapes contents, c ∈ knownEscapes := by
      rw [← unescape_isSome_iff hcontents]
      intro hsome
      obtain ⟨text, htext⟩ := Option.isSome_iff_exists.mp hsome
      rw [hcontentsTake, htext] at htoken
      cases htoken
    rw [htake, List.getLast?_concat, if_pos rfl, rightOfString_of_some hcontents,
      unmistakable_of_some hcontents]
    exact iff_of_true ⟨iff_of_true rfl hunknown, invalidEscapeMessage_ne⟩ hescapes
  · -- the text ends in the literal
    rw [stringToken, hend] at h
    obtain ⟨-, rfl⟩ := Prod.mk.inj h
    rw [List.take_length, rightOfString_of_none hnone, unmistakable_of_none hnone]
    by_cases hquote : behind.getLast? = some '"'
    · rw [if_pos hquote]
      exact iff_of_false invalidEscapeMessage_ne (fun hlast => hescapes (hlast hquote))
    · rw [if_neg hquote]
      exact iff_of_true rfl (fun hlast => absurd hlast hquote)
  · -- the literal is given up at the end of a line
    rw [stringToken, hend] at h
    obtain ⟨-, rfl⟩ := Prod.mk.inj h
    rw [hlast, if_neg (by decide)]
    cases hcontents : contents? behind with
    | none =>
        rw [hcontents] at hescapes
        rw [rightOfString_of_none hcontents, unmistakable_of_none hcontents]
        exact iff_of_true rfl (fun _ => hescapes)
    | some contents =>
        rw [hcontents] at hescapes
        rw [rightOfString_of_some hcontents, unmistakable_of_some hcontents]
        exact iff_of_false (fun hright => hright.2 rfl) (fun hnewline => hnewline hescapes)

/-- What is wrong with an integer literal that is too large. -/
def outOfRangeMessage (digits : List Char) : String :=
  "integer literal `" ++ String.ofList digits ++ "` out of range"

/-- A number is an error token exactly if it is an integer above the largest one. -/
theorem numberToken_eq_error_iff {c : Char} (hc : isDigit c = true) {cs : List Char} {token : Token}
    {more : Nat} (h : numberToken c cs = (token, more)) :
    token = .error ↔ (c :: cs.take more).all isDigit = true ∧
      maxInt < digitsValue (c :: cs.take more) := by
  rcases numberToken_cases c cs with hint | ⟨fraction, -, -, hprefix, hfloat⟩
  · rw [hint] at h
    obtain ⟨rfl, rfl⟩ := Prod.mk.inj h
    have hdigits : (c :: cs.takeWhile isDigit).all isDigit = true := by
      rw [List.all_cons, hc, List.all_takeWhile, Bool.true_and]
    rw [take_length_takeWhile, and_iff_right hdigits, ← Nat.not_le]
    split <;> simp_all
  · rw [hfloat] at h
    obtain ⟨rfl, rfl⟩ := Prod.mk.inj h
    refine iff_of_false (by simp) fun hdigits => ?_
    have hpoint := List.all_eq_true.mp hdigits.1 '.'
    rw [← List.prefix_iff_eq_take.mp hprefix] at hpoint
    exact absurd (hpoint (by simp)) (by decide)

theorem lexicalMessage_digit {c : Char} (hc : isDigit c = true) (cs : List Char) :
    lexicalMessage (c :: cs) = outOfRangeMessage (c :: cs) := by
  have hquote : c ≠ '"' := by
    rintro rfl
    exact absurd hc (by decide)
  unfold lexicalMessage
  split
  · rename_i heq
    exact absurd (List.cons.inj heq).1 hquote
  · rename_i heq
    obtain ⟨rfl, rfl⟩ := List.cons.inj heq
    exact if_pos hc
  · rename_i heq
    cases heq

/-- What is reported of an error token of a snippet. -/
def Lexeme.diagnostic (lexeme : Lexeme) : Diagnostic :=
  ⟨.error, "E001", lexicalMessage lexeme.text, some lexeme.span⟩

/-- The error of a token is told in the place of the token. -/
theorem ReadsBack.toDiagnostic_error {bindings : List Binding} {expected : SemanticType}
    {body : String} {tree : Tree} (htree : ReadsBack bindings expected body tree)
    {lexeme : Lexeme} (h : lexeme ∈ tokenize body) :
    ((Finding.syntaxError (lexeme.error (bodyStart bindings expected)).message).at
      (lexeme.error (bodyStart bindings expected)).span).toDiagnostic tree =
        lexeme.diagnostic := by
  have hplace := Span.within_shift (start_lt_stop_of_mem_lexemes h).le
    (bounded_of_mem_tokenize h).stop.le_byteLength (bodyStart bindings expected)
  have hsnippet : tree.snippetSpan (lexeme.span.shift (bodyStart bindings expected)) =
      some lexeme.span := by
    rw [htree.snippetSpan_eq]
    exact hplace
  rw [Lexeme.diagnostic, ← hsnippet]
  rfl

/-- The error tokens of a snippet are reported first. -/
theorem ReadsBack.exists_check_eq {bindings : List Binding} {expected : SemanticType}
    {body : String} {tree : Tree} (hbindings : ∀ b ∈ bindings, b.WellNamed)
    (hexpected : expected.WellNamed) (htree : ReadsBack bindings expected body tree)
    (modules : List ModuleInfo) (imports : List String) :
    ∃ rest, check tree modules imports =
      ((tokenize body).filter (·.token == .error)).map Lexeme.diagnostic ++ rest := by
  obtain ⟨parse, herrors, -⟩ := htree.syntaxErrors_eq hbindings hexpected
  simp only [check, findings, herrors, List.map_append, List.append_assoc, List.map_map]
  refine ⟨_, congrArg (· ++ _) (List.map_congr_left fun lexeme hmem => ?_)⟩
  exact htree.toDiagnostic_error (List.mem_of_mem_filter hmem)

/-- The messages about error tokens come first, one for each, in its place. Of a token that starts
with a quote the message tells what is wrong with the literal behind it exactly if that literal is
unmistakable. A token that starts with a digit is an error exactly if it is an integer above the
largest one, and the message says so. -/
theorem lexicalErrors_right_iff_unmistakable {bindings : List Binding} {expected : SemanticType}
    (hbindings : ∀ b ∈ bindings, b.WellNamed) (hexpected : expected.WellNamed) (body : String)
    (modules : List ModuleInfo) (imports : List String) :
    ∃ tree rest, Tree.wrapper? (synthesize bindings expected body) = some tree ∧
      check tree modules imports =
        ((tokenize body).filter (·.token == .error)).map Lexeme.diagnostic ++ rest ∧
      ∀ lexeme ∈ tokenize body, ∃ before first behind, body.toList = before ++ first :: behind ∧
        lexeme.span.start = byteLength before ∧
        (lexeme.token = .error → first = '"' →
          (RightOfString behind (lexicalMessage lexeme.text) ↔ Unmistakable behind)) ∧
        (isDigit first = true → (lexeme.token = .error ↔
          lexeme.text.all isDigit = true ∧ maxInt < digitsValue lexeme.text)) ∧
        (isDigit first = true → lexeme.token = .error →
          lexicalMessage lexeme.text = outOfRangeMessage lexeme.text) := by
  obtain ⟨tree, hwrapper, htree⟩ := exists_wrapper_synthesize hbindings hexpected body
  obtain ⟨rest, hcheck⟩ := htree.exists_check_eq hbindings hexpected modules imports
  refine ⟨tree, rest, hwrapper, hcheck, fun lexeme hmem => ?_⟩
  obtain ⟨before, first, behind, more, hbody, hstart, -, htoken, htext⟩ :=
    exists_firstToken_of_mem_lexemes hmem
  refine ⟨before, first, behind, hbody, hstart.trans (Nat.zero_add _), ?_, ?_, ?_⟩
  · rintro herror rfl
    rw [herror] at htoken
    rw [htext]
    exact rightOfString_iff_unmistakable htoken
  · intro hdigit
    rw [firstToken_digit hdigit] at htoken
    rw [htext]
    exact numberToken_eq_error_iff hdigit htoken
  · intro hdigit _
    rw [htext]
    exact lexicalMessage_digit hdigit _

theorem unknownEscape_and_largeInteger_right :
    ∃ tree rest,
      Tree.wrapper? (synthesize [⟨"x", .integer⟩] .integer "\"a\\q\" + 9999999999999999999") =
        some tree ∧
      check tree [] [] = ⟨.error, "E001", invalidEscapeMessage, some ⟨0, 5⟩⟩ ::
        ⟨.error, "E001", outOfRangeMessage "9999999999999999999".toList, some ⟨8, 27⟩⟩ :: rest := by
  have hbindings : ∀ b ∈ [(⟨"x", .integer⟩ : Binding)], b.WellNamed := by
    intro b hmem
    rw [List.mem_singleton.mp hmem]
    exact ⟨by decide +kernel, wellNamed_integer⟩
  have herrors : ((tokenize "\"a\\q\" + 9999999999999999999").filter (·.token == .error)).map
      Lexeme.diagnostic = [⟨.error, "E001", invalidEscapeMessage, some ⟨0, 5⟩⟩,
        ⟨.error, "E001", outOfRangeMessage "9999999999999999999".toList, some ⟨8, 27⟩⟩] := by
    decide +kernel
  obtain ⟨tree, rest, hwrapper, hcheck, -⟩ := lexicalErrors_right_iff_unmistakable hbindings
    wellNamed_integer "\"a\\q\" + 9999999999999999999" [] []
  rw [herrors] at hcheck
  exact ⟨tree, rest, hwrapper, hcheck⟩

/-- The quote at the end stands behind a backslash and closes nothing. -/
theorem escapedQuote_misnamed :
    ∃ tree, Tree.wrapper? (synthesize [] .object "\"a\\\"") = some tree ∧
      ⟨.error, "E001", invalidEscapeMessage, some ⟨0, 4⟩⟩ ∈ check tree [] [] ∧
      contents? ['a', '\\', '"'] = none ∧
      ¬RightOfString ['a', '\\', '"'] invalidEscapeMessage := by
  have hreported : (Tree.wrapper? (synthesize [] .object "\"a\\\"")).map (fun tree =>
      decide (⟨.error, "E001", invalidEscapeMessage, some ⟨0, 4⟩⟩ ∈ check tree [] [])) =
        some true := by
    decide +kernel
  obtain ⟨tree, hwrapper, hmem⟩ := Option.map_eq_some_iff.mp hreported
  refine ⟨tree, hwrapper, of_decide_eq_true hmem, rfl, fun hright => ?_⟩
  obtain ⟨contents, hcontents, -⟩ := hright.invalidEscape.mp rfl
  cases hcontents

end ExprVet.Calc
